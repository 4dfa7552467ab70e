import Parlance.Proofs.Message.Demand
import Parlance.Sample
/-!
Where wrong braces are reported. A position counts from the start of the text that was read as a
pattern, which is the whole pattern or the body of a branch that was asked for in such a text
(Reads). The reported brace stands so many characters behind the place where that text starts in the
whole pattern (reported_braces); outside of all branches this is the position itself.
-/

namespace Parlance

namespace Outcome

/-- A run that reports no wrong brace, whatever it comes to. -/
def Grammatical (result : Except Fault Outcome) : Prop :=
  ∀ outcome, result = .ok outcome → ∀ issue ∈ outcome.issues, issue.family ≠ .grammar

theorem grammatical_error (fault : Fault) : Grammatical (.error fault) := by
  rintro outcome ⟨⟩

theorem grammatical_plain (t : Text) : Grammatical (.ok (.plain t)) := by
  rintro outcome ⟨⟩ issue ⟨⟩

theorem grammatical_kept {issue : Issue} (h : issue.family ≠ .grammar) (t : Text) :
    Grammatical (.ok (.kept t issue)) := by
  rintro outcome ⟨⟩ other hother
  rwa [List.mem_singleton.1 hother]

end Outcome

namespace Message

variable {L : Type}

namespace Demand

open Outcome

/-- Only a wrong brace is reported before a branch is entered. -/
theorem Settles.grammatical {token : Token} {result : Except Fault Outcome}
    (h : Settles token result) (hjunk : ∀ problem position, token ≠ .junk problem position) :
    Grammatical result := by
  cases h with
  | fault fault => exact grammatical_error fault
  | plain t => exact grammatical_plain t
  | junk problem position => exact absurd rfl (hjunk problem position)
  | notProvided | notNumeric | noFormatter | failed => exact grammatical_kept (by rintro ⟨⟩) _

end Demand

/-- A branch that is refused reports only that. -/
theorem grammatical_refused (limit : Int) (source : Text) :
    Outcome.Grammatical (refused limit source) := by
  intro outcome h
  obtain rfl := eq_kept_of_refused h
  exact Outcome.grammatical_kept (by rintro ⟨⟩) source _ rfl

/-- The texts that are read as patterns when a pattern is resolved, each with the place where it
starts in the pattern and the numeral that it is read with: the pattern itself, and the body of a
branch that a construct of such a text asks for. -/
inductive Reads (ctx : Context L) (pattern : Text) : Nat → Option Text → Text → Prop where
  | whole : Reads ctx pattern 0 none pattern
  | branch {start pos : Nat} {numeral inner : Option Text} {level source : Text}
      {form : Construct.Form} {b : Construct.PlacedBranch}
      (outer : Reads ctx pattern start numeral level)
      (token : .construct (form.construct pos) ∈ Token.ofPattern level)
      (placed : b ∈ form.placedBranches pos)
      (demand : Demand.ofToken ctx numeral (.construct (form.construct pos)) =
        .branch source inner b.body) :
      Reads ctx pattern (start + b.start) inner b.body

/-- A wrong brace of a text that is read, as the text has it. -/
def Reported (ctx : Context L) (pattern : Text) (issue : Issue) : Prop :=
  ∃ start numeral level problem position, Reads ctx pattern start numeral level ∧
    Token.junk problem position ∈ Token.ofPattern level ∧
    issue = .grammar (problem.diagnostic position)

section Places

variable {ctx : Context L} {pattern level : Text} {start : Nat} {numeral : Option Text}

/-- A construct of a text stands at its position. -/
theorem exists_around_of_construct {form : Construct.Form} {pos : Nat}
    (h : .construct (form.construct pos) ∈ Token.ofPattern level) :
    ∃ before after, level = before ++ form.text ++ after ∧ before.length = pos := by
  obtain ⟨before, after, htokens⟩ := List.append_of_mem h
  have hspan := Token.span?_of_ofPattern_eq htokens rfl
  refine ⟨before.flatMap Token.source, after.flatMap Token.source, ?_, ?_⟩
  · rw [← Token.flatMap_source_ofPattern level, htokens]
    simp [Token.source, Construct.Form.construct]
  · exact (congrArg Span.start (Option.some.inj hspan)).symm

/-- What is read stands in the pattern at its place. -/
theorem Reads.exists_around (h : Reads ctx pattern start numeral level) :
    ∃ front back, pattern = front ++ level ++ back ∧ front.length = start := by
  induction h with
  | whole => exact ⟨[], [], by simp, rfl⟩
  | @branch start pos numeral inner level source form b _ htoken hplaced _ ih =>
    obtain ⟨front, back, rfl, rfl⟩ := ih
    obtain ⟨before, after, rfl, rfl⟩ := exists_around_of_construct htoken
    obtain ⟨between, behind, htext, hstart⟩ := Construct.Form.exists_around hplaced
    refine ⟨front ++ before ++ '{' :: (between ++ ['{']), '}' :: behind ++ after ++ back, ?_, ?_⟩
    · rw [htext]
      simp
    · rw [hstart]
      simp only [List.length_append, List.length_cons, List.length_nil]
      omega

/-- Only the whole pattern starts at its start. -/
theorem Reads.whole_or_inside (h : Reads ctx pattern start numeral level) :
    start = 0 ∧ level = pattern ∨ 2 ≤ start := by
  cases h with
  | whole => exact .inl ⟨rfl, rfl⟩
  | branch _ _ hplaced _ =>
    obtain ⟨between, behind, -, hstart⟩ := Construct.Form.exists_around hplaced
    exact .inr (by omega)

theorem Reads.getElem? (h : Reads ctx pattern start numeral level) {position : Nat} {c : Char}
    (hc : level[position]? = some c) : pattern[start + position]? = some c := by
  obtain ⟨front, back, rfl, rfl⟩ := h.exists_around
  obtain ⟨hlength, -⟩ := List.getElem?_eq_some_iff.1 hc
  rw [List.append_assoc, List.getElem?_append_right (Nat.le_add_right ..), Nat.add_sub_cancel_left,
    List.getElem?_append_left hlength, hc]

/-- A wrong brace tells where it stands. -/
theorem getElem?_of_junk {problem : Token.Problem} {position : Nat}
    (h : .junk problem position ∈ Token.ofPattern level) : level[position]? = some '{' := by
  obtain ⟨before, after, htokens⟩ := List.append_of_mem h
  have hspan := Token.span?_of_ofPattern_eq htokens rfl
  obtain rfl : position = (before.flatMap Token.source).length :=
    congrArg Span.start (Option.some.inj hspan)
  have hlevel : level = before.flatMap Token.source ++ '{' :: after.flatMap Token.source := by
    rw [← Token.flatMap_source_ofPattern level, htokens, List.flatMap_append, List.flatMap_cons]
    rfl
  have hat := congrArg (·[(before.flatMap Token.source).length]?) hlevel
  simpa using hat

end Places

section Runs

variable {ctx : Context L} {enter : Enter} {pattern level : Text} {start : Nat}
  {numeral : Option Text}

/-- Every wrong brace that a run reports is one of a text that is read. -/
def AllReported (ctx : Context L) (pattern : Text) (result : Except Fault Outcome) : Prop :=
  ∀ outcome, result = .ok outcome → ∀ issue ∈ outcome.issues, issue.family = .grammar →
    Reported ctx pattern issue

theorem allReported_of_grammatical {result : Except Fault Outcome}
    (h : Outcome.Grammatical result) : AllReported ctx pattern result :=
  fun outcome houtcome issue hissue hfamily => absurd hfamily (h outcome houtcome issue hissue)

theorem AllReported.beside {a b : Except Fault Outcome} (ha : AllReported ctx pattern a)
    (hb : AllReported ctx pattern b) : AllReported ctx pattern (Outcome.beside a b) := by
  intro outcome houtcome issue hissue
  obtain ⟨first, others, hfirst, hothers, rfl⟩ := Outcome.beside_eq_ok_iff.1 houtcome
  rcases List.mem_append.1 hissue with hmem | hmem
  · exact ha first hfirst issue hmem
  · exact hb others hothers issue hmem

/-- Entering a branch reports what is wrong in texts that are read, if its body is one. -/
def Reporting (ctx : Context L) (pattern : Text) (enter : Enter) : Prop :=
  ∀ run, enter = some run → ∀ start numeral body, Reads ctx pattern start numeral body →
    AllReported ctx pattern (run numeral body)

/-- A token of a text that is read reports itself, or its branch is read too. -/
theorem allReported_resolveToken (henter : Reporting ctx pattern enter)
    (hreads : Reads ctx pattern start numeral level) {token : Token}
    (hmem : token ∈ Token.ofPattern level) :
    AllReported ctx pattern (resolveToken ctx enter numeral token) := by
  by_cases hjunk : ∃ problem position, token = .junk problem position
  · obtain ⟨problem, position, rfl⟩ := hjunk
    rintro outcome ⟨⟩ issue hissue -
    exact ⟨start, numeral, level, problem, position, hreads, hmem, List.mem_singleton.1 hissue⟩
  · rw [← Demand.meet_ofToken]
    cases hdemand : Demand.ofToken ctx numeral token with
    | settled result =>
      have hother : ∀ problem position, token ≠ .junk problem position :=
        fun problem position h => hjunk ⟨problem, position, h⟩
      exact allReported_of_grammatical ((Demand.settles_of_settled hdemand).grammatical hother)
    | branch source inner body =>
      cases enter with
      | none => exact allReported_of_grammatical (grammatical_refused ctx.limit source)
      | some run =>
        obtain ⟨c, rfl, b, hb, rfl⟩ := Demand.exists_branch_of_eq hdemand
        obtain ⟨form, pos, rfl⟩ := Token.exists_form_of_mem hmem
        rw [← Construct.Form.map_placedBranches] at hb
        obtain ⟨placed, hplaced, rfl⟩ := List.mem_map.1 hb
        exact henter run rfl _ _ _ (hreads.branch hmem hplaced hdemand)

theorem allReported_resolveWith (henter : Reporting ctx pattern enter)
    (hreads : Reads ctx pattern start numeral level) :
    AllReported ctx pattern (resolveWith ctx enter numeral level) := by
  rw [resolveWith_eq_resolveTokens]
  suffices hall : ∀ tokens ⊆ Token.ofPattern level,
      AllReported ctx pattern (resolveTokens ctx enter numeral tokens) from
    hall _ (List.Subset.refl _)
  intro tokens htokens
  induction tokens with
  | nil => exact allReported_of_grammatical (Outcome.grammatical_plain [])
  | cons token tokens ih =>
    rw [List.cons_subset] at htokens
    rw [resolveTokens_cons]
    exact (allReported_resolveToken henter hreads htokens.1).beside (ih htokens.2)

/-- By induction on the budget: the body of a branch is a text that is read, one level deeper. -/
theorem allReported_resolve (budget : Nat) (hreads : Reads ctx pattern start numeral level) :
    AllReported ctx pattern (resolve ctx budget numeral level) := by
  induction budget generalizing start numeral level with
  | zero => exact allReported_resolveWith (by rintro run ⟨⟩) hreads
  | succ budget ih =>
    refine allReported_resolveWith ?_ hreads
    rintro run ⟨⟩ start numeral body hbody
    exact ih hbody

/-- The issues of a token are among those of the tokens around it. -/
theorem exists_resolveToken_of_mem {tokens : List Token} {token : Token} {outcome : Outcome}
    (hmem : token ∈ tokens) (h : resolveTokens ctx enter numeral tokens = .ok outcome) :
    ∃ part, resolveToken ctx enter numeral token = .ok part ∧ part.issues ⊆ outcome.issues := by
  induction tokens generalizing outcome with
  | nil => cases hmem
  | cons other tokens ih =>
    rw [resolveTokens_cons, Outcome.beside_eq_ok_iff] at h
    obtain ⟨first, others, hfirst, hothers, rfl⟩ := h
    rcases List.mem_cons.1 hmem with rfl | hrest
    · exact ⟨first, hfirst, List.subset_append_left ..⟩
    · obtain ⟨part, hpart, hissues⟩ := ih hrest hothers
      exact ⟨part, hpart, List.subset_append_of_subset_right _ hissues⟩

/-- Where no branch is refused, every text that is read is resolved, and its issues are reported. -/
theorem Reads.exists_resolve {budget : Nat} {outcome : Outcome}
    (h : resolve ctx budget none pattern = .ok outcome) (hnone : outcome.NoneRefused)
    (hreads : Reads ctx pattern start numeral level) :
    ∃ levels part, resolve ctx levels numeral level = .ok part ∧ part.issues ⊆ outcome.issues := by
  induction hreads with
  | whole => exact ⟨budget, outcome, h, List.Subset.refl _⟩
  | branch _ htoken _ hdemand ih =>
    obtain ⟨levels, whole, hwhole, hissues⟩ := ih
    cases levels with
    | zero =>
      -- the branch would be refused
      rw [resolve, resolveWith_eq_resolveTokens] at hwhole
      obtain ⟨part, hpart, hpartIssues⟩ := exists_resolveToken_of_mem htoken hwhole
      rw [← Demand.meet_ofToken, hdemand] at hpart
      obtain rfl := eq_kept_of_refused hpart
      exact absurd rfl (hnone _ (hissues (hpartIssues List.mem_cons_self)))
    | succ levels =>
      rw [resolve, resolveWith_eq_resolveTokens] at hwhole
      obtain ⟨part, hpart, hpartIssues⟩ := exists_resolveToken_of_mem htoken hwhole
      rw [← Demand.meet_ofToken, hdemand] at hpart
      exact ⟨levels, part, hpart, List.Subset.trans hpartIssues hissues⟩

theorem grammar_mem_issues_of_junk {budget : Nat} {outcome : Outcome} {problem : Token.Problem}
    {position : Nat} (h : resolve ctx budget numeral level = .ok outcome)
    (hjunk : .junk problem position ∈ Token.ofPattern level) :
    .grammar (problem.diagnostic position) ∈ outcome.issues := by
  obtain ⟨enter, henter⟩ := exists_resolve_eq ctx budget
  rw [henter, resolveWith_eq_resolveTokens] at h
  obtain ⟨part, hpart, hissues⟩ := exists_resolveToken_of_mem hjunk h
  cases hpart
  exact hissues List.mem_cons_self

end Runs

end Message

namespace Resolver

variable {L : Type}

/-- With arguments or without, what is reported is a wrong brace of a text that is read. -/
theorem reported_of_mem_issues {r : Resolver L} {arguments : Arguments} {pattern : Text}
    {outcome : Outcome} (h : r.resolve arguments pattern = .ok outcome) {issue : Issue}
    (hissue : issue ∈ outcome.issues) (hfamily : issue.family = .grammar) :
    Message.Reported (r.context arguments) pattern issue := by
  cases hempty : arguments.isEmpty with
  | true =>
    rw [resolve, if_pos hempty] at h
    cases h
    cases hissue
  | false =>
    rw [resolve_of_isEmpty_eq_false hempty] at h
    exact Message.allReported_resolve _ .whole outcome h issue hissue hfamily

/-- Every wrong brace that is reported belongs to a text that is read as a pattern. The position
points at the brace from the start of that text, so that the brace stands in the whole pattern where
the position is added to the place of the text. The position alone is right if the brace stands
outside of all branches, and too small otherwise. Unless a branch is refused, the wrong braces of
all texts that are read are reported so. -/
theorem reported_braces {r : Resolver L} {arguments : Arguments} {pattern : Text}
    {outcome : Outcome} (h : r.resolve arguments pattern = .ok outcome) :
    (∀ issue ∈ outcome.issues, issue.family = .grammar →
      ∃ (start : Nat) (numeral : Option Text) (level : Text) (problem : Token.Problem)
        (position : Nat), Message.Reads (r.context arguments) pattern start numeral level ∧
        (start = 0 ∧ level = pattern ∨ 2 ≤ start) ∧
        .junk problem position ∈ Token.ofPattern level ∧
        issue = .grammar (problem.diagnostic position) ∧
        (problem.diagnostic position).position = some (position : Int) ∧
        level[position]? = some '{' ∧ pattern[start + position]? = some '{') ∧
    (arguments.isEmpty = false → outcome.NoneRefused → ∀ start numeral level,
      Message.Reads (r.context arguments) pattern start numeral level →
      ∀ problem position, .junk problem position ∈ Token.ofPattern level →
        .grammar (problem.diagnostic position) ∈ outcome.issues) := by
  constructor
  · intro issue hissue hfamily
    obtain ⟨start, numeral, level, problem, position, hreads, hjunk, rfl⟩ :=
      reported_of_mem_issues h hissue hfamily
    have hbrace := Message.getElem?_of_junk hjunk
    refine ⟨start, numeral, level, problem, position, hreads, hreads.whole_or_inside, hjunk, rfl,
      ?_, hbrace, hreads.getElem? hbrace⟩
    cases problem <;> rfl
  · intro hgiven hnone start numeral level hreads problem position hjunk
    rw [resolve_of_isEmpty_eq_false hgiven] at h
    obtain ⟨levels, part, hpart, hissues⟩ := hreads.exists_resolve h hnone
    exact hissues (Message.grammar_mem_issues_of_junk hpart hjunk)

/-- A malformed construct in the branch of a selection. -/
def malformedInBranch : Text := "\x7bg, select, other\x7bx\x7bn, plural, bad\x7d\x7d\x7d"

/-- An argument that selects the branch. -/
def selecting : Arguments := (∅ : Arguments).insert "g" (.text "a")

theorem ofPattern_malformedInBranch :
    Token.ofPattern malformedInBranch =
      [.construct ⟨"g", .choice .select [⟨"other", "x\x7bn, plural, bad\x7d"⟩], malformedInBranch,
        .ofLength 0 37⟩] ∧
    Token.ofPattern "x\x7bn, plural, bad\x7d" =
      [.text "x", .junk (.malformed "\x7bn, plural, bad\x7d") 1, .text "n, plural, bad\x7d"] := by
  constructor <;> cbv

theorem resolve_malformedInBranch :
    (ofLocale Sample.host "en_US").resolve selecting malformedInBranch =
      .ok ⟨"x\x7bn, plural, bad\x7d",
        [.grammar (.malformedConstruct "\x7bn, plural, bad\x7d" 1)]⟩ := by
  obtain ⟨hpattern, hbody⟩ := ofPattern_malformedInBranch
  have hlevels : ((ofLocale Sample.host "en_US").context selecting).limit.toNat = 99 + 1 := rfl
  obtain ⟨enter, henter⟩ :=
    Message.exists_resolve_eq ((ofLocale Sample.host "en_US").context selecting) 99
  have hselect : Message.resolveToken ((ofLocale Sample.host "en_US").context selecting)
      (some (Message.resolveWith ((ofLocale Sample.host "en_US").context selecting) enter)) none
      (.construct ⟨"g", .choice .select [⟨"other", "x\x7bn, plural, bad\x7d"⟩], malformedInBranch,
        .ofLength 0 37⟩) =
      Message.resolveWith ((ofLocale Sample.host "en_US").context selecting) enter none
        "x\x7bn, plural, bad\x7d" := rfl
  rw [resolve_of_isEmpty_eq_false rfl, hlevels, Message.resolve, henter,
    Message.resolveWith_eq_resolveTokens, hpattern, Message.resolveTokens_cons, hselect,
    Message.resolveWith_eq_resolveTokens, hbody]
  rfl

/-- The brace is the second character of the branch, and so it is found. -/
theorem reported_braces_malformedInBranch :
    (ofLocale Sample.host "en_US").resolve selecting malformedInBranch =
      .ok ⟨"x\x7bn, plural, bad\x7d",
        [.grammar (.malformedConstruct "\x7bn, plural, bad\x7d" 1)]⟩ ∧
    ∃ start numeral level,
      Message.Reads ((ofLocale Sample.host "en_US").context selecting) malformedInBranch start
        numeral level ∧
      level[1]? = some '{' ∧ malformedInBranch[start + 1]? = some '{' := by
  refine ⟨resolve_malformedInBranch, ?_⟩
  obtain ⟨start, numeral, level, problem, position, hreads, -, -, hissue, hposition, hlevel,
    hpattern⟩ := (reported_braces resolve_malformedInBranch).1 _ (List.mem_singleton_self _) rfl
  have hsame := congrArg (fun issue => issue.diagnostic?.bind Diagnostic.position) hissue
  have hone : (1 : Int) = position := Option.some.inj (hsame.trans hposition)
  obtain rfl : 1 = position := by omega
  exact ⟨start, numeral, level, hreads, hlevel, hpattern⟩

/-- In the whole pattern another character stands at the position, and the brace further on. -/
theorem position_malformedInBranch :
    (ofLocale Sample.host "en_US").resolve selecting malformedInBranch =
        .ok ⟨"x\x7bn, plural, bad\x7d",
          [.grammar (.malformedConstruct "\x7bn, plural, bad\x7d" 1)]⟩ ∧
      (Diagnostic.malformedConstruct "\x7bn, plural, bad\x7d" 1).position = some 1 ∧
      malformedInBranch[1]? = some 'g' ∧ malformedInBranch[19]? = some '{' :=
  ⟨resolve_malformedInBranch, rfl, rfl, rfl⟩

end Resolver

end Parlance
