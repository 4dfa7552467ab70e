import Parlance.Proofs.Message.Tree
import Parlance.Sample
/-!
Resolving a pattern agrees with reading it as a tree first and then taking what the tree means
(resolve_eq_interpret). Resolving reads the body of a branch only when it is chosen, and counts
levels down from the limit where the tree counts the open branches up to it.
-/

namespace Parlance

open Construct

namespace Message

variable {L : Type} (ctx : Context L)

theorem choose_map (c : Construct) (mean : Text → Meaning) (label : Text) :
    choose (c.branches.map fun b => (b.label, mean b.body)) label =
      (Plural.select c.forms label).map mean := by
  have hfind (l : Text) : (c.branches.map fun b => (b.label, mean b.body)).find? (·.1 = l) =
      (c.branches.find? (·.label = l)).map fun b => (b.label, mean b.body) := by
    rw [List.find?_map]
    rfl
  rw [choose, hfind, hfind, Plural.select, lookup_forms, lookup_forms]
  cases c.branches.find? (·.label = label) with
  | some b => rfl
  | none =>
    simp only [Option.map_none, Option.none_or, Option.map_map]
    rfl

theorem branchMeanings_map (branches : List Branch) :
    branchMeanings ctx (branches.map fun b => (b.label, parse b.body)) =
      branches.map fun b => (b.label, meaning ctx (parse b.body)) := by
  induction branches with
  | nil => rfl
  | cons b rest ih => rw [List.map_cons, List.map_cons, branchMeanings, ih]

/-- How the bodies of branches are resolved where some branches are open, in terms of their
trees. -/
def entering (depth : Int) : Enter :=
  if ctx.limit ≤ depth then none
  else some fun numeral body => meaning ctx (parse body) numeral (depth + 1)

/-- The meanings of the branches of a construct. -/
def meanings (c : Construct) : List (Text × Meaning) :=
  c.branches.map fun b => (b.label, meaning ctx (parse b.body))

theorem resolveBranch_eq (c : Construct) (label bare : Text) (numeral : Option Text)
    (depth : Int) :
    resolveBranch ctx (entering ctx depth) c label bare numeral =
      enterBranch ctx c.source (meanings ctx c) label bare numeral depth := by
  rw [resolveBranch, enterBranch, meanings, choose_map c fun body => meaning ctx (parse body)]
  cases Plural.select c.forms label with
  | none => rfl
  | some body =>
    rw [entering]
    by_cases hlimit : ctx.limit ≤ depth
    · simp only [if_pos hlimit, Option.map_some, refused, map_eq_pure_bind]
    · simp only [if_neg hlimit, Option.map_some]

theorem resolveField_eq (c : Construct) (what : Field) (style : Option Text) (v : Value) :
    resolveField ctx c what style v = formatted ctx what c.argument style v := by
  rw [resolveField, formatted]
  cases ctx.formatters.get? what with
  | none => rfl
  | some formatter =>
    cases ctx.locale with
    | error e => rfl
    | ok locale =>
      simp only [Except.mapError, bind, Except.bind]
      cases formatter.format v locale style with
      | ok shown => rfl
      | error e => cases e <;> rfl

theorem resolveConstruct_eq (c : Construct) (numeral : Option Text) (depth : Int) :
    resolveConstruct ctx (entering ctx depth) numeral c =
      (Node.ofToken (.construct c)).meaning ctx numeral depth := by
  obtain ⟨argument, content, source, span⟩ := c
  cases content with
  | field what style =>
    simp only [resolveConstruct, Node.ofToken, Node.meaning, withArgument]
    cases ctx.arguments.get? argument with
    | none => rfl
    | some v => exact resolveField_eq ctx _ what style v
  | choice how branches =>
    simp only [resolveConstruct, Node.ofToken, Node.meaning, withArgument, branchMeanings_map]
    cases ctx.arguments.get? argument with
    | none => rfl
    | some v =>
      cases how with
      | plural =>
        simp only [resolveCounted, resolveBranch_eq]
        rfl
      | ordinal =>
        simp only [resolveCounted, resolveBranch_eq]
        rfl
      | select =>
        simp only [resolveSelected, resolveBranch_eq]
        rfl

theorem resolveToken_eq (token : Token) (numeral : Option Text) (depth : Int) :
    resolveToken ctx (entering ctx depth) numeral token =
      (Node.ofToken token).meaning ctx numeral depth := by
  cases token with
  | text value =>
    rw [resolveToken, Node.ofToken, Node.meaning]
    cases numeral <;> rfl
  | placeholder name span =>
    simp only [resolveToken, Node.ofToken, Node.meaning, withArgument]
    cases ctx.arguments.get? name with
    | none => rfl
    | some v => cases hmessage : v.message <;> simp only [hmessage] <;> rfl
  | junk problem position =>
    rw [resolveToken, Node.ofToken, Node.meaning]
    rfl
  | construct c => exact resolveConstruct_eq ctx c numeral depth

theorem meaning_cons (node : Node) (rest : List Node) (numeral : Option Text) (depth : Int) :
    meaning ctx (node :: rest) numeral depth = (do
      let first ← node.meaning ctx numeral depth
      let others ← meaning ctx rest numeral depth
      return ⟨first.text ++ others.text, first.issues ++ others.issues⟩) := by
  rw [meaning]

theorem resolveWith_eq (pattern : Text) (numeral : Option Text) (depth : Int) :
    resolveWith ctx (entering ctx depth) numeral pattern =
      meaning ctx (parse pattern) numeral depth := by
  rw [resolveWith, parse_eq]
  induction Token.ofPattern pattern with
  | nil =>
    rw [List.map_nil, meaning]
    rfl
  | cons token rest ih =>
    rw [List.map_cons, meaning_cons, ← ih, ← resolveToken_eq, List.mapM_cons]
    cases resolveToken ctx (entering ctx depth) numeral token with
    | error fault => rfl
    | ok first => cases rest.mapM (resolveToken ctx (entering ctx depth) numeral) <;> rfl

/-- The budget of levels is what the limit leaves above the branches that are open. -/
theorem resolve_eq (pattern : Text) (numeral : Option Text) {budget : Nat} {depth : Int}
    (h : budget = (ctx.limit - depth).toNat) :
    resolve ctx budget numeral pattern = meaning ctx (parse pattern) numeral depth := by
  rw [← resolveWith_eq]
  induction budget generalizing pattern numeral depth with
  | zero =>
    have hlimit : ctx.limit ≤ depth := by omega
    rw [resolve, entering, if_pos hlimit]
  | succ budget ih =>
    -- the budget is left for all bodies alike, so the branches need no induction of their own
    have hlimit : ¬ctx.limit ≤ depth := by omega
    have hbodies : resolve ctx budget = fun numeral body =>
        meaning ctx (parse body) numeral (depth + 1) := by
      funext numeral body
      have hbudget : budget = (ctx.limit - (depth + 1)).toNat := by omega
      rw [ih body numeral hbudget, resolveWith_eq]
    rw [resolve, entering, if_neg hlimit, hbodies]

/-- Without arguments a token stays as it is written, whatever is reported. -/
theorem meaning_ofToken_of_empty {ctx : Context L} (hempty : ctx.arguments = ∅) (token : Token)
    (depth : Int) :
    ∃ issues, (Node.ofToken token).meaning ctx none depth = .ok ⟨token.source, issues⟩ := by
  have hnone (argument : Text) : ctx.arguments.get? argument = none := by
    rw [hempty]
    rfl
  cases token with
  | text value => exact ⟨_, by rw [Node.ofToken, Node.meaning]; rfl⟩
  | placeholder name span =>
    simp only [Node.ofToken, Node.meaning, withArgument, hnone]
    exact ⟨_, rfl⟩
  | junk problem position => exact ⟨_, by rw [Node.ofToken, Node.meaning]; rfl⟩
  | construct c =>
    obtain ⟨argument, content, source, span⟩ := c
    cases content <;>
      simp only [Node.ofToken, Node.meaning, withArgument, hnone] <;>
      exact ⟨_, rfl⟩

theorem interpret_of_empty {ctx : Context L} (hempty : ctx.arguments = ∅) (pattern : Text) :
    ∃ issues, interpret ctx pattern = .ok ⟨pattern, issues⟩ := by
  have htokens (tokens : List Token) : ∃ issues,
      meaning ctx (tokens.map Node.ofToken) none 0 = .ok ⟨tokens.flatMap Token.source, issues⟩ := by
    induction tokens with
    | nil => exact ⟨[], by rw [List.map_nil, meaning]; rfl⟩
    | cons token rest ih =>
      obtain ⟨first, hfirst⟩ := meaning_ofToken_of_empty hempty token 0
      obtain ⟨others, hothers⟩ := ih
      refine ⟨first ++ others, ?_⟩
      rw [List.map_cons, meaning_cons, hfirst, hothers]
      rfl
  obtain ⟨issues, hissues⟩ := htokens (Token.ofPattern pattern)
  rw [Token.flatMap_source_ofPattern] at hissues
  exact ⟨issues, by rw [interpret, parse_eq, hissues]⟩

end Message

namespace Resolver

variable {L : Type}

/-- Resolving is interpreting the tree of the pattern, except that without arguments nothing is
reported. The text is the same even then. -/
theorem resolve_eq_interpret (r : Resolver L) (arguments : Arguments) (pattern : Text) :
    r.resolve arguments pattern =
        (if arguments.isEmpty then .ok (.plain pattern)
          else Message.interpret (r.context arguments) pattern) ∧
      (Message.interpret (r.context ∅) pattern).map Outcome.text = .ok pattern := by
  constructor
  · rw [resolve]
    split
    · rfl
    · exact Message.resolve_eq (r.context arguments) pattern none (by rw [Int.sub_zero]; rfl)
  · have hempty : (r.context ∅).arguments = ∅ := rfl
    obtain ⟨issues, hinterpret⟩ := Message.interpret_of_empty hempty pattern
    rw [hinterpret]
    rfl

/-- The tree reports a placeholder that has no argument; without arguments resolving does not. -/
theorem resolve_ne_interpret :
    (ofLocale Sample.host "en_US").resolve ∅ "\x7bname\x7d" ≠
      Message.interpret ((ofLocale Sample.host "en_US").context ∅) "\x7bname\x7d" := by
  have htree : Message.parse "\x7bname\x7d" = [.placeholder "name".toList] := by
    cbv
  have hinterpret : Message.interpret ((ofLocale Sample.host "en_US").context ∅) "\x7bname\x7d" =
      .ok (.kept "\x7bname\x7d" (.reference (.argumentNotProvided "name"))) := by
    rw [Message.interpret, htree, Message.meaning_cons, Message.Node.meaning, Message.meaning]
    rfl
  rw [hinterpret]
  intro hsame
  have hissues := congrArg Outcome.issues (Except.ok.inj hsame)
  cases hissues

end Resolver

end Parlance
