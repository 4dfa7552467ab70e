import Parlance.Proofs.Message.Tree
import Parlance.Sample
/-!
The text of an argument is put into a message and never read as a pattern. If an argument is asked
for by placeholders only, a message with it is a template (resolve_insert_text): the same texts and
the same issues for every text of the argument, with the argument's text put in between. Numerals
take the place of number signs before texts are joined, and no joined text is read again.
-/

namespace Parlance

namespace Outcome

theorem mk_append_mk (t u : Text) (issues others : List Issue) :
    (⟨t, issues⟩ ++ ⟨u, others⟩ : Outcome) = ⟨t ++ u, issues ++ others⟩ :=
  rfl

/-- Two outcomes side by side, if there are both. -/
def beside (a b : Except Fault Outcome) : Except Fault Outcome := do
  let first ← a
  let others ← b
  return first ++ others

end Outcome

/-- A message with places at which one text is put in: behind the first text, and before each of the
others. -/
structure Template where
  first : Text
  rest : List Text
  issues : List Issue

namespace Template

def fill (template : Template) (s : Text) : Outcome :=
  ⟨template.first ++ template.rest.flatMap (s ++ ·), template.issues⟩

/-- Two templates side by side are a template: the last text of the one and the first of the other
become one text. -/
theorem exists_append (a b : Template) : ∃ c : Template, ∀ s, c.fill s = a.fill s ++ b.fill s := by
  obtain ⟨first, rest, issues⟩ := a
  -- the last text of a is its first one if it has no others
  rcases List.eq_nil_or_concat rest with rfl | ⟨before, last, rfl⟩
  · refine ⟨⟨first ++ b.first, b.rest, issues ++ b.issues⟩, fun s => ?_⟩
    simp only [fill, Outcome.mk_append_mk, List.flatMap_nil, List.append_nil, List.append_assoc]
  · refine ⟨⟨first, before ++ (last ++ b.first) :: b.rest, issues ++ b.issues⟩, fun s => ?_⟩
    simp only [fill, Outcome.mk_append_mk, List.concat_eq_append, List.flatMap_append,
      List.flatMap_cons, List.flatMap_nil, List.append_nil, List.append_assoc]

end Template

namespace Message

variable {L : Type}

/-- The constructs of a pattern at every level of nesting, in branches chosen or not. -/
inductive Nested : Text → Construct → Prop where
  | token {pattern : Text} {c : Construct} (hc : .construct c ∈ Token.ofPattern pattern) :
      Nested pattern c
  | body {pattern : Text} {c inner : Construct} {b : Construct.Branch}
      (hc : .construct c ∈ Token.ofPattern pattern) (hb : b ∈ c.branches)
      (hinner : Nested b.body inner) : Nested pattern inner

/-- A run that hangs on a text only by putting it in: it gives one template or one fault for all
texts. -/
def Spliced (run : Text → Except Fault Outcome) : Prop :=
  ∃ made : Except Fault Template, ∀ s, run s = made.map (·.fill s)

namespace Spliced

variable {run other : Text → Except Fault Outcome}

/-- A run that is the same for all texts. -/
theorem of_eq {result : Except Fault Outcome} (h : ∀ s, run s = result) : Spliced run := by
  cases result with
  | error fault => exact ⟨.error fault, h⟩
  | ok outcome =>
    refine ⟨.ok ⟨outcome.text, [], outcome.issues⟩, fun s => ?_⟩
    have hfill : Template.fill ⟨outcome.text, [], outcome.issues⟩ s = outcome := by
      rw [Template.fill, List.flatMap_nil, List.append_nil]
    rw [h, Except.map, hfill]

/-- A run that shows the text. -/
theorem of_plain (h : ∀ s, run s = .ok (.plain s)) : Spliced run := by
  refine ⟨.ok ⟨[], [[]], []⟩, fun s => ?_⟩
  have hfill : Template.fill ⟨[], [[]], []⟩ s = .plain s := by
    simp only [Template.fill, Outcome.plain, List.flatMap_singleton, List.append_nil,
      List.nil_append]
  rw [h, Except.map, hfill]

theorem beside (hrun : Spliced run) (hother : Spliced other) :
    Spliced fun s => Outcome.beside (run s) (other s) := by
  obtain ⟨made, hmade⟩ := hrun
  obtain ⟨madeOther, hmadeOther⟩ := hother
  simp only [hmade, hmadeOther]
  cases made with
  | error fault => exact of_eq fun s => rfl
  | ok a =>
    cases madeOther with
    | error fault => exact of_eq fun s => rfl
    | ok b =>
      obtain ⟨c, hc⟩ := Template.exists_append a b
      exact ⟨.ok c, fun s => congrArg Except.ok (hc s).symm⟩

end Spliced

theorem map_join_mapM_cons (step : Token → Except Fault Outcome) (token : Token)
    (rest : List Token) :
    ((token :: rest).mapM step).map Outcome.join =
      Outcome.beside (step token) ((rest.mapM step).map Outcome.join) := by
  rw [List.mapM_cons]
  cases step token with
  | error fault => rfl
  | ok first => cases rest.mapM step <;> rfl

/-- Tokens side by side put a text in if each of them does. -/
theorem spliced_join {step : Text → Token → Except Fault Outcome} {tokens : List Token}
    (h : ∀ token ∈ tokens, Spliced fun s => step s token) :
    Spliced fun s => (tokens.mapM (step s)).map Outcome.join := by
  induction tokens with
  | nil => exact Spliced.of_eq fun s => rfl
  | cons token rest ih =>
    have hrest := ih fun other hother => h other (List.mem_cons_of_mem _ hother)
    simp only [map_join_mapM_cons]
    exact (h token List.mem_cons_self).beside hrest

section Runs

variable (ctx : Context L) (x : Text)

/-- The context in which one argument has a text. -/
def withText (s : Text) : Context L := { ctx with arguments := ctx.arguments.insert x (.text s) }

variable {x} {enter : Text → Enter} (numeral : Option Text)

theorem limit_withText (s : Text) : (withText ctx x s).limit = ctx.limit :=
  rfl

theorem get?_withText_of_ne {name : Text} (h : name ≠ x) (s : Text) :
    (withText ctx x s).arguments.get? name = ctx.arguments.get? name := by
  rw [withText, OrderedMap.get?_insert, if_neg h]

/-- A placeholder puts the text in, or shows another argument. -/
theorem spliced_placeholder (name : Text) (span : Span) : Spliced fun s =>
    resolveToken (withText ctx x s) (enter s) numeral (.placeholder name span) := by
  by_cases hname : name = x
  · apply Spliced.of_plain
    intro s
    rw [resolveToken, withText, OrderedMap.get?_insert, if_pos hname]
    rfl
  · simp only [resolveToken, get?_withText_of_ne ctx hname]
    exact Spliced.of_eq fun s => rfl

/-- Either no branch may be entered, or the body of this one puts the text in. -/
def EntersSpliced (enter : Text → Enter) (body : Text) : Prop :=
  (∀ s, enter s = none) ∨ ∃ run : Text → Option Text → Text → Except Fault Outcome,
    (∀ s, enter s = some (run s)) ∧ ∀ numeral, Spliced fun s => run s numeral body

section Constructs

variable {c : Construct} (henter : ∀ b ∈ c.branches, EntersSpliced enter b.body)

include henter

theorem spliced_branch (label bare : Text) : Spliced fun s =>
    resolveBranch (withText ctx x s) (enter s) c label bare numeral := by
  simp only [resolveBranch]
  cases hselect : Plural.select c.forms label with
  | none => exact Spliced.of_eq fun s => rfl
  | some body =>
    obtain ⟨b, hb, rfl⟩ := Construct.exists_branch_of_select hselect
    rcases henter b hb with hnone | ⟨run, hrun, hbody⟩
    · -- too deep: the source of the construct stays, and the issue names the limit
      simp only [hnone, limit_withText]
      exact Spliced.of_eq fun s => rfl
    · simp only [hrun]
      exact hbody numeral

theorem spliced_counted (v : Value) (category : Number → Plural.Category) : Spliced fun s =>
    resolveCounted (withText ctx x s) (enter s) c v category := by
  cases hnumber : v.number? with
  | none =>
    simp only [resolveCounted, hnumber]
    exact Spliced.of_eq fun s => rfl
  | some n =>
    simp only [resolveCounted, hnumber]
    cases n.text with
    | error fault => exact Spliced.of_eq fun s => rfl
    | ok digits => exact spliced_branch ctx (some digits) henter (category n).name.toList digits

theorem spliced_selected (v : Value) : Spliced fun s =>
    resolveSelected (withText ctx x s) (enter s) c v numeral := by
  simp only [resolveSelected]
  cases v.message with
  | error fault => exact Spliced.of_eq fun s => rfl
  | ok selector => exact spliced_branch ctx numeral henter selector selector

/-- A construct with another argument puts the text in where its branches do. -/
theorem spliced_construct (hargument : c.argument ≠ x) : Spliced fun s =>
    resolveConstruct (withText ctx x s) (enter s) numeral c := by
  simp only [resolveConstruct, get?_withText_of_ne ctx hargument]
  cases ctx.arguments.get? c.argument with
  | none => exact Spliced.of_eq fun s => rfl
  | some v =>
    cases c.content with
    | field what style =>
      -- a formatter sees the value and the locale, and neither hangs on the text
      change Spliced fun _ => resolveField ctx c what style v
      exact Spliced.of_eq fun s => rfl
    | choice how branches =>
      cases how with
      | plural => exact spliced_counted ctx henter v Plural.cardinal
      | ordinal => exact spliced_counted ctx henter v Plural.ordinal
      | select => exact spliced_selected ctx numeral henter v

end Constructs

theorem spliced_resolveWith {pattern : Text}
    (hconstructs : ∀ c, .construct c ∈ Token.ofPattern pattern → c.argument ≠ x ∧
      ∀ b ∈ c.branches, EntersSpliced enter b.body) :
    Spliced fun s => resolveWith (withText ctx x s) (enter s) numeral pattern := by
  apply spliced_join
  intro token htoken
  cases token with
  | text value => exact Spliced.of_eq fun s => rfl
  | junk problem position => exact Spliced.of_eq fun s => rfl
  | placeholder name span => exact spliced_placeholder ctx numeral name span
  | construct c =>
    obtain ⟨hargument, henter⟩ := hconstructs c htoken
    exact spliced_construct ctx numeral henter hargument

/-- A pattern none of whose constructs asks for the argument puts its text in. -/
theorem spliced_resolve (budget : Nat) (pattern : Text)
    (hx : ∀ c, Nested pattern c → c.argument ≠ x) :
    Spliced fun s => resolve (withText ctx x s) budget numeral pattern := by
  -- a body has one level less, a numeral of its own, and only constructs nested in the pattern
  induction budget generalizing numeral pattern with
  | zero =>
    apply spliced_resolveWith ctx numeral
    intro c hc
    exact ⟨hx c (.token hc), fun b hb => Or.inl fun s => rfl⟩
  | succ budget ih =>
    apply spliced_resolveWith ctx numeral
    intro c hc
    refine ⟨hx c (.token hc), fun b hb => Or.inr ⟨_, fun s => rfl, fun numeral => ?_⟩⟩
    exact ih numeral b.body fun inner hinner => hx inner (.body hc hb hinner)

end Runs

end Message

namespace Resolver

variable {L : Type}

theorem resolve_insert (r : Resolver L) (arguments : Arguments) (pattern x s : Text) :
    r.resolve (arguments.insert x (.text s)) pattern =
      Message.resolve (Message.withText (r.context arguments) x s)
        (r.context arguments).limit.toNat none pattern := by
  rw [resolve_of_isEmpty_eq_false (OrderedMap.isEmpty_insert arguments x _)]
  rfl

/-- If no construct asks for an argument, at whatever level of nesting, a message with a text for it
is one template that is filled with the text, and the issues do not hang on the text. -/
theorem resolve_insert_text (r : Resolver L) (arguments : Arguments) {pattern x : Text}
    (hx : ∀ c, Message.Nested pattern c → c.argument ≠ x)
    (hreturns : ∃ s outcome, r.resolve (arguments.insert x (.text s)) pattern = .ok outcome) :
    ∃ template : Template, ∀ s,
      r.resolve (arguments.insert x (.text s)) pattern = .ok (template.fill s) := by
  obtain ⟨made, hmade⟩ := Message.spliced_resolve (r.context arguments) none
    (r.context arguments).limit.toNat pattern hx
  simp only [resolve_insert, hmade] at hreturns ⊢
  cases made with
  | error fault =>
    obtain ⟨s, outcome, hfault⟩ := hreturns
    cases hfault
  | ok template => exact ⟨template, fun s => rfl⟩

/-- A placeholder in the branch of a selection. -/
theorem resolve_insert_text_selected :
    ∃ template : Template, ∀ s,
      (ofLocale Sample.host "en_US").resolve
        (((∅ : Arguments).insert "n" (.text "a")).insert "x" (.text s))
        "\x7bn, select, other\x7b\x7bx\x7d\x7d\x7d" = .ok (template.fill s) := by
  obtain ⟨hpattern, hbody⟩ :
      Token.ofPattern "\x7bn, select, other\x7b\x7bx\x7d\x7d\x7d" =
        [.construct ⟨"n", .choice .select [⟨"other", "\x7bx\x7d"⟩],
          "\x7bn, select, other\x7b\x7bx\x7d\x7d\x7d", .ofLength 0 23⟩] ∧
      Token.ofPattern "\x7bx\x7d" = [.placeholder "x" (.ofLength 0 3)] := by
    constructor <;> cbv
  refine resolve_insert_text _ _ ?_ ⟨[], .empty, ?_⟩
  · intro c hc
    cases hc with
    | token hc =>
      rw [hpattern, List.mem_singleton] at hc
      cases hc
      decide
    | body hc hb hinner =>
      rw [hpattern, List.mem_singleton] at hc
      cases hc
      rw [Construct.branches, List.mem_singleton] at hb
      cases hb
      -- the branch holds no construct
      cases hinner with
      | token hc =>
        rw [hbody] at hc
        cases List.mem_singleton.1 hc
      | body hc =>
        rw [hbody] at hc
        cases List.mem_singleton.1 hc
  · have hbranch (ctx : Message.Context Sample.Locale) :
        Message.resolve (Message.withText ctx "x" []) 99 none "\x7bx\x7d" = .ok .empty := by
      rw [Message.resolve, Message.resolveWith, hbody]
      refine (Message.map_join_mapM_cons _ _ _).trans ?_
      rw [Message.resolveToken, Message.withText, OrderedMap.get?_insert, if_pos rfl]
      rfl
    have hlimit :
        ((ofLocale Sample.host "en_US").context
          ((∅ : Arguments).insert "n" (.text "a"))).limit.toNat = 99 + 1 :=
      rfl
    rw [resolve_insert, hlimit, Message.resolve, Message.resolveWith, hpattern]
    refine (Message.map_join_mapM_cons _ _ _).trans ?_
    change Outcome.beside (Message.resolve (Message.withText _ "x" []) 99 none "\x7bx\x7d")
      (.ok .empty) = _
    rw [hbranch]
    rfl

end Resolver

end Parlance
