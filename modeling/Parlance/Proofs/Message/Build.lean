import Parlance.Proofs.Construct.Build
import Parlance.Proofs.Format.Settled
import Parlance.Proofs.Message.Limit
import Parlance.Sample
/-!
Messages that are built. A text built from forms comes to what the selected form comes to alone, one
level deeper, and forms that are not selected count for nothing (resolve_build). The numeral that a
count gives to its form makes no difference to a form without number signs (resolve_of_no_sign).
-/

namespace Parlance

open Construct (Buildable built)

theorem Outcome.beside_empty (a : Except Fault Outcome) :
    Outcome.beside a (.ok .empty) = a := by
  cases a with
  | error fault => rfl
  | ok outcome =>
    obtain ⟨t, issues⟩ := outcome
    exact congrArg Except.ok (congrArg₂ Outcome.mk (List.append_nil t) (List.append_nil issues))

namespace Message

variable {L : Type}

section Signs

variable {ctx : Context L} {enter : Enter} {numeral numeral' : Option Text} {pattern : Text}

theorem literal_of_no_sign {t : Text} (h : '#' ∉ t) (numeral : Option Text) :
    literal numeral t = t := by
  cases numeral with
  | none => rfl
  | some digits =>
    have hsame : ∀ c ∈ t, (if c = '#' then digits else [c]) = [c] := by
      intro c hc
      rw [if_neg (by rintro rfl; exact h hc)]
    rw [literal, Text.substitute, List.flatMap_congr hsame]
    exact List.flatMap_singleton' t

/-- The body of a branch has no more number signs than the pattern. -/
theorem no_sign_of_branch {c : Construct} {b : Construct.Branch} (h : '#' ∉ pattern)
    (hc : .construct c ∈ Token.ofPattern pattern) (hb : b ∈ c.branches) : '#' ∉ b.body := by
  obtain ⟨before, between, after, rfl⟩ := Token.exists_body_inside hc hb
  intro hmem
  exact h (by simp [hmem])

/-- Entering goes by the numeral only for number signs. -/
def IgnoresNumeral (enter : Enter) : Prop :=
  ∀ run, enter = some run → ∀ body, '#' ∉ body → ∀ numeral, run numeral body = run none body

theorem resolveToken_of_no_sign (henter : IgnoresNumeral enter) (h : '#' ∉ pattern)
    {token : Token} (htoken : token ∈ Token.ofPattern pattern) :
    resolveToken ctx enter numeral token = resolveToken ctx enter none token := by
  cases token with
  | text value =>
    have hvalue : '#' ∉ value := fun hmem => h ((Token.source_infix htoken).subset hmem)
    rw [resolveToken, resolveToken, literal_of_no_sign hvalue, literal_of_no_sign hvalue]
  | placeholder name span => rfl
  | junk problem position => rfl
  | construct c =>
    rw [← Demand.meet_ofToken, ← Demand.meet_ofToken, Demand.ofToken, Demand.ofToken]
    cases Demand.asks ctx c with
    | settled result hresult hsettled => rw [hsettled, hsettled]
    | branch b hb pick hpick hbranch =>
      rw [hbranch, hbranch]
      rcases hpick with rfl | ⟨digits, rfl⟩
      · cases hrun : enter with
        | none => rfl
        | some run => exact henter run hrun b.body (no_sign_of_branch h htoken hb) numeral
      · rfl

theorem resolveWith_of_no_sign (henter : IgnoresNumeral enter) (h : '#' ∉ pattern)
    (numeral : Option Text) :
    resolveWith ctx enter numeral pattern = resolveWith ctx enter none pattern := by
  rw [resolveWith_eq_resolveTokens, resolveWith_eq_resolveTokens]
  exact resolveTokens_congr fun token htoken => resolveToken_of_no_sign henter h htoken

/-- Without number signs the numeral around a pattern makes no difference. -/
theorem resolve_of_no_sign (h : '#' ∉ pattern) (budget : Nat) (numeral : Option Text) :
    resolve ctx budget numeral pattern = resolve ctx budget none pattern := by
  induction budget generalizing numeral pattern with
  | zero => exact resolveWith_of_no_sign (by rintro run ⟨⟩) h numeral
  | succ budget ih =>
    have henter : IgnoresNumeral (some (resolve ctx budget)) := by
      rintro run ⟨⟩ body hbody numeral
      exact ih hbody numeral
    exact resolveWith_of_no_sign henter h numeral

end Signs

section Built

variable {ctx : Context L} {argument label bare : Text} {forms : List (Text × Text)}
  {how : Construct.Choice} {numeral : Option Text} {v : Value}

/-- A built text is resolved by the demand of the construct that it stands for. -/
theorem resolveWith_build (enter : Enter) (h : Buildable argument forms) :
    resolveWith ctx enter none (build argument how.keyword.toList forms) =
      (Demand.ofConstruct (built how argument forms) none ctx).meet ctx.limit enter := by
  rw [resolveWith_eq_resolveTokens, Construct.ofPattern_build how h, resolveTokens_cons,
    Demand.meet_ofConstruct]
  exact Outcome.beside_empty _

/-- What a built text comes to if a label chooses among its forms. -/
theorem resolve_build_of_demand (h : Buildable argument forms)
    (hdemand : Demand.ofConstruct (built how argument forms) none ctx =
      Demand.ofBranch (built how argument forms) numeral label bare) (budget : Nat) :
    resolve ctx (budget + 1) none (build argument how.keyword.toList forms) =
      match Plural.select forms label with
      | none => .ok (.plain bare)
      | some body => resolve ctx budget numeral body := by
  rw [resolve, resolveWith_build _ h, hdemand, Demand.ofBranch, Construct.select_forms_built]
  cases Plural.select forms label <;> rfl

theorem demand_select (hargument : ctx.arguments.get? argument = some v) {shown : Text}
    (hshown : v.message = .ok shown) (forms : List (Text × Text)) :
    Demand.ofConstruct (built .select argument forms) none ctx =
      Demand.ofBranch (built .select argument forms) none shown shown := by
  rw [Demand.ofConstruct]
  simp only [built, hargument, Demand.ofSelected, hshown]

theorem demand_plural (hargument : ctx.arguments.get? argument = some v) {n : Number}
    (hnumber : v.number? = some n) {digits : Text} (hdigits : n.text = .ok digits)
    (forms : List (Text × Text)) :
    Demand.ofConstruct (built .plural argument forms) none ctx =
      Demand.ofBranch (built .plural argument forms) (some digits)
        (Plural.cardinal n).name.toList digits := by
  rw [Demand.ofConstruct]
  simp only [built, hargument, Demand.ofCounted, hnumber, hdigits]

end Built

end Message

namespace Resolver

variable {L : Type}

open Message

/-- How a text built from forms is resolved if a label chooses among the forms: it comes to a bare
text if there is no form for the label, and else to what the form comes to by itself, one level
deeper. The numeral is what number signs of the form stand for. -/
structure Chooses (r : Resolver L) (arguments : Arguments) (how : Construct.Choice)
    (argument : Text) (forms : List (Text × Text)) (label bare : Text) (numeral : Option Text) :
    Prop where
  bare_of_none : Plural.select forms label = none →
    r.resolve arguments (build argument how.keyword.toList forms) = .ok (.plain bare)
  alone_of_some : ∀ body outcome, Plural.select forms label = some body →
    (numeral = none ∨ '#' ∉ body) →
    { r with maxDepth := r.maxDepth - 1 }.resolve arguments body = .ok outcome →
    outcome.NoneRefused →
    r.resolve arguments (build argument how.keyword.toList forms) = .ok outcome
  /-- Other forms with the same choice make no difference, whatever is refused. -/
  eq_of_select_eq : ∀ others, Buildable argument others →
    Plural.select others label = Plural.select forms label →
    r.resolve arguments (build argument how.keyword.toList others) =
      r.resolve arguments (build argument how.keyword.toList forms)

section Choosing

variable {r : Resolver L} {arguments : Arguments} {argument label bare : Text}
  {forms : List (Text × Text)} {how : Construct.Choice} {numeral : Option Text} {v : Value}

theorem chooses_of_demand (hsome : arguments.isEmpty = false) (hbuild : Buildable argument forms)
    (hpositive : 1 ≤ r.maxDepth)
    (hfits : r.maxDepth ≤ Depth.greatest r.host.frames Depth.defaultReserve)
    (hdemand : ∀ forms, Demand.ofConstruct (built how argument forms) none (r.context arguments) =
      Demand.ofBranch (built how argument forms) numeral label bare) :
    Chooses r arguments how argument forms label bare numeral := by
  have hclamp {d : Int} (h : d ≤ r.maxDepth) :
      Depth.clamp r.host.frames d Depth.defaultReserve = d :=
    Int.min_eq_left (Int.le_trans h hfits)
  have hlimit : (r.context arguments).limit = r.maxDepth := hclamp (Int.le_refl _)
  have hlevels : (r.context arguments).limit.toNat = (r.maxDepth - 1).toNat + 1 := by
    rw [hlimit]
    omega
  have hrun (others : List (Text × Text)) (hothers : Buildable argument others) :
      r.resolve arguments (build argument how.keyword.toList others) =
        match Plural.select others label with
        | none => .ok (.plain bare)
        | some body =>
          Message.resolve (r.context arguments) (r.maxDepth - 1).toNat numeral body := by
    rw [resolve_of_isEmpty_eq_false hsome, hlevels]
    exact resolve_build_of_demand hothers (hdemand others) _
  constructor
  case bare_of_none =>
    intro hselect
    rw [hrun forms hbuild, hselect]
  case alone_of_some =>
    intro body outcome hselect hsign halone hnone
    have hnumeral : Message.resolve (r.context arguments) (r.maxDepth - 1).toNat numeral body =
        Message.resolve (r.context arguments) (r.maxDepth - 1).toNat none body := by
      rcases hsign with rfl | hsign
      · rfl
      · exact resolve_of_no_sign hsign _ numeral
    rw [resolve_of_isEmpty_eq_false hsome, context, hclamp (by simp only; omega)] at halone
    rw [hrun forms hbuild, hselect]
    simp only [hnumeral]
    exact resolve_of_le (Nat.le_refl _) halone hnone
  case eq_of_select_eq =>
    intro others hothers hselect
    rw [hrun forms hbuild, hrun others hothers, hselect]

/-- A text that selects by the text of a value, or counts by a number that the value is or spells,
comes to what the form for it comes to by itself, one level deeper, or to the text or the numeral if
there is no form. -/
theorem resolve_build (hbuild : Buildable argument forms)
    (hargument : arguments.get? argument = some v) (hpositive : 1 ≤ r.maxDepth)
    (hfits : r.maxDepth ≤ Depth.greatest r.host.frames Depth.defaultReserve) :
    (∀ shown, v.message = .ok shown →
      Chooses r arguments .select argument forms shown shown none) ∧
    ∀ n, v.number? = some n → ∃ digits, n.text = .ok digits ∧
      Chooses r arguments .plural argument forms (Plural.cardinal n).name.toList digits
        (some digits) := by
  have hsome := OrderedMap.isEmpty_eq_false_of_get? hargument
  refine ⟨fun shown hshown => ?_, fun n hnumber => ?_⟩
  · exact chooses_of_demand hsome hbuild hpositive hfits (demand_select hargument hshown)
  · obtain ⟨digits, hdigits⟩ := Number.exists_text (Value.isBounded_of_number? hnumber)
    refine ⟨digits, hdigits, ?_⟩
    exact chooses_of_demand hsome hbuild hpositive hfits (demand_plural hargument hnumber hdigits)

end Choosing

/-- How many boxes there are. -/
def boxes : List (Text × Text) := [("one", "a box"), ("other", "\x7bn\x7d boxes")]

theorem resolve_build_boxes :
    Buildable "n" boxes ∧
    ((∅ : Arguments).insert "n" (.text "2")).get? "n" = some (.text "2") ∧
    (1 : Int) ≤ Depth.greatest Sample.host.frames Depth.defaultReserve ∧
    (⟨Sample.host, "en_US", .shared Sample.babel, 1⟩ : Resolver Sample.Locale).resolve
      ((∅ : Arguments).insert "n" (.text "2"))
      (build "n" Construct.Choice.plural.keyword.toList boxes) = .ok (.plain "2 boxes") := by
  have hbuild : Buildable "n" boxes := by
    have hplain : Brace.Balanced "a box" := Brace.balanced_of_no_brace (by decide) (by decide)
    have hname : Brace.Balanced "n" := Brace.balanced_of_no_brace (by decide) (by decide)
    have hrest : Brace.Balanced " boxes" := Brace.balanced_of_no_brace (by decide) (by decide)
    have hword : ("n" : Text).all Text.isWord := by decide +kernel
    have hlabels : boxes.all fun form => form.1.all Construct.isLabel := by decide
    constructor
    case argument_ne_nil => decide
    case argument_all => exact List.all_eq_true.1 hword
    case forms_ne_nil => decide
    case label_ne_nil => decide
    case label_all =>
      exact fun form hform => List.all_eq_true.1 (List.all_eq_true.1 hlabels form hform)
    case balanced =>
      intro form hform
      simp only [boxes, List.mem_cons, List.not_mem_nil, or_false] at hform
      rcases hform with rfl | rfl
      · exact hplain
      · exact hname.group hrest
  have hargument : ((∅ : Arguments).insert "n" (.text "2")).get? "n" = some (.text "2") := rfl
  have hfits : (1 : Int) ≤ Depth.greatest Sample.host.frames Depth.defaultReserve := by decide
  have hnumber : (Value.text "2").number? = some (.integer 2) := by decide +kernel
  have hpattern : Token.ofPattern "\x7bn\x7d boxes" =
      [.placeholder "n" (.ofLength 0 3), .text " boxes"] := by cbv
  have halone : (⟨Sample.host, "en_US", .shared Sample.babel, 0⟩ : Resolver Sample.Locale).resolve
      ((∅ : Arguments).insert "n" (.text "2")) "\x7bn\x7d boxes" = .ok (.plain "2 boxes") := by
    rw [resolve_of_isEmpty_eq_false (OrderedMap.isEmpty_insert ..)]
    obtain ⟨enter, henter⟩ := Message.exists_resolve_eq _ _
    rw [henter, Message.resolveWith_eq_resolveTokens, hpattern]
    rfl
  obtain ⟨-, hcounts⟩ :=
    resolve_build (r := ⟨Sample.host, "en_US", .shared Sample.babel, 1⟩) hbuild hargument
      (Int.le_refl 1) hfits
  obtain ⟨digits, -, hchooses⟩ := hcounts (.integer 2) hnumber
  refine ⟨hbuild, hargument, hfits, ?_⟩
  exact hchooses.alone_of_some "\x7bn\x7d boxes" (.plain "2 boxes") (by decide +kernel)
    (.inr (by decide)) halone (Outcome.noneRefused_plain _)

end Resolver

end Parlance
