import Parlance.Message
import Parlance.Proofs.Construct.Bodies
import Parlance.Proofs.Token.Tiling
/-!
Patterns read as a whole. A tree holds the tokens of a pattern, and under every choice the trees of
its branches; the trees come to an end because a branch is shorter than the pattern that it stands
in (length_body_lt). What a tree means is a function of the numeral for its number signs and of the
number of branches that are open around it.
-/

namespace Parlance

open Construct

namespace Token

/-- A branch of a construct is shorter than the pattern. -/
theorem length_body_lt {pattern : Text} {c : Construct} {choice : Choice} {branches : List Branch}
    {b : Branch} (hc : .construct c ∈ ofPattern pattern)
    (hcontent : c.content = .choice choice branches) (hb : b ∈ branches) :
    b.body.length < pattern.length := by
  obtain ⟨piece, hmem, hpiece⟩ := List.mem_map.1 hc
  cases piece with
  | literal t => cases hpiece
  | found token =>
    obtain ⟨before, after, hpieces⟩ := List.append_of_mem hmem
    obtain ⟨rest, n, hfind⟩ := find_of_pieces_eq hpieces
    -- the construct is a part of the pattern, and its body lacks at least the two braces
    have hpart : (source token).length ≤ pattern.length := by
      rw [← Brace.Piece.flatMap_cut exact_find 0 pattern, hpieces]
      simp only [List.flatMap_append, List.flatMap_cons, Brace.Piece.text, List.length_append]
      omega
    cases hpiece
    cases found_of_find hfind with
    | @construct body rest argument content ht hclose hread =>
      cases hcontent
      have hbody := Construct.length_body_le hread b hb
      simp only [source, List.length_cons, List.length_append, List.length_take] at hpart hbody
      omega

end Token

namespace Message

variable {L : Type}

/-- A token with everything in it read. -/
inductive Node where
  | text (value : Text)
  | placeholder (name : Text)
  | junk (problem : Token.Problem) (position : Nat)
  | choice (how : Choice) (argument source : Text) (branches : List (Text × List Node))
  | field (what : Field) (argument source : Text) (style : Option Text)

/-- Read a pattern and all that is nested in it. -/
def parse (pattern : Text) : List Node :=
  (Token.ofPattern pattern).attach.map fun ⟨token, hmem⟩ =>
    match token, hmem with
    | .text value, _ => .text value
    | .placeholder name _, _ => .placeholder name
    | .junk problem position, _ => .junk problem position
    | .construct c, hmem =>
      match hcontent : c.content with
      | .choice how branches =>
        .choice how c.argument c.source
          (branches.attach.map fun ⟨b, hb⟩ =>
            have := Token.length_body_lt hmem hcontent hb
            (b.label, parse b.body))
      | .field what style => .field what c.argument c.source style
termination_by pattern.length

/-- The node of a token. -/
def Node.ofToken : Token → Node
  | .text value => .text value
  | .placeholder name _ => .placeholder name
  | .junk problem position => .junk problem position
  | .construct c =>
    match c.content with
    | .choice how branches =>
      .choice how c.argument c.source (branches.map fun b => (b.label, parse b.body))
    | .field what style => .field what c.argument c.source style

theorem parse_eq (pattern : Text) : parse pattern = (Token.ofPattern pattern).map Node.ofToken := by
  have hattach : (Token.ofPattern pattern).map Node.ofToken =
      (Token.ofPattern pattern).attach.map fun token => Node.ofToken token.val :=
    List.attach_map_val.symm
  rw [parse, hattach]
  apply List.map_congr_left
  rintro ⟨token, hmem⟩ -
  cases token with
  | text value => rfl
  | placeholder name span => rfl
  | junk problem position => rfl
  | construct c =>
    obtain ⟨argument, content, source, span⟩ := c
    cases content with
    | field what style => rfl
    | choice how branches =>
      simp only [Node.ofToken, Node.choice.injEq, true_and]
      exact List.attach_map_val (f := fun b : Branch => (b.label, parse b.body))

/-- What a part of a pattern means: an outcome for the numeral of the nearest count and the number
of branches that are open around it. -/
abbrev Meaning := Option Text → Int → Except Fault Outcome

section Meanings

variable (ctx : Context L)

/-- The value of an argument is used, or else the source stays and the argument is reported. -/
def withArgument (argument source : Text) (use : Value → Except Fault Outcome) :
    Except Fault Outcome :=
  match ctx.arguments.get? argument with
  | some v => use v
  | none => .ok (.kept source (.reference (.argumentNotProvided argument)))

/-- The first branch with a label, or else the first for all other labels. -/
def choose (branches : List (Text × Meaning)) (label : Text) : Option Meaning :=
  match branches.find? (·.1 = label) with
  | some branch => some branch.2
  | none => (branches.find? (·.1 = "other".toList)).map Prod.snd

/-- The chosen branch with one more branch open, or a bare text if there is none. At the limit the
source of the choice stays. -/
def enterBranch (source : Text) (branches : List (Text × Meaning)) (label bare : Text) : Meaning :=
  fun numeral depth =>
    match choose branches label with
    | none => .ok (.plain bare)
    | some branch =>
      if ctx.limit ≤ depth then do
        let issue ← Depth.refusal ctx.limit
        return .kept source issue
      else branch numeral (depth + 1)

/-- A choice for a value. A number gives its numeral to the branch, a selection passes on what it
was given. -/
def chooseFor (how : Choice) (argument source : Text) (branches : List (Text × Meaning))
    (v : Value) : Meaning :=
  fun numeral depth =>
    let count (category : Number → Plural.Category) : Except Fault Outcome :=
      match v.number? with
      | none =>
        .ok (.kept source
          (.resolution (.argumentNotNumeric argument how.keyword.toList v.typeName)))
      | some n => do
        let digits ← n.text
        enterBranch ctx source branches (category n).name.toList digits (some digits) depth
    match how with
    | .plural => count Plural.cardinal
    | .ordinal => count Plural.ordinal
    | .select => do
      let selector ← v.message
      enterBranch ctx source branches selector selector numeral depth

/-- A value written by the formatter of its field. -/
def formatted (what : Field) (argument : Text) (style : Option Text) (v : Value) :
    Except Fault Outcome :=
  match ctx.formatters.get? what with
  | none => do
    let shown ← v.message
    return .kept shown (.resolution (.formatterNotFound what.keyword.toList))
  | some formatter => do
    let locale ← ctx.locale.mapError .raised
    match formatter.format v locale style with
    | .ok shown => .ok (.plain shown)
    | .error (.fault fault) => .error fault
    | .error (.failed reason fallback) =>
      .ok (.kept fallback
        (.formatting (.formattingFailed argument what.keyword.toList reason) fallback))

mutual

/-- What a node means. Number signs count in literal text only. -/
def Node.meaning : Node → Meaning
  | .text value => fun numeral _ =>
    match numeral with
    | some digits => .ok (.plain (value.flatMap fun c => if c = '#' then digits else [c]))
    | none => .ok (.plain value)
  | .placeholder name => fun _ _ =>
    withArgument ctx name ('{' :: name ++ ['}']) fun v => do
      let shown ← v.message
      return .plain shown
  | .junk problem position => fun _ _ => .ok (.kept ['{'] (.grammar (problem.diagnostic position)))
  | .choice how argument source branches => fun numeral depth =>
    withArgument ctx argument source fun v =>
      chooseFor ctx how argument source (branchMeanings branches) v numeral depth
  | .field what argument source style => fun _ _ =>
    withArgument ctx argument source (formatted ctx what argument style)

/-- What nodes mean side by side: their texts and then their issues in the order of the pattern. -/
def meaning : List Node → Meaning
  | [] => fun _ _ => .ok ⟨[], []⟩
  | node :: rest => fun numeral depth => do
    let first ← node.meaning numeral depth
    let others ← meaning rest numeral depth
    return ⟨first.text ++ others.text, first.issues ++ others.issues⟩

/-- What branches mean, under their labels. -/
def branchMeanings : List (Text × List Node) → List (Text × Meaning)
  | [] => []
  | (label, nodes) :: rest => (label, meaning nodes) :: branchMeanings rest

end

/-- Read the whole pattern, then take what it means with no number and no open branch around it. -/
def interpret (pattern : Text) : Except Fault Outcome := meaning ctx (parse pattern) none 0

end Meanings

end Message

namespace Resolver

variable {L : Type}

/-- What a resolver goes by for some arguments. -/
def context (r : Resolver L) (arguments : Arguments) : Message.Context L :=
  ⟨arguments, r.formatters, r.host.babel.resolve r.localeCode,
    Depth.clamp r.host.frames r.maxDepth Depth.defaultReserve⟩

theorem resolve_of_isEmpty_eq_false {arguments : Arguments} (h : arguments.isEmpty = false)
    (r : Resolver L) (pattern : Text) :
    r.resolve arguments pattern = Message.resolve (r.context arguments)
      (r.context arguments).limit.toNat none pattern := by
  rw [resolve, h]
  rfl

end Resolver

end Parlance
