import Parlance.Proofs.Message.Composition
import Parlance.Proofs.Message.Splicing
import Parlance.Proofs.Token.Seam
import Parlance.Sample
/-!
Messages side by side. Behind a pattern in which every opening brace closes, a second pattern is
resolved as it is alone, and its issues follow those of the first (resolve_append). Only what is
said of a wrong brace tells its position, which counts from the start of the whole.
-/

namespace Parlance

open Brace

/-- The same issue, or that of a wrong brace so many characters further on. -/
inductive Issue.Moved (k : Nat) : Issue → Issue → Prop where
  | same (issue : Issue) : Moved k issue issue
  | brace (problem : Token.Problem) (position : Nat) :
      Moved k (.grammar (problem.diagnostic position))
        (.grammar (problem.diagnostic (position + k)))

namespace Outcome

/-- A run with the same end: the same fault, or the same text with the same issues further on. -/
inductive Moved (k : Nat) : Except Fault Outcome → Except Fault Outcome → Prop where
  | fault (fault : Fault) : Moved k (.error fault) (.error fault)
  | ok {text : Text} {issues others : List Issue}
      (hissues : List.Forall₂ (Issue.Moved k) issues others) :
      Moved k (.ok ⟨text, issues⟩) (.ok ⟨text, others⟩)

section Beside

variable {k : Nat} {a b c d : Except Fault Outcome}

theorem Moved.refl (a : Except Fault Outcome) : Moved k a a := by
  cases a with
  | error fault => exact .fault fault
  | ok outcome => exact .ok (List.forall₂_same.2 fun issue _ => .same issue)

theorem Moved.beside (hab : Moved k a b) (hcd : Moved k c d) :
    Moved k (Outcome.beside a c) (Outcome.beside b d) := by
  cases hab with
  | fault fault => exact .fault fault
  | ok hissues =>
    cases hcd with
    | fault fault => exact .fault fault
    | ok hothers => exact .ok (List.rel_append hissues hothers)

theorem append_assoc (a b c : Outcome) : a ++ b ++ c = a ++ (b ++ c) := by
  obtain ⟨t, issues⟩ := a
  obtain ⟨u, others⟩ := b
  obtain ⟨v, rest⟩ := c
  simp only [mk_append_mk, List.append_assoc]

theorem empty_beside (a : Except Fault Outcome) : Outcome.beside (.ok .empty) a = a := by
  cases a <;> rfl

theorem beside_assoc (a b c : Except Fault Outcome) :
    Outcome.beside (Outcome.beside a b) c = Outcome.beside a (Outcome.beside b c) := by
  cases a with
  | error fault => rfl
  | ok a =>
    cases b with
    | error fault => rfl
    | ok b =>
      cases c with
      | error fault => rfl
      | ok c => exact congrArg Except.ok (append_assoc a b c)

theorem Moved.map_text (h : Moved k a b) : b.map Outcome.text = a.map Outcome.text := by
  cases h <;> rfl

/-- The texts of two runs side by side. -/
theorem map_text_beside (a b : Except Fault Outcome) :
    (Outcome.beside a b).map Outcome.text = joinM id [a.map Outcome.text, b.map Outcome.text] := by
  cases a with
  | error fault => rfl
  | ok a =>
    cases b with
    | error fault => rfl
    | ok b => exact congrArg (fun t => Except.ok (a.text ++ t)) (List.append_nil b.text).symm

end Beside

end Outcome

namespace Message

variable {L : Type} (ctx : Context L) (enter : Enter) (numeral : Option Text)

/-- Tokens resolved one after the other. -/
def resolveTokens (tokens : List Token) : Except Fault Outcome :=
  (tokens.mapM (resolveToken ctx enter numeral)).map Outcome.join

theorem resolveWith_eq_resolveTokens (pattern : Text) :
    resolveWith ctx enter numeral pattern =
      resolveTokens ctx enter numeral (Token.ofPattern pattern) := by
  rw [resolveWith, resolveTokens]
  cases (Token.ofPattern pattern).mapM (resolveToken ctx enter numeral) <;> rfl

theorem resolveTokens_cons (token : Token) (tokens : List Token) :
    resolveTokens ctx enter numeral (token :: tokens) =
      Outcome.beside (resolveToken ctx enter numeral token)
        (resolveTokens ctx enter numeral tokens) :=
  map_join_mapM_cons _ token tokens

variable {ctx enter numeral} in
theorem resolveTokens_congr {enter' : Enter} {numeral' : Option Text} {tokens : List Token}
    (h : ∀ token ∈ tokens,
      resolveToken ctx enter numeral token = resolveToken ctx enter' numeral' token) :
    resolveTokens ctx enter numeral tokens = resolveTokens ctx enter' numeral' tokens := by
  induction tokens with
  | nil => rfl
  | cons token tokens ih =>
    rw [List.forall_mem_cons] at h
    rw [resolveTokens_cons, resolveTokens_cons, h.1, ih h.2]

/-- No token but a wrong brace is resolved by its position. -/
theorem moved_resolveToken (k : Nat) (token : Token) :
    Outcome.Moved k (resolveToken ctx enter numeral token)
      (resolveToken ctx enter numeral (token.moved k)) := by
  cases token with
  | text value => exact .refl _
  | placeholder name span => exact .refl _
  | construct c => exact .refl _
  | junk problem position => exact .ok (.cons (.brace problem position) .nil)

theorem moved_resolveTokens (k : Nat) (tokens : List Token) :
    Outcome.Moved k (resolveTokens ctx enter numeral tokens)
      (resolveTokens ctx enter numeral (tokens.map (Token.moved k))) := by
  induction tokens with
  | nil => exact .refl _
  | cons token tokens ih =>
    rw [List.map_cons, resolveTokens_cons, resolveTokens_cons]
    exact (moved_resolveToken ctx enter numeral k token).beside ih

theorem literal_append (t u : Text) :
    literal numeral (t ++ u) = literal numeral t ++ literal numeral u := by
  cases numeral with
  | none => rfl
  | some n => exact List.flatMap_append

theorem resolveTokens_joined (tokens others : List Token) :
    resolveTokens ctx enter numeral (Token.joined tokens others) =
      Outcome.beside (resolveTokens ctx enter numeral tokens)
        (resolveTokens ctx enter numeral others) := by
  fun_induction Token.joined tokens others with
  | case1 others => exact (Outcome.empty_beside _).symm
  | case2 t u others =>
    rw [resolveTokens_cons, resolveTokens_cons, resolveTokens_cons, Outcome.beside_assoc]
    cases resolveTokens ctx enter numeral others with
    | error fault => rfl
    | ok outcome =>
      have htext : literal numeral (t ++ u) ++ outcome.text =
          literal numeral t ++ ([] ++ (literal numeral u ++ outcome.text)) := by
        rw [literal_append, List.append_assoc, List.nil_append]
      exact congrArg (fun text => Except.ok (Outcome.mk text outcome.issues)) htext
  | case3 token tokens others hseam ih =>
    rw [resolveTokens_cons, resolveTokens_cons, ih, Outcome.beside_assoc]

/-- A second pattern is resolved behind a first one as it is alone. -/
theorem exists_resolveWith_append {p : Text} (hp : Closed p) (q : Text) :
    ∃ behind, Outcome.Moved p.length (resolveWith ctx enter numeral q) behind ∧
      resolveWith ctx enter numeral (p ++ q) =
        Outcome.beside (resolveWith ctx enter numeral p) behind := by
  refine ⟨resolveTokens ctx enter numeral ((Token.ofPattern q).map (Token.moved p.length)), ?_, ?_⟩
  · rw [resolveWith_eq_resolveTokens]
    exact moved_resolveTokens ctx enter numeral p.length (Token.ofPattern q)
  · rw [resolveWith_eq_resolveTokens, resolveWith_eq_resolveTokens, Token.ofPattern_append hp,
      resolveTokens_joined]

end Message

namespace Resolver

variable {L : Type}

/-- A second pattern is resolved behind a first one as it is alone, with arguments or without. -/
theorem exists_resolve_append (r : Resolver L) (arguments : Arguments) {p : Text} (hp : Closed p)
    (q : Text) :
    ∃ behind, Outcome.Moved p.length (r.resolve arguments q) behind ∧
      r.resolve arguments (p ++ q) = Outcome.beside (r.resolve arguments p) behind := by
  cases hempty : arguments.isEmpty with
  | true =>
    refine ⟨_, .refl _, ?_⟩
    rw [resolve, resolve, resolve, if_pos hempty, if_pos hempty, if_pos hempty]
    rfl
  | false =>
    obtain ⟨enter, henter⟩ :=
      Message.exists_resolve_eq (r.context arguments) (r.context arguments).limit.toNat
    simp only [resolve_of_isEmpty_eq_false hempty, henter]
    exact Message.exists_resolveWith_append (r.context arguments) enter none hp q

/-- A pattern in which every opening brace closes and any pattern behind it are read and resolved
each as it is alone. The tokens are those of the first and then those of the second, where literal
text at the seam is one token; the texts stand side by side, whatever fails; and the issues of the
first come before those of the second. -/
theorem resolve_append {p : Text} (hp : Closed p) (q : Text) :
    Token.ofPattern (p ++ q) =
      Token.joined (Token.ofPattern p) ((Token.ofPattern q).map (Token.moved p.length)) ∧
    (∀ (r : Resolver L) (arguments : Arguments),
      r.evaluate arguments (p ++ q) = joinM (r.evaluate arguments) [p, q]) ∧
    ∀ (r : Resolver L) (arguments : Arguments) (a b : Outcome),
      r.resolve arguments p = .ok a → r.resolve arguments q = .ok b →
        ∃ issues, r.resolve arguments (p ++ q) = .ok ⟨a.text ++ b.text, a.issues ++ issues⟩ ∧
          List.Forall₂ (Issue.Moved p.length) b.issues issues := by
  refine ⟨Token.ofPattern_append hp q, ?_, ?_⟩
  · intro r arguments
    obtain ⟨behind, hmoved, happend⟩ := r.exists_resolve_append arguments hp q
    rw [evaluate, happend, Outcome.map_text_beside, hmoved.map_text]
    exact (joinM_map (f := id) (r.evaluate arguments) [p, q])
  · intro r arguments a b ha hb
    obtain ⟨behind, hmoved, happend⟩ := r.exists_resolve_append arguments hp q
    rw [hb] at hmoved
    rw [ha] at happend
    cases hmoved with
    | ok hissues => exact ⟨_, happend, hissues⟩

/-- A stray closing brace on both sides of the seam, and a brace behind it that never closes. -/
theorem resolve_append_stray :
    Closed "\x7ba\x7d\x7d" ∧
    ∃ issues, (ofLocale Sample.host "en_US").resolve ((∅ : Arguments).insert "a" (.text "x"))
        ("\x7ba\x7d\x7d".toList ++ "\x7d\x7b".toList) =
          .ok ⟨"x\x7d".toList ++ "\x7d\x7b".toList, [] ++ issues⟩ ∧
      List.Forall₂ (Issue.Moved 4) [.grammar (.unbalancedBrace 1)] issues := by
  have hclosed : Closed "\x7ba\x7d\x7d" := by
    rw [Closed]
    decide
  obtain ⟨hfirst, hsecond⟩ :
      Token.ofPattern "\x7ba\x7d\x7d" = [.placeholder "a" (.ofLength 0 3), .text "\x7d"] ∧
      Token.ofPattern "\x7d\x7b" = [.text "\x7d", .junk .unbalanced 1] := by
    constructor <;> cbv
  have hresolve : ∀ (pattern : Text) (outcome : Outcome),
      (∀ enter, Message.resolveTokens
        ((ofLocale Sample.host "en_US").context ((∅ : Arguments).insert "a" (.text "x"))) enter none
        (Token.ofPattern pattern) = .ok outcome) →
      (ofLocale Sample.host "en_US").resolve ((∅ : Arguments).insert "a" (.text "x")) pattern =
        .ok outcome := by
    intro pattern outcome houtcome
    rw [resolve_of_isEmpty_eq_false (OrderedMap.isEmpty_insert ..)]
    obtain ⟨enter, henter⟩ := Message.exists_resolve_eq _ _
    rw [henter, Message.resolveWith_eq_resolveTokens, houtcome]
  refine ⟨hclosed, (resolve_append hclosed "\x7d\x7b").2.2 _ _ ⟨"x\x7d", []⟩ ⟨"\x7d\x7b", _⟩
    (hresolve _ _ fun enter => ?_) (hresolve _ _ fun enter => ?_)⟩
  · rw [hfirst]
    rfl
  · rw [hsecond]
    rfl

end Resolver

end Parlance
