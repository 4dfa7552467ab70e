import Parlance.Proofs.Message.Tree
import Parlance.Proofs.Token.Composition
import Parlance.Proofs.Traverse
/-!
Patterns put together from parts are evaluated part by part (evaluate_pattern). A part has the same
text wherever it stands, because resolving a token does not look at its place, and literal text
outside every branch stays as it is.
-/

namespace Parlance

open Token

namespace Message

variable {L : Type} (ctx : Context L) (enter : Enter)

/-- The text that a token is resolved to with no number around it. -/
def shown (token : Token) : Except Fault Text :=
  (resolveToken ctx enter none token).map Outcome.text

/-- The text of a pattern is that of its tokens side by side. -/
theorem map_text_resolveWith (pattern : Text) :
    (resolveWith ctx enter none pattern).map Outcome.text =
      joinM (shown ctx enter) (ofPattern pattern) := by
  rw [resolveWith]
  induction ofPattern pattern with
  | nil => rfl
  | cons token rest ih =>
    rw [List.mapM_cons]
    cases htoken : resolveToken ctx enter none token with
    | error fault => rw [joinM_cons_of_error (by rw [shown, htoken]; rfl)]; rfl
    | ok first =>
      rw [joinM_cons_of_ok (by rw [shown, htoken]; rfl), ← ih]
      cases rest.mapM (resolveToken ctx enter none) <;> rfl

/-- Literal text is shown as it is. -/
theorem joinM_shown_literal (run : Text) (tokens : List Token) :
    joinM (shown ctx enter) (Part.literal run ++ tokens) =
      (joinM (shown ctx enter) tokens).map (run ++ ·) := by
  cases run with
  | nil =>
    rw [show Part.literal [] ++ tokens = tokens from rfl]
    cases joinM (shown ctx enter) tokens <;> rfl
  | cons c run =>
    have htext : shown ctx enter (.text (c :: run)) = .ok (c :: run) := rfl
    exact joinM_cons_of_ok htext tokens

/-- The text that a part is shown as. -/
def shownPart (part : Part) : Except Fault Text :=
  match part.token? 0 with
  | some token => shown ctx enter token
  | none => .ok part.text

/-- A part is shown alike at all places. -/
theorem shownPart_of_token? {part : Part} {pos : Nat} {token : Token}
    (h : part.token? pos = some token) : shownPart ctx enter part = shown ctx enter token := by
  cases part <;> cases h <;> rfl

theorem shownPart_of_literal {part : Part} {pos : Nat} (h : part.token? pos = none) :
    shownPart ctx enter part = .ok part.text := by
  cases part <;> first | rfl | cases h

/-- The tokens of parts behind a run of literal text are shown part by part. -/
theorem joinM_shown_tokens (parts : List Part) (run : Text) (pos : Nat) :
    joinM (shown ctx enter) (Part.tokens run pos parts) =
      (joinM (shownPart ctx enter) parts).map (run ++ ·) := by
  induction parts generalizing run pos with
  | nil =>
    rw [Part.tokens, ← List.append_nil (Part.literal run), joinM_shown_literal]
    rfl
  | cons part rest ih =>
    cases htoken : part.token? pos with
    | some token =>
      rw [Part.tokens_cons_of_some htoken, joinM_shown_literal]
      have hpart := shownPart_of_token? ctx enter htoken
      cases hshown : shown ctx enter token with
      | error fault =>
        rw [joinM_cons_of_error hshown, joinM_cons_of_error (hpart.trans hshown)]
      | ok first =>
        rw [joinM_cons_of_ok hshown, joinM_cons_of_ok (hpart.trans hshown), ih]
        cases joinM (shownPart ctx enter) rest <;> rfl
    | none =>
      rw [Part.tokens_cons_of_none htoken, ih,
        joinM_cons_of_ok (shownPart_of_literal ctx enter htoken)]
      cases joinM (shownPart ctx enter) rest with
      | error fault => rfl
      | ok texts => exact congrArg Except.ok (List.append_assoc run part.text texts)

/-- Only branches are resolved with what is left of a budget. -/
theorem exists_resolve_eq (budget : Nat) : ∃ enter, resolve ctx budget = resolveWith ctx enter := by
  cases budget with
  | zero => exact ⟨none, rfl⟩
  | succ budget => exact ⟨some (resolve ctx budget), rfl⟩

theorem map_text_resolveWith_pattern (parts : List Part) :
    (resolveWith ctx enter none (Part.pattern parts)).map Outcome.text =
      joinM (shownPart ctx enter) parts := by
  rw [map_text_resolveWith, Part.ofPattern_pattern, joinM_shown_tokens]
  cases joinM (shownPart ctx enter) parts <;> rfl

theorem map_text_resolveWith_part (part : Part) :
    (resolveWith ctx enter none part.text).map Outcome.text = shownPart ctx enter part := by
  have halone := map_text_resolveWith_pattern ctx enter [part]
  rwa [Part.pattern, List.flatMap_singleton, joinM_singleton] at halone

end Message

namespace Resolver

variable {L : Type} {r : Resolver L} {arguments : Arguments}

theorem evaluate_of_isEmpty (h : arguments.isEmpty) (pattern : Text) :
    r.evaluate arguments pattern = .ok pattern := by
  rw [evaluate, resolve, if_pos h]
  rfl

/-- With arguments all patterns are resolved in one way. -/
theorem exists_evaluate_eq (h : arguments.isEmpty = false) :
    ∃ (ctx : Message.Context L) (enter : Message.Enter), ∀ pattern, r.evaluate arguments pattern =
      (Message.resolveWith ctx enter none pattern).map Outcome.text := by
  obtain ⟨enter, henter⟩ :=
    Message.exists_resolve_eq (r.context arguments) (r.context arguments).limit.toNat
  refine ⟨r.context arguments, enter, fun pattern => ?_⟩
  rw [evaluate, resolve_of_isEmpty_eq_false h, henter]

variable (r arguments)

/-- Text and escapes are evaluated to themselves. -/
theorem evaluate_literal_part {part : Part} (h : part.token? 0 = none) :
    r.evaluate arguments part.text = .ok part.text := by
  cases hempty : arguments.isEmpty with
  | true => exact evaluate_of_isEmpty hempty part.text
  | false =>
    obtain ⟨ctx, enter, hevaluate⟩ := exists_evaluate_eq (r := r) hempty
    rw [hevaluate, Message.map_text_resolveWith_part, Message.shownPart_of_literal ctx enter h]

/-- Parts side by side are evaluated to their evaluations side by side, and the first part that
fails is the failure of the whole. -/
theorem evaluate_pattern (parts : List Part) :
    r.evaluate arguments (Part.pattern parts) =
      joinM (r.evaluate arguments) (parts.map Part.text) := by
  cases hempty : arguments.isEmpty with
  | true =>
    have hsame : ∀ t ∈ parts.map Part.text, r.evaluate arguments t = .ok (id t) :=
      fun t _ => evaluate_of_isEmpty hempty t
    rw [evaluate_of_isEmpty hempty, joinM_of_ok hsame, List.flatMap_id, Part.pattern,
      List.flatMap_def]
  | false =>
    obtain ⟨ctx, enter, hevaluate⟩ := exists_evaluate_eq (r := r) hempty
    have hpart : (fun part : Part => r.evaluate arguments part.text) =
        Message.shownPart ctx enter := by
      funext part
      rw [hevaluate, Message.map_text_resolveWith_part]
    rw [joinM_map, hpart, hevaluate, Message.map_text_resolveWith_pattern]

end Resolver

end Parlance
