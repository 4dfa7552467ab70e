import Parlance.Proofs.Message.Composition
import Parlance.Proofs.Protection.Tokens
/-!
What a translator may write: text, escapes, and the numbers of the placeholders of the source in any
order, repeated or left out. Restoring such a translation puts every placeholder back in the place
of its number (restore_segments), and what is evaluated then is the translator's text with the
evaluated placeholders in it (evaluate_restore).
-/

namespace Parlance

open Brace Placeholder

namespace Protection

/-- What a translation consists of, where there are so many placeholders. -/
inductive Segment (size : Nat) where
  /-- Text without an opening brace; closing braces may stand in it. -/
  | plain (t : Text) (no_open : '{' ∉ t)
  | escape
  | number (index : Fin size)

/-- The text behind a number of a map. -/
def original (map : PlaceholderMap) (index : Fin map.size) : Text := (map.entries[index]).2

namespace Segment

/-- A segment as the translator writes it. -/
def text {size : Nat} : Segment size → Text
  | .plain t _ => t
  | .escape => ['{', '{']
  | .number index => token index

/-- A segment with the placeholder put back. -/
def restored {map : PlaceholderMap} : Segment map.size → Text
  | .plain t _ => t
  | .escape => ['{', '{']
  | .number index => original map index

/-- A segment as it is shown: a placeholder is evaluated on its own, and the rest stays. -/
def evaluate (r : Resolver L) (arguments : Arguments) {map : PlaceholderMap} :
    Segment map.size → Except Fault Text
  | .plain t _ => .ok t
  | .escape => .ok ['{', '{']
  | .number index => r.evaluate arguments (original map index)

end Segment

section Restoring

variable {kinds : Kinds} {s : Text}

theorem exists_placed (index : Fin (protect kinds s).map.size) :
    ∃ p, (placed (pieces kinds s))[index.val]? = some p ∧
      original (protect kinds s).map index = p.source := by
  have hindex : index.val < (placed (pieces kinds s)).length := size_protect kinds s ▸ index.isLt
  refine ⟨_, List.getElem?_eq_getElem hindex, ?_⟩
  have hentries : (protect kinds s).map.entries =
      (placed (pieces kinds s)).mapIdx fun i p => (token i, p.source) := entries_ofPieces _
  simp only [original, Fin.getElem_fin, hentries, List.getElem_mapIdx]

/-- A number of the map stands for its placeholder. -/
theorem get?_token_protect (index : Fin (protect kinds s).map.size) :
    (protect kinds s).map.get? (token index) = some (original (protect kinds s).map index) := by
  obtain ⟨p, hp, horiginal⟩ := exists_placed index
  rw [horiginal]
  exact get?_token_ofPieces hp

/-- Every number in a translation gives way to its placeholder, and nothing else changes. -/
theorem substitute_segments {entries : List Ranked}
    (hranked : ranked (protect kinds s).map = .ok entries)
    (w : List (Segment (protect kinds s).map.size)) :
    substitute (protect kinds s).map entries (w.flatMap Segment.text) =
      w.flatMap Segment.restored := by
  have hkeys : ∀ key ∈ (protect kinds s).map.keys, Bracketed key := bracketed_of_mem_keys
  induction w with
  | nil => exact substitute_nil hkeys
  | cons segment w ih =>
    rw [List.flatMap_cons, List.flatMap_cons, ← ih]
    cases segment with
    | plain t hopen => exact substitute_plain hkeys hranked hopen _
    | escape => exact substitute_escape hkeys _
    | number index => exact substitute_key hkeys hranked (get?_token_protect index) _

theorem restored_of_isEmpty {map : PlaceholderMap} (h : map.isEmpty) (w : List (Segment map.size)) :
    w.flatMap Segment.text = w.flatMap Segment.restored := by
  rw [OrderedMap.isEmpty, List.isEmpty_iff_length_eq_zero] at h
  apply List.flatMap_congr
  intro segment _
  cases segment with
  | plain t hopen => rfl
  | escape => rfl
  | number index => exact absurd index.isLt (by simp [OrderedMap.size, h])

theorem restore_segments (w : List (Segment (protect kinds s).map.size)) :
    restore (protect kinds s).map (w.flatMap Segment.text) =
      if (protect kinds s).map.size ≤ tenTo numberLimit then .ok (w.flatMap Segment.restored)
      else .error .oversizedNumeral := by
  split
  · next hlimit =>
    cases hempty : (protect kinds s).map.isEmpty with
    | true => rw [restore_of_isEmpty hempty, restored_of_isEmpty hempty]
    | false =>
      obtain ⟨entries, hranked⟩ := exists_ranked_protect hlimit
      rw [restore_of_ranked hempty hranked, substitute_segments hranked]
  · next hlimit => exact restore_of_oversized (Nat.lt_of_not_le hlimit) _

end Restoring

section Evaluating

variable {s : Text}

/-- A placeholder under the default kinds is a part of a pattern. -/
theorem exists_part_of_placed {p : Placed} (h : p ∈ placed (pieces .default s)) :
    ∃ part : Token.Part, part.text = p.source := by
  rw [pieces, cut_default, placed_shield, ← Token.ofPattern] at h
  obtain ⟨token, hmem, hplaced⟩ := List.mem_filterMap.1 h
  obtain ⟨kind, hkind, rfl⟩ := Option.map_eq_some_iff.1 hplaced
  apply Token.Part.exists_part_of_mem hmem
  · cases token <;> first | rfl | cases hkind
  · rintro problem position rfl
    cases hkind

/-- A segment of a restored translation is one too. -/
theorem exists_part_restored (segment : Segment (protect .default s).map.size) :
    ∃ part : Token.Part, part.text = segment.restored := by
  cases segment with
  | plain t hopen => exact ⟨.plain t hopen, rfl⟩
  | escape => exact ⟨.escape, rfl⟩
  | number index =>
    obtain ⟨p, hp, horiginal⟩ := exists_placed index
    obtain ⟨part, hpart⟩ := exists_part_of_placed (List.mem_of_getElem? hp)
    exact ⟨part, hpart.trans horiginal.symm⟩

theorem exists_parts_restored (w : List (Segment (protect .default s).map.size)) :
    ∃ parts : List Token.Part, parts.map Token.Part.text = w.map Segment.restored := by
  induction w with
  | nil => exact ⟨[], rfl⟩
  | cons segment w ih =>
    obtain ⟨part, hpart⟩ := exists_part_restored segment
    obtain ⟨parts, hparts⟩ := ih
    exact ⟨part :: parts, by rw [List.map_cons, List.map_cons, hpart, hparts]⟩

variable (r : Resolver L) (arguments : Arguments)

/-- A restored segment is evaluated to what the segment is shown as. -/
theorem evaluate_restored {map : PlaceholderMap} (segment : Segment map.size) :
    r.evaluate arguments segment.restored = segment.evaluate r arguments := by
  cases segment with
  | plain t hopen =>
    have hliteral : (Token.Part.plain t hopen).token? 0 = none := rfl
    exact r.evaluate_literal_part arguments hliteral
  | escape =>
    have hliteral : Token.Part.escape.token? 0 = none := rfl
    exact r.evaluate_literal_part arguments hliteral
  | number index => rfl

/-- What is evaluated after restoring a translation is the translator's text with the evaluated
placeholders in it, wherever the translator put them; it fails only if one of these fails. Only
numbers of too many digits, of which no text in any memory has one, cannot be restored. -/
theorem evaluate_restore (s : Text) (w : List (Segment (protect .default s).map.size)) :
    (∀ index : Fin (protect .default s).map.size,
      (protect .default s).map.get? (token index) =
        some (original (protect .default s).map index)) ∧
    (restore (protect .default s).map (w.flatMap Segment.text) >>= r.evaluate arguments) =
      if (protect .default s).map.size ≤ tenTo numberLimit then
        joinM (Segment.evaluate r arguments) w
      else .error .oversizedNumeral := by
  refine ⟨get?_token_protect, ?_⟩
  rw [restore_segments]
  split
  · -- the restored translation is a pattern of parts, one for each segment
    obtain ⟨parts, hparts⟩ := exists_parts_restored w
    have hpattern : w.flatMap Segment.restored = Token.Part.pattern parts := by
      rw [Token.Part.pattern, List.flatMap_def, List.flatMap_def, hparts]
    have hsegments : (fun segment : Segment (protect .default s).map.size =>
        r.evaluate arguments segment.restored) = Segment.evaluate r arguments :=
      funext (evaluate_restored r arguments)
    calc
      _ = r.evaluate arguments (Token.Part.pattern parts) := by rw [hpattern]; rfl
      _ = joinM (r.evaluate arguments) (w.map Segment.restored) := by
        rw [r.evaluate_pattern, hparts]
      _ = _ := by rw [joinM_map, hsegments]
  · rfl

end Evaluating

end Protection

end Parlance
