import Parlance.Proofs.Protection.RoundTrip
/-!
Restoring a text from the map of another one, as tables do with a localized text and the map of its
source: it always gives a text (exists_restore), and a text without placeholders stays as it is
(restore_plain).
-/

namespace Parlance

open Brace Placeholder

namespace Protection

variable {kinds : Kinds} {s t : Text}

/-- Protecting leaves no text empty, and makes no text out of nothing. -/
theorem isEmpty_replaced (kinds : Kinds) (t : Text) :
    (protect kinds t).replaced.isEmpty = t.isEmpty := by
  have hhead : (protect kinds t).replaced.head? = t.head? := head?_numbered 0 0 t
  cases ht : t with
  | nil =>
    rw [ht, List.head?_nil, List.head?_eq_none_iff] at hhead
    rw [hhead]
  | cons c rest =>
    rw [ht, List.head?_cons, List.head?_eq_some_iff] at hhead
    obtain ⟨rest', hrest'⟩ := hhead
    rw [hrest']
    rfl

theorem length_placed_le (index : Nat) (pieces : List (Piece Placed)) :
    (placed pieces).length ≤ (numbered index pieces).length := by
  induction pieces generalizing index with
  | nil => exact Nat.le_refl _
  | cons piece rest ih =>
    cases piece with
    | literal u =>
      have hrest := ih index
      simp only [placed, numbered, List.length_append]
      omega
    | found p =>
      have hrest := ih (index + 1)
      simp only [placed, numbered, token, List.length_append, List.length_cons]
      omega

/-- No protected text has more placeholders than characters. -/
theorem size_le_length_replaced (kinds : Kinds) (t : Text) :
    (protect kinds t).map.size ≤ (protect kinds t).replaced.length := by
  rw [size_protect]
  exact length_placed_le 0 (pieces kinds t)

/-- Any text can be restored from the map of another one. -/
theorem exists_restore (hsize : (protect kinds s).map.size ≤ tenTo numberLimit) (t : Text) :
    ∃ u, restore (protect kinds s).map t = .ok u := by
  by_cases hempty : (protect kinds s).map.isEmpty
  · exact ⟨t, restore_of_isEmpty hempty t⟩
  · obtain ⟨entries, hranked⟩ := exists_ranked_protect hsize
    exact ⟨_, restore_of_ranked (Bool.not_eq_true _ ▸ hempty) hranked t⟩

/-- A text without placeholders holds no number either, so no map changes it. -/
theorem restore_plain (hindexed : HoldsIndexed kinds)
    (hsize : (protect kinds s).map.size ≤ tenTo numberLimit)
    (hplain : (protect kinds t).map.isEmpty) : restore (protect kinds s).map t = .ok t := by
  by_cases hempty : (protect kinds s).map.isEmpty
  · exact restore_of_isEmpty hempty t
  · obtain ⟨entries, hranked⟩ := exists_ranked_protect hsize
    have hnone : placed (pieces kinds t) = [] := by
      rw [← List.isEmpty_iff, ← isEmpty_map_protect, hplain]
    have hsame : numbered 0 (pieces kinds t) = t := replaced_of_isEmpty hplain
    have hsubstitute :
        substitute (protect kinds s).map entries (numbered 0 (pieces kinds t)) = t := by
      refine substitute_numbered bracketed_of_mem_keys hranked 0 0 t ?_ ?_
      · intro i p hp
        rw [← pieces, hnone, List.getElem?_nil] at hp
        cases hp
      · intro group _ hkey
        obtain ⟨i, -, htoken⟩ := mem_keys_ofPieces.1 hkey
        exact hindexed.isSome_ofGroup? htoken
    rw [hsame] at hsubstitute
    rw [restore_of_ranked (Bool.not_eq_true _ ▸ hempty) hranked, hsubstitute]

end Protection

end Parlance
