import Parlance.Proofs.Protection.Restoring
/-!
Keys with too many digits. The number of a key can be read unless the key is braces around more
digits than a number may have (number_eq_error_iff). So restoring fails exactly where the map has
such a key, whether or not it stands in the text (restore_eq_error_iff); whatever else the keys are
made of, every text is restored.
-/

namespace Parlance

open Placeholder

namespace Protection

/-- Braces around more digits than a number may have. -/
def Oversized (key : Text) : Prop :=
  ∃ digits : Text.FilledRun Text.isDigit,
    numberLimit < digits.text.length ∧ key = numberedKey digits

section Keys

variable {key : Text} {fault : Fault}

theorem number_eq_error_iff :
    number key = .error fault ↔ fault = .oversizedNumeral ∧ Oversized key := by
  constructor
  · intro h
    unfold number at h
    split at h
    · next digits hinside =>
      split at h
      · next n hvalue =>
        obtain ⟨hne, hall, -⟩ := Text.digitsValue?_eq_some_iff.1 hvalue
        split at h
        · cases h
        · next hlength =>
          cases h
          exact ⟨rfl, ⟨⟨digits, hall⟩, hne⟩, Nat.lt_of_not_le hlength,
            inside?_eq_some_iff.1 hinside⟩
      · cases h
    · cases h
  · rintro ⟨rfl, digits, hlength, rfl⟩
    obtain ⟨n, hn⟩ := number_numberedKey digits
    rw [hn, if_neg (Nat.not_le_of_lt hlength)]

end Keys

section Maps

variable {map : PlaceholderMap} {fault : Fault}

theorem rank_eq_error_iff {entry : Text × Text} :
    rank entry = .error fault ↔ fault = .oversizedNumeral ∧ Oversized entry.1 :=
  bind_pure_eq_error_iff.trans number_eq_error_iff

theorem ranked_eq_error_iff :
    ranked map = .error fault ↔
      fault = .oversizedNumeral ∧ ∃ key ∈ map.keys, Oversized key := by
  rw [ranked_eq, bind_pure_eq_error_iff, mapM_eq_error_iff fun entry _ _ => rank_eq_error_iff,
    OrderedMap.keys]
  simp only [List.mem_map, exists_exists_and_eq_and]

/-- Restoring fails with any text, or with none. -/
theorem restore_eq_error_iff (t : Text) :
    restore map t = .error fault ↔
      fault = .oversizedNumeral ∧ ∃ key ∈ map.keys, Oversized key := by
  cases hempty : map.isEmpty with
  | true =>
    have hkeys : map.keys = [] := congrArg (List.map Prod.fst) (List.isEmpty_iff.1 hempty)
    simp [restore_of_isEmpty hempty, hkeys]
  | false =>
    rw [restore, hempty, if_neg Bool.false_ne_true, bind_pure_eq_error_iff, ranked_eq_error_iff]

theorem exists_restore_of_not_oversized (h : ¬∃ key ∈ map.keys, Oversized key) (t : Text) :
    ∃ u, restore map t = .ok u := by
  cases hrestore : restore map t with
  | error fault => exact absurd ((restore_eq_error_iff t).1 hrestore).2 h
  | ok u => exact ⟨u, rfl⟩

end Maps

end Protection

end Parlance
