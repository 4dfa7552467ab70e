import Parlance.Construct
import Parlance.Proofs.Brace.Closed
import Parlance.Proofs.Brace.Pairing
import Parlance.Proofs.Traverse
/-!
Negative places. A character is found from the end as from the start (charAt_sub_length). A search
from a negative place goes on at the start of the pattern: counting runs over the pattern twice
(closeAt?_sub_length), and branches and constructs are only those that are read from the start
(branchesBetween_of_negative, contentBetween_of_negative).
-/

namespace Parlance

namespace Brace

section Characters

variable {α : Type u} (t : List α)

/-- Places that count from the end name the same characters. -/
theorem charAt_sub_length {pos : Nat} (h : pos < t.length) :
    charAt t ((pos : Int) - t.length) = charAt t pos := by
  have hback : placeIn t ((pos : Int) - t.length) = pos := by
    rw [placeIn, if_pos (by omega)]
    omega
  have hfront : placeIn t (pos : Int) = pos := if_neg (by omega)
  rw [charAt, charAt, hback, hfront]

/-- There is a character at the places from the start and from the end that the text has. -/
theorem charAt_eq_error_iff {place : Int} :
    charAt t place = .error .outside ↔ place < -t.length ∨ t.length ≤ place := by
  rw [charAt]
  split
  · next h =>
    rw [placeIn] at h
    split at h
    · simp only [true_iff]; omega
    · omega
  · next h =>
    rw [placeIn] at h ⊢
    cases hc : t[(if place < 0 then t.length + place else place).toNat]? with
    | none =>
      have hlength := List.getElem?_eq_none_iff.1 hc
      simp only [true_iff]
      split at hlength <;> omega
    | some c =>
      have hlength := (List.getElem?_eq_some_iff.1 hc).1
      simp only [reduceCtorEq, false_iff]
      split at hlength <;> omega

end Characters

section Counting

variable (pattern : Text) {pos : Nat}

theorem closeFrom_drop_double (h : pos < pattern.length) :
    closeFrom 0 pos (pattern.drop pos ++ pattern) = close? (pattern ++ pattern) pos := by
  rw [close?, List.drop_append_of_le_length (Nat.le_of_lt h)]

/-- From a negative place the pattern is counted twice, and the end is told from the same place. -/
theorem closeAt?_sub_length (h : pos < pattern.length) :
    closeAt? pattern ((pos : Int) - pattern.length) =
      .ok ((close? (pattern ++ pattern) pos).map fun stop : Nat =>
        (stop : Int) - pattern.length) := by
  have hplace : placeIn pattern ((pos : Int) - pattern.length) = pos := by
    rw [placeIn, if_pos (by omega)]
    omega
  have hcount : close? (pattern ++ pattern) pos =
      (close? (pattern.drop pos ++ pattern) 0).map (pos + ·) := by
    rw [← closeFrom_drop_double pattern h, close?, List.drop_zero, ← closeFrom_add, Nat.add_zero]
  rw [closeAt?, if_neg (by omega), hplace, if_neg (by omega), hcount, Int.toNat_natCast]
  dsimp only
  cases close? (pattern.drop pos ++ pattern) 0 with
  | none => rfl
  | some stop =>
    have hstop : (pos : Int) - pattern.length + stop =
        ((pos + stop : Nat) : Int) - pattern.length := by
      omega
    exact congrArg (fun n : Int => Except.ok (some n)) hstop

/-- A group that closes has its end, whether it is named from the start or from the end. -/
theorem closeAt?_sub_length_of_close? {stop : Nat} (h : pos < pattern.length)
    (hclose : close? pattern pos = some stop) :
    closeAt? pattern ((pos : Int) - pattern.length) =
      .ok (some ((stop : Int) - pattern.length)) := by
  have htwice : close? (pattern ++ pattern) pos = some stop := by
    rw [← closeFrom_drop_double pattern h]
    exact ((closeFrom_append_iff pattern).2 hclose).1
  rw [closeAt?_sub_length pattern h, htwice]
  rfl

end Counting

end Brace

namespace Construct

open Brace

variable {ms : Marks} {start stop : Int}

/-- The branches that are read from a negative place are those that are read from the start. -/
theorem branchesBetween_of_negative {bs : List PlacedBranch} (hstart : start < 0)
    (h : branchesBetween ms start stop = .ok (some bs)) :
    branchesBetween ms 0 stop = .ok (some bs) := by
  rw [branchesBetween, if_neg (by omega)] at h
  rw [branchesBetween, if_pos (Int.le_refl 0), Int.toNat_zero]
  split at h
  · cases h
  · obtain ⟨-, -, h⟩ := bind_eq_ok_iff.1 h
    dsimp only at h
    split at h
    · cases h
    · exact h

/-- What is read from a negative place stands at the start of the pattern. -/
theorem contentBetween_of_negative {said : Text × Content} (hstart : start < 0)
    (h : contentBetween ms start stop = .ok (some said)) :
    ofInterior? (ms.take (stop - 1).toNat) = some said := by
  have hrange : ms.range (start + 1) (stop - 1) = ms.take (stop - 1).toNat := by
    rw [Marks.range, Marks.slice, show (start + 1).toNat = 0 by omega, List.drop_zero, Nat.sub_zero]
  rw [contentBetween, hrange] at h
  split at h
  · cases h
  · obtain ⟨first, -, h⟩ := bind_eq_ok_iff.1 h
    split at h
    · cases h
    · obtain ⟨last, -, h⟩ := bind_eq_ok_iff.1 h
      split at h
      · cases h
      · exact Except.ok.inj h

end Construct

end Parlance
