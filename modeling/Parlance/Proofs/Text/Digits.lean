import Mathlib.Data.List.Basic
import Mathlib.Tactic.Ring
import Parlance.Proofs.Text.Numeral
/-!
The numbers that digits spell, in any script. A text is read as a number exactly if it consists of
digits, and then as the one that it spells (digitsValue?_eq_some_iff); the digits that are written
for a number spell it.
-/

namespace Parlance.Text

/-- The number that digits of any script spell. -/
def spelled (t : Text) : Nat := t.foldl (fun n c => 10 * n + (digitValue? c).getD 0) 0

section Spelled

variable {t : Text}

theorem digitValue?_lt {c : Char} {n : Nat} (h : digitValue? c = some n) : n < 10 := by
  obtain ⟨first, -, hdigit⟩ := List.exists_of_findSome?_eq_some h
  obtain ⟨hrange, hvalue⟩ := Option.ite_none_right_eq_some.1 hdigit
  have := Option.some.inj hvalue
  omega

theorem digitValue?_getD_lt (c : Char) : (digitValue? c).getD 0 < 10 := by
  cases h : digitValue? c with
  | none => decide
  | some n => exact digitValue?_lt h

/-- A number that is spelled so far moves up by the digits that follow. -/
theorem foldl_spelled (n : Nat) (t : Text) :
    t.foldl (fun n c => 10 * n + (digitValue? c).getD 0) n = n * 10 ^ t.length + spelled t := by
  rw [spelled]
  induction t generalizing n with
  | nil => simp
  | cons c t ih =>
    rw [List.foldl_cons, List.foldl_cons, ih, ih (10 * 0 + _), List.length_cons]
    ring

theorem spelled_append (a b : Text) : spelled (a ++ b) = spelled a * 10 ^ b.length + spelled b := by
  rw [spelled, List.foldl_append, foldl_spelled]
  rfl

theorem spelled_cons (c : Char) (t : Text) :
    spelled (c :: t) = (digitValue? c).getD 0 * 10 ^ t.length + spelled t := by
  rw [spelled, List.foldl_cons, foldl_spelled]
  simp

theorem spelled_lt (t : Text) : spelled t < 10 ^ t.length := by
  induction t with
  | nil => decide
  | cons c t ih =>
    rw [spelled_cons, List.length_cons]
    calc (digitValue? c).getD 0 * 10 ^ t.length + spelled t
      _ < ((digitValue? c).getD 0 + 1) * 10 ^ t.length := by
        rw [Nat.add_one_mul]
        exact Nat.add_lt_add_left ih _
      _ ≤ 10 * 10 ^ t.length := Nat.mul_le_mul_right _ (digitValue?_getD_lt c)
      _ = 10 ^ (t.length + 1) := (Nat.pow_succ').symm

theorem spelled_replicate_zero (n : Nat) : spelled (List.replicate n '0') = 0 := by
  induction n with
  | zero => rfl
  | succ n ih =>
    rw [List.replicate_succ, spelled_cons, ih]
    simp [digitValue?_of_ascii]

theorem spelled_ofNat (n : Nat) : spelled (ofNat n) = n := by
  have hdigits : ∀ k, ∀ c ∈ ofNat n,
      10 * k + (digitValue? c).getD 0 = 10 * k + (c.toNat - '0'.toNat) := by
    intro k c hc
    rw [digitValue?_of_ascii (Nat.isDigit_of_mem_toDigits (by decide) (by decide) hc)]
    rfl
  exact (List.foldl_ext _ _ 0 hdigits).trans Nat.ofDigitChars_ten_toDigits

/-- One digit more, if it is one. -/
def shiftIn (n? : Option Nat) (d : Char) : Option Nat := do return 10 * (← n?) + (← digitValue? d)

theorem digitsValue?_cons (c : Char) (t : Text) :
    digitsValue? (c :: t) = t.foldl shiftIn (digitValue? c) :=
  rfl

theorem foldl_shiftIn_none (t : Text) : t.foldl shiftIn none = none := by
  induction t with
  | nil => rfl
  | cons c t ih => exact ih

theorem foldl_shiftIn_some {k n : Nat} :
    t.foldl shiftIn (some k) = some n ↔
      (∀ c ∈ t, isDigit c) ∧ n = k * 10 ^ t.length + spelled t := by
  induction t generalizing k with
  | nil =>
    simp only [List.foldl_nil, Option.some.injEq, List.not_mem_nil, false_implies, implies_true,
      true_and, List.length_nil, pow_zero, Nat.mul_one, spelled, Nat.add_zero]
    exact eq_comm
  | cons c t ih =>
    rw [List.foldl_cons, List.forall_mem_cons, isDigit]
    cases hc : digitValue? c with
    | none => simp [shiftIn, hc, foldl_shiftIn_none]
    | some d =>
      have hshift : shiftIn (some k) c = some (10 * k + d) := by simp [shiftIn, hc]
      have hsum : (10 * k + d) * 10 ^ t.length + spelled t =
          k * 10 ^ (c :: t).length + spelled (c :: t) := by
        rw [spelled_cons, hc, Option.getD_some, List.length_cons]
        ring
      rw [hshift, ih, hsum, Option.isSome_some, and_iff_right rfl]

/-- A text is read as a number exactly if it consists of digits. -/
theorem digitsValue?_eq_some_iff {n : Nat} :
    digitsValue? t = some n ↔ t ≠ [] ∧ (∀ c ∈ t, isDigit c) ∧ n = spelled t := by
  cases t with
  | nil => simp [digitsValue?]
  | cons c t =>
    rw [digitsValue?_cons, List.forall_mem_cons, isDigit, spelled_cons]
    cases hc : digitValue? c with
    | none => simp [foldl_shiftIn_none]
    | some d => simp [foldl_shiftIn_some]

/-- Digits in any number spell a number. -/
theorem exists_digitsValue? (hne : t ≠ []) (h : ∀ c ∈ t, isDigit c) :
    ∃ n, digitsValue? t = some n :=
  ⟨spelled t, digitsValue?_eq_some_iff.2 ⟨hne, h, rfl⟩⟩

end Spelled

end Parlance.Text
