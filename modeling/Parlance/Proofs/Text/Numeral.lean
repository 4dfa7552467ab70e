import Parlance.Power
import Parlance.Text
/-!
Decimal numerals consist of digits, and no two numbers have the same numeral.
-/

namespace Parlance

theorem tenTo_le_tenTo {m n : Nat} (h : m ≤ n) : tenTo m ≤ tenTo n :=
  Nat.pow_le_pow_right (by omega) h

namespace Text

theorem digitValue?_of_ascii {c : Char} (h : c.isDigit) :
    digitValue? c = some (c.toNat - '0'.toNat) := by
  have hrange : 48 ≤ c.toNat ∧ c.toNat < 58 := by
    simp only [Char.isDigit, ge_iff_le, Bool.and_eq_true, decide_eq_true_eq,
      UInt32.le_iff_toNat_le] at h
    exact ⟨h.1, Nat.lt_succ_of_le h.2⟩
  simp [digitValue?, digitZeros, hrange]

theorem isDigit_of_ascii {c : Char} (h : c.isDigit) : isDigit c := by
  rw [isDigit, digitValue?_of_ascii h, Option.isSome_some]

theorem isDigit_of_mem_ofNat {c : Char} {n : Nat} (h : c ∈ ofNat n) : isDigit c :=
  isDigit_of_ascii (Nat.isDigit_of_mem_toDigits (by decide) (by decide) h)

theorem ofNat_ne_nil (n : Nat) : ofNat n ≠ [] := Nat.toDigits_ne_nil

theorem ofNat_injective : Function.Injective ofNat := by
  intro m n h
  have hvalue : Nat.ofDigitChars 10 (ofNat m) 0 = Nat.ofDigitChars 10 (ofNat n) 0 := by rw [h]
  simpa only [ofNat, Nat.ofDigitChars_ten_toDigits] using hvalue

/-- A power of ten is the first number with one more digit. -/
theorem length_ofNat_le_iff (n : Nat) {places : Nat} (h : 0 < places) :
    (ofNat n).length ≤ places ↔ n < tenTo places :=
  Nat.length_toDigits_le_iff (by decide) h

end Text

end Parlance
