import Mathlib.Tactic.FieldSimp
import Mathlib.Tactic.Ring
import Parlance.Proofs.Format.Settled
import Parlance.Proofs.Number.Reading
/-!
Numbers that are written out. Every usable integer and decimal is written as a plain numeral, which
denotes its value and is read back as a number of that value (text_of_number?). The bound on the
leading digit holds the numeral to 4300 places on either side of the point, so a short text never
expands by more than that.
-/

namespace Parlance

open Text (FilledRun isDigit spelled)

/-- A numeral without an exponent: perhaps a minus, digits, and perhaps a point with digits behind
it. -/
structure Plain where
  negative : Bool
  whole : FilledRun Char.isDigit
  fraction? : Option (FilledRun Char.isDigit)

namespace Plain

def text (p : Plain) : Text :=
  Decimal.sign p.negative ++ (p.whole.text ++ p.fraction?.elim [] ('.' :: ·.text))

/-- The part of a unit that the digits behind a point denote. -/
def part (fraction : FilledRun Char.isDigit) : ℚ :=
  (spelled fraction.text : ℚ) / 10 ^ fraction.text.length

/-- The number that a numeral denotes. -/
def value (p : Plain) : ℚ :=
  (if p.negative then -1 else 1) * (spelled p.whole.text + p.fraction?.elim 0 part)

end Plain

section Rereading

/-- Digits of ASCII among the digits of all scripts. -/
def anyScript (run : FilledRun Char.isDigit) : FilledRun isDigit :=
  ⟨⟨run.text, fun c hc => Text.isDigit_of_ascii (run.all c hc)⟩, run.text_ne_nil⟩

/-- A minus, or nothing. -/
def Sign.ofNegative (negative : Bool) : Sign := if negative then .minus else .none

theorem text_ofNegative (negative : Bool) :
    (Sign.ofNegative negative).text = Decimal.sign negative := by
  cases negative <;> rfl

theorem isMinus_ofNegative (negative : Bool) : (Sign.ofNegative negative).isMinus = negative := by
  cases negative <;> rfl

namespace Plain

variable (p : Plain)

/-- The integer in front of the point. -/
def integral : Integral := ⟨Sign.ofNegative p.negative, anyScript p.whole, []⟩

/-- The number that a numeral is read as, if it is usable. -/
def number : Number :=
  match p.fraction? with
  | none => p.integral.number
  | some fraction =>
    .decimal (.finite p.negative (spelled (p.whole.text ++ fraction.text))
      (-(fraction.text.length : Int)))

theorem digits_integral : p.integral.digits = p.whole.text := List.append_nil p.whole.text

theorem value_integral : p.integral.value = signed p.negative (spelled p.whole.text) := by
  rw [Integral.value, digits_integral]
  exact congrArg (signed · _) (isMinus_ofNegative p.negative)

theorem text_eq_integral (h : p.fraction? = none) : p.text = p.integral.text := by
  rw [text, h, Integral.text, integral, text_ofNegative]
  rfl

theorem text_eq_mantissa :
    p.text = (Sign.ofNegative p.negative).text ++
      ((anyScript p.whole).text ++ pointed (p.fraction?.map anyScript)) := by
  rw [text, text_ofNegative]
  cases p.fraction? <;> rfl

/-- No blank and no underscore stands in a numeral. -/
theorem plain_of_mem_text {c : Char} (h : c ∈ p.text) : Text.isBlank c = false ∧ c ≠ '_' := by
  rw [text_eq_mantissa, List.mem_append] at h
  rcases h with h | h
  · rcases Sign.eq_of_mem_text h with rfl | rfl <;> decide
  · rcases mem_mantissa h with hdigit | rfl
    · exact ⟨not_isBlank_of_isDigit hdigit, ne_of_isDigit hdigit (by decide)⟩
    · decide

theorem trim_text : Text.trim p.text = p.text :=
  trim_of_no_blank fun _ hc => (p.plain_of_mem_text hc).1

/-- A text with a point is no integer. -/
theorem readInteger?_text {fraction : FilledRun Char.isDigit} (h : p.fraction? = some fraction) :
    Number.readInteger? p.text = none := by
  have hpoint : '.' ∈ (anyScript p.whole).text ++ pointed (p.fraction?.map anyScript) := by
    simp [h, pointed]
  rw [readInteger?_eq, text_eq_mantissa, readSign_run, Option.bind_eq_none_iff]
  intro digits hdigits
  exact absurd (digit_or_underscore_of_bareDigits? hdigits '.' hpoint) (by decide)

/-- A numeral is read as its number. -/
theorem ofText?_text : Number.ofText? p.text = (some p.number).filter Number.isBounded := by
  rw [number]
  cases h : p.fraction? with
  | none =>
    have htrim : Text.trim p.text = p.integral.text := p.trim_text.trans (p.text_eq_integral h)
    exact ofText?_integral htrim
  | some fraction =>
    have hfilter : (Text.trim p.text).filter (· ≠ '_') = (Sign.ofNegative p.negative).text ++
        ((anyScript p.whole).text ++ pointed (p.fraction?.map anyScript)) := by
      rw [p.trim_text, ← text_eq_mantissa, List.filter_eq_self]
      intro c hc
      simpa using (p.plain_of_mem_text hc).2
    rw [Number.ofText?, p.trim_text, p.readInteger?_text h, ofText?_mantissa hfilter,
      isMinus_ofNegative, h]
    rfl

theorem value?_number : p.number.value? = some p.value := by
  rw [number, value]
  cases p.fraction? with
  | none =>
    simp only [Parlance.value?_number, value_integral, intCast_signed, Option.elim_none, add_zero]
  | some fraction =>
    have hpower : (10 : ℚ) ^ fraction.text.length ≠ 0 := pow_ne_zero _ (by norm_num)
    simp only [Number.value?, scaled, Text.spelled_append, Option.elim_some, part, zpow_neg,
      zpow_natCast]
    push_cast
    congr 2
    field_simp

theorem isBounded_number_of_fraction?_eq_none (h : p.fraction? = none)
    (hbounded : spelled p.whole.text < tenTo Decimal.maxDigits) : p.number.isBounded := by
  rw [number, h]
  simp only [isBounded_number, value_integral, natAbs_signed, hbounded, decide_true]

end Plain

end Rereading

section Writing

/-- Digits of ASCII as a run. -/
def asciiRun (t : Text) (h : ∀ c ∈ t, c.isDigit) (hne : t ≠ []) : FilledRun Char.isDigit :=
  ⟨⟨t, h⟩, hne⟩

theorem isDigit_of_mem_ofNat {n : Nat} : ∀ c ∈ Text.ofNat n, c.isDigit :=
  fun _ => Nat.isDigit_of_mem_toDigits (by decide) (by decide)

theorem isDigit_of_mem_zeros {n : Nat} : ∀ c ∈ Decimal.zeros n, c.isDigit := by
  intro c hc
  rw [List.eq_of_mem_replicate hc]
  decide

theorem ofInt_eq (n : Int) : Text.ofInt n = Decimal.sign (n < 0) ++ Text.ofNat n.natAbs := by
  cases n with
  | ofNat n => rfl
  | negSucc n =>
    rw [decide_eq_true (Int.negSucc_lt_zero n)]
    rfl

theorem exists_plain_integer {n : Int} (h : Number.isBoundedInt n) :
    ∃ p : Plain, Text.ofInt n = p.text ∧ p.value = n ∧ p.number.isBounded := by
  let p : Plain := ⟨n < 0, asciiRun _ isDigit_of_mem_ofNat (Text.ofNat_ne_nil n.natAbs), none⟩
  have hspelled : spelled p.whole.text = n.natAbs := Text.spelled_ofNat n.natAbs
  have hbounded : n.natAbs < tenTo Decimal.maxDigits := of_decide_eq_true h
  refine ⟨p, ?_, ?_, ?_⟩
  · rw [ofInt_eq, Plain.text]
    exact congrArg _ (List.append_nil _).symm
  · have hsigned : signed (n < 0) n.natAbs = n := by
      rw [signed]
      by_cases hn : n < 0
      · rw [if_pos (decide_eq_true hn)]
        omega
      · rw [if_neg (by simpa using hn)]
        omega
    rw [Plain.value, hspelled, Option.elim_none, add_zero, ← intCast_signed, hsigned]
  · exact p.isBounded_number_of_fraction?_eq_none rfl (hspelled ▸ hbounded)

variable {coefficient : Nat} {exponent : Int}

theorem digitCount_pos (n : Nat) : 0 < Decimal.digitCount n :=
  List.length_pos_iff.2 (Text.ofNat_ne_nil n)

/-- The digits of a decimal without places, with the zeros that its exponent puts behind it. -/
theorem fixedDigits_of_nonneg (h : 0 ≤ exponent) :
    Decimal.fixedDigits coefficient exponent =
      if coefficient = 0 then ['0']
      else Text.ofNat coefficient ++ Decimal.zeros exponent.toNat := by
  rw [Decimal.fixedDigits]
  by_cases hzero : exponent ≤ 0
  · obtain rfl : exponent = 0 := by omega
    have hpos : 0 < (Text.ofNat coefficient).length := digitCount_pos coefficient
    rw [if_pos (Int.le_refl 0), Decimal.placePoint, if_neg (by omega), if_pos (by omega)]
    split
    · next hcoefficient =>
      rw [hcoefficient]
      rfl
    · simp [Decimal.zeros]
  · rw [if_neg hzero]

theorem fixedDigits_whole (h : 0 ≤ exponent)
    (hbounded : Decimal.adjusted coefficient exponent < Decimal.maxDigits) :
    (∀ c ∈ Decimal.fixedDigits coefficient exponent, c.isDigit) ∧
      Decimal.fixedDigits coefficient exponent ≠ [] ∧
      (Decimal.fixedDigits coefficient exponent).length ≤ Decimal.maxDigits ∧
      spelled (Decimal.fixedDigits coefficient exponent) = coefficient * 10 ^ exponent.toNat := by
  rw [fixedDigits_of_nonneg h]
  split
  · next hzero =>
    rw [hzero, Nat.zero_mul]
    exact ⟨fun c hc => List.mem_singleton.1 hc ▸ rfl, by decide, by decide, rfl⟩
  · have hcount := digitCount_pos coefficient
    rw [Decimal.adjusted] at hbounded
    rw [Decimal.digitCount] at hcount hbounded
    refine ⟨?_, ?_, ?_, ?_⟩
    · intro c hc
      rcases List.mem_append.1 hc with hdigit | hzero
      · exact isDigit_of_mem_ofNat c hdigit
      · exact isDigit_of_mem_zeros c hzero
    · exact List.append_ne_nil_of_left_ne_nil (Text.ofNat_ne_nil coefficient) _
    · rw [List.length_append, Decimal.zeros, List.length_replicate]
      omega
    · rw [Text.spelled_append, Text.spelled_ofNat, Decimal.zeros, Text.spelled_replicate_zero,
        List.length_replicate, Nat.add_zero]

/-- A decimal with places has digits on both sides of the point. -/
theorem exists_fixedDigits_point (coefficient : Nat) (h : exponent < 0) :
    ∃ whole fraction : Text, Decimal.fixedDigits coefficient exponent = whole ++ '.' :: fraction ∧
      (∀ c ∈ whole ++ fraction, c.isDigit) ∧ whole ≠ [] ∧
      (fraction.length : Int) = -exponent ∧ spelled (whole ++ fraction) = coefficient := by
  rw [Decimal.fixedDigits, if_pos (Int.le_of_lt h), Decimal.placePoint]
  split
  · next hplace =>
    refine ⟨['0'], Decimal.zeros _ ++ Text.ofNat coefficient, rfl, ?_, List.cons_ne_nil _ _, ?_, ?_⟩
    · intro c hc
      rcases List.mem_append.1 hc with hzero | hc
      · rw [List.mem_singleton.1 hzero]
        decide
      · rcases List.mem_append.1 hc with hzero | hdigit
        · exact isDigit_of_mem_zeros c hzero
        · exact isDigit_of_mem_ofNat c hdigit
    · rw [List.length_append, Decimal.zeros, List.length_replicate]
      omega
    · rw [List.singleton_append, Text.spelled_cons, Text.spelled_append, Decimal.zeros,
        Text.spelled_replicate_zero, Text.spelled_ofNat, Text.digitValue?_of_ascii (by decide)]
      simp
  · next hplace =>
    rw [if_neg (by omega)]
    refine ⟨_, _, rfl, ?_, ?_, ?_, ?_⟩
    · rw [List.take_append_drop]
      exact isDigit_of_mem_ofNat
    · intro hnil
      rcases List.take_eq_nil_iff.1 hnil with hzero | hnil
      · omega
      · exact Text.ofNat_ne_nil coefficient hnil
    · rw [List.length_drop]
      omega
    · rw [List.take_append_drop, Text.spelled_ofNat]

theorem exists_plain_decimal {negative : Bool}
    (h : (Decimal.finite negative coefficient exponent).isBounded) :
    ∃ p : Plain, (Decimal.finite negative coefficient exponent).fixed = p.text ∧
      p.value = scaled negative 10 coefficient exponent ∧ p.number.isBounded := by
  have hadjusted : (Decimal.adjusted coefficient exponent).natAbs < Decimal.maxDigits :=
    of_decide_eq_true h
  by_cases hexponent : 0 ≤ exponent
  · have hsmall : Decimal.adjusted coefficient exponent < Decimal.maxDigits := by omega
    obtain ⟨hdigits, hne, hlength, hspelled⟩ := fixedDigits_whole hexponent hsmall
    let p : Plain := ⟨negative, asciiRun _ hdigits hne, none⟩
    refine ⟨p, congrArg _ (List.append_nil _).symm, ?_, ?_⟩
    · have hwhole : spelled p.whole.text = coefficient * 10 ^ exponent.toNat := hspelled
      obtain ⟨places, rfl⟩ := Int.eq_ofNat_of_zero_le hexponent
      rw [Plain.value, hwhole, Option.elim_none, add_zero, scaled, Int.toNat_natCast, zpow_natCast]
      push_cast
      rfl
    · apply p.isBounded_number_of_fraction?_eq_none rfl
      exact (Text.spelled_lt _).trans_le (tenTo_le_tenTo hlength)
  · obtain ⟨whole, fraction, htext, hdigits, hne, hlength, hspelled⟩ :=
      exists_fixedDigits_point coefficient (Int.not_le.1 hexponent)
    have hfraction : fraction ≠ [] := by
      rintro rfl
      rw [List.length_nil] at hlength
      omega
    let p : Plain :=
      { negative
        whole := asciiRun whole (fun c hc => hdigits c (List.mem_append_left _ hc)) hne
        fraction? :=
          some (asciiRun fraction (fun c hc => hdigits c (List.mem_append_right _ hc)) hfraction) }
    -- behind a point the digits are read back with all their places
    have hnumber : p.number = .decimal (.finite negative coefficient exponent) := by
      change Number.decimal
        (.finite negative (spelled (whole ++ fraction)) (-(fraction.length : Int))) = _
      rw [hspelled, hlength, neg_neg]
    have hvalue := p.value?_number
    rw [hnumber] at hvalue
    refine ⟨p, ?_, (Option.some.inj hvalue).symm, hnumber ▸ h⟩
    rw [Decimal.fixed, Decimal.write, htext]
    rfl

end Writing

section Length

variable {t : Text} {coefficient : Nat} {exponent : Int}

/-- Writing out a bounded decimal adds at most 4300 characters to its digits. -/
theorem length_fixedDigits_le
    (h : (Decimal.adjusted coefficient exponent).natAbs < Decimal.maxDigits) :
    (Decimal.fixedDigits coefficient exponent).length ≤
      Decimal.digitCount coefficient + Decimal.maxDigits := by
  by_cases hexponent : 0 ≤ exponent
  · have hsmall : Decimal.adjusted coefficient exponent < Decimal.maxDigits := by omega
    obtain ⟨-, -, hlength, -⟩ := fixedDigits_whole hexponent hsmall
    omega
  · have hcount := digitCount_pos coefficient
    have hlarge : 2 < Decimal.maxDigits := by decide
    rw [Decimal.adjusted] at h
    rw [Decimal.fixedDigits, if_pos (by omega), Decimal.placePoint]
    rw [Decimal.digitCount] at *
    split
    · simp only [Decimal.zeros, List.length_append, List.length_cons, List.length_replicate]
      omega
    · rw [if_neg (by omega)]
      simp only [List.length_append, List.length_cons, List.length_take, List.length_drop]
      omega

theorem length_readSign (t : Text) :
    (Decimal.sign (Decimal.readSign t).1).length + (Decimal.readSign t).2.length ≤ t.length := by
  unfold Decimal.readSign
  split
  · simp [Decimal.sign, Nat.add_comm]
  · simp [Decimal.sign]
  · simp [Decimal.sign]

/-- Digits have no fewer places than the number that they spell. -/
theorem digitCount_le_of_digitsValue? {n : Nat} (h : Text.digitsValue? t = some n) :
    Decimal.digitCount n ≤ t.length := by
  obtain ⟨hne, -, rfl⟩ := Text.digitsValue?_eq_some_iff.1 h
  exact (Text.length_ofNat_le_iff _ (List.length_pos_iff.2 hne)).2 (Text.spelled_lt t)

/-- The digits of an integer are no more than its text has, and a minus is one of its characters. -/
theorem length_of_readInteger? {n : Int} (h : Number.readInteger? t = some n) :
    (Text.ofInt n).length ≤ t.length := by
  rw [readInteger?_eq] at h
  obtain ⟨digits, hbare, hread⟩ := Option.bind_eq_some_iff.1 h
  obtain ⟨-, hread⟩ := Option.ite_none_right_eq_some.1 hread
  obtain ⟨k, hk, hn⟩ := Option.bind_eq_some_iff.1 hread
  have hsigned : signed (Decimal.readSign t).1 k = n := Option.some.inj hn
  have habs : n.natAbs = k := hsigned ▸ natAbs_signed _ k
  have hminus : (Decimal.sign (n < 0)).length ≤ (Decimal.sign (Decimal.readSign t).1).length := by
    rw [← hsigned, signed]
    cases (Decimal.readSign t).1 with
    | true => by_cases hk : 0 < k <;> simp [Decimal.sign, hk]
    | false => simp [Decimal.sign]
  have hsign := length_readSign t
  have hdigits := length_bareDigits?_le hbare
  have hcount : (Text.ofNat k).length ≤ digits.length := digitCount_le_of_digitsValue? hk
  rw [ofInt_eq, List.length_append, habs]
  omega

theorem length_trim_le (t : Text) : (Text.trim t).length ≤ t.length := by
  have hstart : (Text.trimStart t).length ≤ t.length := (List.dropWhile_sublist _).length_le
  have hend (u : Text) : (Text.trimEnd u).length ≤ u.length := by
    rw [Text.trimEnd, List.length_reverse]
    exact ((List.dropWhile_sublist _).length_le).trans_eq List.length_reverse
  exact (hend _).trans hstart

theorem length_of_readCoefficient (h : Decimal.readCoefficient t = some (coefficient, exponent)) :
    Decimal.digitCount coefficient ≤ t.length := by
  rw [Decimal.readCoefficient, List.span_eq_takeWhile_dropWhile] at h
  obtain ⟨n, hn, hpair⟩ := Option.map_eq_some_iff.1 h
  obtain ⟨rfl, -⟩ := Prod.mk.inj hpair
  have hcount := digitCount_le_of_digitsValue? hn
  have hwhole := congrArg List.length (List.takeWhile_append_dropWhile (p := (· ≠ '.')) (l := t))
  rw [List.length_append] at hcount hwhole
  rw [List.length_drop] at hcount
  omega

theorem length_of_readFinite {negative minus : Bool}
    (h : Decimal.readFinite minus t = some (.finite negative coefficient exponent)) :
    negative = minus ∧ Decimal.digitCount coefficient ≤ t.length := by
  rw [Decimal.readFinite, List.span_eq_takeWhile_dropWhile] at h
  obtain ⟨⟨c, e⟩, hcoefficient, hread⟩ := Option.bind_eq_some_iff.1 h
  have hsame : negative = minus ∧ coefficient = c := by
    dsimp only at hread
    split at hread
    · obtain ⟨rfl, rfl, -⟩ := Decimal.finite.inj (Option.some.inj hread)
      exact ⟨rfl, rfl⟩
    · obtain ⟨shift, -, hfinite⟩ := Option.bind_eq_some_iff.1 hread
      obtain ⟨rfl, rfl, -⟩ := Decimal.finite.inj (Option.some.inj hfinite)
      exact ⟨rfl, rfl⟩
  obtain ⟨rfl, rfl⟩ := hsame
  exact ⟨rfl, (length_of_readCoefficient hcoefficient).trans (List.takeWhile_sublist _).length_le⟩

/-- No word is read as a finite number. -/
theorem readSpecial_ne_finite (minus negative : Bool) (t : Text) :
    Decimal.readSpecial minus t ≠ some (.finite negative coefficient exponent) := by
  rw [Decimal.readSpecial]
  split
  · simp
  · simp
  · split <;> simp

/-- The coefficient of a decimal has no more digits than its text has, and a minus is one of its
characters. -/
theorem length_of_ofText? {negative : Bool}
    (h : Decimal.ofText? t = some (.finite negative coefficient exponent)) :
    (Decimal.sign negative).length + Decimal.digitCount coefficient ≤ t.length := by
  let bare := (Text.trim t).filter (· ≠ '_')
  have hbare : bare.length ≤ t.length := (List.length_filter_le _ _).trans (length_trim_le t)
  have hsign := length_readSign bare
  have hread : (Decimal.readSpecial (Decimal.readSign bare).1 (Decimal.readSign bare).2).or
      (Decimal.readFinite (Decimal.readSign bare).1 (Decimal.readSign bare).2) =
      some (.finite negative coefficient exponent) := h
  rcases Option.or_eq_some_iff.1 hread with hspecial | ⟨-, hfinite⟩
  · exact absurd hspecial (readSpecial_ne_finite _ _ _)
  · obtain ⟨rfl, hcount⟩ := length_of_readFinite hfinite
    omega

end Length

section Numbers

variable {n : Number} {t : Text}

/-- Every usable number that is no double is written as a numeral of its value, and the number of
the numeral is usable too. -/
theorem exists_plain (hbounded : n.isBounded) (hexact : ∀ x, n ≠ .double x) :
    ∃ p : Plain, n.text = .ok p.text ∧ n.value? = some p.value ∧ p.number.isBounded := by
  cases n with
  | integer n =>
    have hn : Number.isBoundedInt n := hbounded
    obtain ⟨p, htext, hvalue, hp⟩ := exists_plain_integer hn
    refine ⟨p, ?_, ?_, hp⟩
    · rw [Number.text, Number.integerText_eq_ok hn, htext]
    · rw [Number.value?, hvalue]
  | double x => exact absurd rfl (hexact x)
  | decimal d =>
    cases d with
    | infinite negative => cases hbounded
    | nan negative signaling payload => cases hbounded
    | finite negative coefficient exponent =>
      obtain ⟨p, htext, hvalue, hp⟩ := exists_plain_decimal hbounded
      refine ⟨p, ?_, ?_, hp⟩
      · rw [Number.text, htext]
      · rw [Number.value?, hvalue]

/-- The number that a text spells is written with at most 4300 characters more. -/
theorem length_text_le {written : Text} (h : Number.ofText? t = some n)
    (hwritten : n.text = .ok written) : written.length ≤ t.length + Decimal.maxDigits := by
  obtain ⟨hread, hbounded⟩ := Option.filter_eq_some_iff.1 h
  split at hread
  · next k hk =>
    obtain rfl := Option.some.inj hread
    have hlength := (length_of_readInteger? hk).trans (length_trim_le t)
    have hk : Number.isBoundedInt k := hbounded
    rw [Number.text, Number.integerText_eq_ok hk] at hwritten
    rw [← Except.ok.inj hwritten]
    omega
  · obtain ⟨d, hd, rfl⟩ := Option.map_eq_some_iff.1 hread
    obtain rfl := Except.ok.inj hwritten
    cases d with
    | infinite negative => cases hbounded
    | nan negative signaling payload => cases hbounded
    | finite negative coefficient exponent =>
      have hlength := length_of_ofText? hd
      have hfixed := length_fixedDigits_le (of_decide_eq_true hbounded)
      rw [Decimal.fixed, Decimal.write, List.length_append]
      omega

/-- Texts are read as integers and decimals only. -/
theorem ofText?_ne_double (t : Text) (x : Double) : Number.ofText? t ≠ some (.double x) := by
  intro h
  obtain ⟨hread, -⟩ := Option.filter_eq_some_iff.1 h
  split at hread
  · cases hread
  · obtain ⟨d, -, hd⟩ := Option.map_eq_some_iff.1 hread
    cases hd

end Numbers

/-- A usable number of an integer, a decimal or a text is written without an exponent, and what is
written denotes the number exactly and is read back as a number of the same value. What is written
for the number in a text has at most 4301 characters more than the text. -/
theorem text_of_number? {v : Value} {n : Number} (hexact : ∀ x, v ≠ .double x)
    (h : v.number? = some n) :
    ∃ p : Plain, n.text = .ok p.text ∧ n.value? = some p.value ∧
      (∃ m, (Value.text p.text).number? = some m ∧ m.value? = n.value?) ∧
      ∀ t, v = .text t → p.text.length ≤ t.length + 4301 := by
  have hn : ∀ x, n ≠ .double x := by
    rintro x rfl
    cases v with
    | text t => exact ofText?_ne_double t x h
    | integer k =>
      rw [Value.number?, Option.filter_eq_some_iff] at h
      cases h.1
    | double y => exact hexact y rfl
    | decimal d =>
      rw [Value.number?, Option.filter_eq_some_iff] at h
      cases h.1
    | _ => cases h
  obtain ⟨p, htext, hvalue, hp⟩ := exists_plain (Value.isBounded_of_number? h) hn
  have hreread : (Value.text p.text).number? = some p.number := by
    rw [Value.number?, p.ofText?_text, Option.filter_some, if_pos hp]
  refine ⟨p, htext, hvalue, ⟨p.number, hreread, p.value?_number.trans hvalue.symm⟩, ?_⟩
  rintro t rfl
  exact (length_text_le h htext).trans (Nat.add_le_add_left (by decide) t.length)

/-- A short text with an exponent is written out. -/
theorem text_of_number?_exponent :
    (Value.text "-15E-1").number? = some (.decimal (.finite true 15 (-1))) ∧
      ∃ p : Plain, (Number.decimal (.finite true 15 (-1))).text = .ok p.text ∧
        p.text = "-1.5" ∧ p.value = -3 / 2 ∧ p.text.length ≤ 6 + 4301 := by
  have hread : (Value.text "-15E-1").number? = some (.decimal (.finite true 15 (-1))) := by decide
  obtain ⟨p, htext, hvalue, -, hlength⟩ := text_of_number? (fun _ => by simp) hread
  refine ⟨hread, p, htext, ?_, ?_, hlength _ rfl⟩
  · exact (Except.ok.inj htext).symm.trans (by decide)
  · rw [← Option.some.inj hvalue, scaled]
    norm_num

end Parlance
