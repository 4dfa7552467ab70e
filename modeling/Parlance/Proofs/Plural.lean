import Parlance.Plural
import Parlance.Proofs.Number.Value
import Parlance.Proofs.Text.Digits
/-!
Categories hang on the value of a number alone (categories_eq): a count has its own category if it
is zero, one or two, a rank goes by its last digits if it is an integer. What is read of the digits
of a decimal agrees with arithmetic on its value for every exponent (lastTwoDigits_eq): cutting
digits off is a division by a power of ten, and the digits cut off spell the remainder.
-/

namespace Parlance.Plural

namespace Category

/-- The category of a counted value. -/
def ofCount (value : ℚ) : Category :=
  if value = 0 then .zero
  else if value = 1 then .one
  else if value = 2 then .two
  else .other

/-- The category of the rank with a number. -/
def ofWhole (n : Nat) : Category :=
  if 11 ≤ n % 100 ∧ n % 100 ≤ 13 then .other
  else if n % 10 = 1 then .one
  else if n % 10 = 2 then .two
  else if n % 10 = 3 then .few
  else .other

/-- The category of a rank with a value; only an integer has one of its own. -/
def ofRank (value : ℚ) : Category :=
  if value.isInt then ofWhole value.num.natAbs else .other

end Category

section Digits

variable {coefficient : Nat} {exponent : Int}

theorem spellLastTwo_eq (digits : Text) : spellLastTwo digits = Text.spelled digits % 100 := by
  rcases List.eq_nil_or_concat digits with rfl | ⟨front, ones, rfl⟩
  · rfl
  · have hones := Text.digitValue?_getD_lt ones
    rcases List.eq_nil_or_concat front with rfl | ⟨front, tens, rfl⟩
    · simp [spellLastTwo, Text.spelled]
      omega
    · have htens := Text.digitValue?_getD_lt tens
      simp [spellLastTwo, Text.spelled]
      omega

/-- Cutting off the last digits divides by a power of ten, and they spell the remainder. -/
theorem spelled_split (digits : Text) (places : Nat) :
    Text.spelled (digits.take (digits.length - places)) = Text.spelled digits / 10 ^ places ∧
      Text.spelled (digits.drop (digits.length - places)) = Text.spelled digits % 10 ^ places := by
  have happend := Text.spelled_append (digits.take (digits.length - places))
    (digits.drop (digits.length - places))
  rw [List.take_append_drop] at happend
  have hlt := Text.spelled_lt (digits.drop (digits.length - places))
  suffices h : 10 ^ places * Text.spelled (digits.take (digits.length - places)) +
      Text.spelled (digits.drop (digits.length - places)) = Text.spelled digits ∧
      Text.spelled (digits.drop (digits.length - places)) < 10 ^ places by
    obtain ⟨hquotient, hremainder⟩ := (Nat.div_mod_unique (Nat.pow_pos (by decide))).2
      ⟨(Nat.add_comm _ _).trans h.1, h.2⟩
    exact ⟨hquotient.symm, hremainder.symm⟩
  rcases Nat.le_total places digits.length with hle | hle
  · have hlength : (digits.drop (digits.length - places)).length = places := by
      rw [List.length_drop]
      omega
    rw [hlength] at happend hlt
    exact ⟨by rw [happend, Nat.mul_comm], hlt⟩
  · -- all digits are cut off
    rw [Nat.sub_eq_zero_of_le hle, List.drop_zero] at *
    exact ⟨by simp [Text.spelled], hlt.trans_le (Nat.pow_le_pow_right (by decide) hle)⟩

theorem spelled_eq_zero_iff {digits : Text} (h : ∀ c ∈ digits, c.isDigit) :
    Text.spelled digits = 0 ↔ ∀ c ∈ digits, c = '0' := by
  induction digits with
  | nil => simp [Text.spelled]
  | cons c digits ih =>
    obtain ⟨hc, hdigits⟩ := List.forall_mem_cons.1 h
    have hzero : c.toNat - '0'.toNat = 0 ↔ c = '0' := by
      have hge : 48 ≤ c.toNat := by
        simp only [Char.isDigit, ge_iff_le, Bool.and_eq_true, decide_eq_true_eq,
          UInt32.le_iff_toNat_le] at hc
        exact hc.1
      rw [← Char.toNat_inj]
      change c.toNat - 48 = 0 ↔ c.toNat = 48
      omega
    rw [Text.spelled_cons, Text.digitValue?_of_ascii hc, Option.getD_some, Nat.add_eq_zero_iff,
      Nat.mul_eq_zero, or_iff_left (Nat.pow_pos (by decide)).ne', hzero, ih hdigits,
      List.forall_mem_cons]

/-- Behind the point stand zeros alone exactly if the power of ten divides the coefficient. -/
theorem any_cut_iff (coefficient places : Nat) :
    ((Text.ofNat coefficient).drop ((Text.ofNat coefficient).length - places)).any (· ≠ '0') ↔
      coefficient % 10 ^ places ≠ 0 := by
  have hdigits : ∀ c ∈ (Text.ofNat coefficient).drop
      ((Text.ofNat coefficient).length - places), c.isDigit := fun c hc =>
    Nat.isDigit_of_mem_toDigits (by decide) (by decide) (List.mem_of_mem_drop hc)
  have hzero := spelled_eq_zero_iff hdigits
  rw [(spelled_split _ _).2, Text.spelled_ofNat] at hzero
  rw [Ne, hzero]
  simp

/-- What the digits of a decimal say of its last two digits is what arithmetic says. -/
theorem lastTwoDigits_eq (coefficient : Nat) (exponent : Int) :
    lastTwoDigits coefficient exponent = (whole? 10 coefficient exponent).map (· % 100) := by
  have hvalue := Text.spelled_ofNat coefficient
  rw [lastTwoDigits, whole?]
  split
  · next h =>
    -- the power is a multiple of a hundred
    obtain ⟨places, hplaces⟩ : ∃ places, exponent.toNat = places + 2 :=
      ⟨exponent.toNat - 2, by omega⟩
    rw [if_pos (by omega), hplaces, Option.map_some, pow_add, ← Nat.mul_assoc]
    exact congrArg some (Nat.mul_mod_left _ _).symm
  · split
    · next h =>
      rw [if_pos (by omega), spellLastTwo_eq, Text.spelled_append, hvalue, Decimal.zeros,
        Text.spelled_replicate_zero, List.length_replicate]
      rfl
    · split
      · next h =>
        have hcut := any_cut_iff coefficient (-exponent).toNat
        rw [if_neg (Int.not_le.2 h)]
        simp only [spellLastTwo_eq, (spelled_split _ _).1, hvalue]
        by_cases hwhole : coefficient % 10 ^ (-exponent).toNat = 0
        · rw [if_pos hwhole, if_neg (mt hcut.1 (not_not_intro hwhole))]
          rfl
        · rw [if_neg hwhole, if_pos (hcut.2 hwhole)]
          rfl
      · next h =>
        obtain rfl : exponent = 0 := by omega
        simp [spellLastTwo_eq, hvalue]

/-- Where a decimal is whole, a look at the coefficient tells whether it is above two. -/
theorem atMostTwo_eq {n : Nat} (h : whole? 10 coefficient exponent = some n)
    (hne : coefficient ≠ 0) : atMostTwo coefficient exponent = decide (n ≤ 2) := by
  rcases multiple_of_whole? h with ⟨hexponent, rfl⟩ | ⟨hexponent, rfl⟩
  · rw [atMostTwo, if_pos hexponent]
    obtain ⟨places, rfl⟩ := Int.eq_ofNat_of_zero_le hexponent
    cases places with
    | zero => simp
    | succ places =>
      -- one zero behind a digit is too much already
      have hten : 10 ≤ 10 ^ (places + 1) := Nat.le_self_pow (Nat.succ_ne_zero places) 10
      have hmany : 10 ≤ coefficient * 10 ^ (places + 1) :=
        hten.trans (Nat.le_mul_of_pos_left _ (Nat.pos_of_ne_zero hne))
      have hexponent : ¬((places + 1 : Nat) : Int) = 0 := by omega
      rw [Int.toNat_natCast, decide_eq_false hexponent, Bool.false_and, eq_comm,
        decide_eq_false_iff_not]
      omega
  · rw [atMostTwo, if_neg (by omega)]
    exact decide_eq_decide.2 (Nat.mul_le_mul_right_iff (Nat.pow_pos (by decide)))

theorem isSmall_decimal {negative : Bool} {n : Nat} (h : whole? 10 coefficient exponent = some n) :
    isSmall (.decimal (.finite negative coefficient exponent)) =
      decide (0 ≤ signed negative n ∧ signed negative n ≤ 2) := by
  have hzero : coefficient = 0 ↔ n = 0 := coefficient_eq_zero_iff (by decide) h
  rw [isSmall]
  by_cases hne : coefficient = 0
  · rw [hzero.1 hne, decide_eq_true hne, Bool.true_or]
    cases negative <;> rfl
  · have hpos : n ≠ 0 := mt hzero.2 hne
    rw [atMostTwo_eq h hne, decide_eq_false hne, Bool.false_or]
    cases negative
    · simp [signed]
    · simp only [signed, Bool.not_true, Bool.false_and, if_true]
      exact (decide_eq_false (by omega)).symm

end Digits

section Numbers

variable {n : Number}

theorem wholeRemainder_eq (n : Number) : wholeRemainder n = n.toInt?.map (·.natAbs % 100) := by
  match n with
  | .integer n => rfl
  | .double x => rfl
  | .decimal (.finite negative coefficient exponent) =>
    have habs (n : Nat) : (signed negative n).natAbs = n := by cases negative <;> simp [signed]
    rw [wholeRemainder, lastTwoDigits_eq, Number.toInt?, Option.map_map]
    exact congrArg (Option.map · _) (funext fun n => congrArg (· % 100) (habs n).symm)
  | .decimal (.infinite _) | .decimal (.nan ..) => rfl

theorem isSmall_eq {k : Int} (h : n.toInt? = some k) : isSmall n = decide (0 ≤ k ∧ k ≤ 2) := by
  match n with
  | .integer n =>
    rw [← Option.some.inj h, isSmall, Bool.decide_and]
  | .double x =>
    have hx : x.toInt? = some k := h
    rw [isSmall, hx, Bool.decide_and]
  | .decimal (.finite negative coefficient exponent) =>
    obtain ⟨magnitude, hwhole, rfl⟩ := Option.map_eq_some_iff.1 h
    exact isSmall_decimal hwhole
  | .decimal (.infinite _) | .decimal (.nan ..) => cases h

theorem ofCount_intCast (k : Int) :
    Category.ofCount k =
      if k = 0 then .zero else if k = 1 then .one else if k = 2 then .two else .other := by
  rw [Category.ofCount]
  norm_cast

theorem ofRank_intCast (k : Int) : Category.ofRank k = Category.ofWhole k.natAbs := rfl

/-- A value that is no integer has no category of its own. -/
theorem elim_of_toInt?_eq_none (h : n.toInt? = none) :
    n.value?.elim .other Category.ofCount = .other ∧
      n.value?.elim .other Category.ofRank = .other := by
  cases hvalue : n.value? with
  | none => exact ⟨rfl, rfl⟩
  | some v =>
    have hne (k : Int) : v ≠ k := by
      rintro rfl
      rw [Number.toInt?_eq_some_iff.2 hvalue] at h
      cases h
    have hisInt : v.isInt = false := by
      rw [← Bool.not_eq_true]
      exact fun hint => hne v.num (Rat.eq_num_of_isInt hint)
    constructor
    · have h0 : v ≠ 0 := by simpa using hne 0
      have h1 : v ≠ 1 := by simpa using hne 1
      have h2 : v ≠ 2 := by simpa using hne 2
      rw [Option.elim_some, Category.ofCount, if_neg h0, if_neg h1, if_neg h2]
    · rw [Option.elim_some, Category.ofRank, hisInt, if_neg Bool.false_ne_true]

theorem cardinal_eq (n : Number) : cardinal n = n.value?.elim .other Category.ofCount := by
  rw [cardinal, wholeRemainder_eq]
  cases hk : n.toInt? with
  | none => exact (elim_of_toInt?_eq_none hk).1.symm
  | some k =>
    rw [Number.toInt?_eq_some_iff.1 hk, Option.elim_some, ofCount_intCast, Option.map_some]
    simp only [isSmall_eq hk]
    by_cases hsmall : 0 ≤ k ∧ k ≤ 2
    · obtain rfl | rfl | rfl : k = 0 ∨ k = 1 ∨ k = 2 := by omega
      · rfl
      · rfl
      · rfl
    · rw [if_neg (by omega : k ≠ 0), if_neg (by omega : k ≠ 1), if_neg (by omega : k ≠ 2),
        if_pos (by simp [hsmall])]

theorem ordinal_eq (n : Number) : ordinal n = n.value?.elim .other Category.ofRank := by
  rw [ordinal, wholeRemainder_eq]
  cases hk : n.toInt? with
  | none => exact (elim_of_toInt?_eq_none hk).2.symm
  | some k =>
    have hlast : k.natAbs % 100 % 10 = k.natAbs % 10 := by omega
    rw [Number.toInt?_eq_some_iff.1 hk, Option.elim_some, ofRank_intCast, Category.ofWhole,
      Option.map_some]
    simp only [hlast]

end Numbers

/-- The categories of a number hang on its value alone, however it is represented: a count is zero,
one or two exactly if its value is, and a rank that is an integer goes by the last two digits of its
magnitude and then by the last one. Numbers without a value have no category of their own. -/
theorem categories_eq (n : Number) :
    cardinal n = n.value?.elim .other Category.ofCount ∧
    ordinal n = n.value?.elim .other Category.ofRank ∧
    ∀ m : Number, m.value? = n.value? → cardinal m = cardinal n ∧ ordinal m = ordinal n := by
  refine ⟨cardinal_eq n, ordinal_eq n, fun m hvalue => ?_⟩
  rw [cardinal_eq, cardinal_eq, ordinal_eq, ordinal_eq, hvalue]
  exact ⟨rfl, rfl⟩

/-- Two with zeros behind the point, a thousand and twelve with a power, and two and a half. -/
example :
    cardinal (.decimal (.finite false 200 (-2))) = .two ∧
      ordinal (.decimal (.finite true 1012 0)) = .other ∧
      cardinal (.decimal (.finite false 25 (-1))) = .other := by
  decide

end Parlance.Plural
