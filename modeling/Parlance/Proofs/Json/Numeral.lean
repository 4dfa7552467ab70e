import Parlance.Json.Reading
import Parlance.Proofs.Number.Reading
/-!
Numbers in documents: digits without superfluous zeros, perhaps after a minus sign, and perhaps
followed by a fraction and an exponent. A number is read as far as it goes (readNumber_append), and
what is read is a number (exists_of_readNumber). Of all numbers only an integer with too many digits
is not read (readNumber_eq_oversized_iff).
-/

namespace Parlance.Json

open Text (Ends FilledRun)

/-- Digits of ASCII. -/
abbrev Digits : Type := FilledRun Char.isDigit

/-- A point and digits, or nothing. -/
def fractionText : Option Digits → Text
  | none => []
  | some digits => '.' :: digits.text

/-- A power of ten behind the letter e. -/
structure Exponent where
  letter : Char
  isLetter : letter = 'e' ∨ letter = 'E'
  sign : Sign
  digits : Digits

def exponentText : Option Exponent → Text
  | none => []
  | some e => e.letter :: (e.sign.text ++ e.digits.text)

/-- A number as it is written. -/
structure Numeral where
  negative : Bool
  whole : Digits
  zero_alone : whole.text.head? = some '0' → whole.text = ['0']
  fraction? : Option Digits
  exponent? : Option Exponent

namespace Numeral

def sign (n : Numeral) : Text := if n.negative then ['-'] else []

def fraction (n : Numeral) : Text := fractionText n.fraction?

def exponent (n : Numeral) : Text := exponentText n.exponent?

def text (n : Numeral) : Text := n.sign ++ (n.whole.text ++ (n.fraction ++ n.exponent))

def isInteger (n : Numeral) : Bool := n.fraction?.isNone && n.exponent?.isNone

/-- The value of a number, of which the spelling is kept if it is not written as an integer. -/
def json (n : Numeral) : Json :=
  if n.isInteger then .integer (signed n.negative (Text.spelled n.whole.text)) else .real n.text

/-- An integer with more digits than an integer may have. -/
def isOversized (n : Numeral) : Bool := n.isInteger && digitLimit < n.whole.text.length

end Numeral

/-- No number before the text goes on in it. -/
structure EndsNumber (t : Text) : Prop where
  no_digit : Ends Char.isDigit t
  no_fraction : ∀ digits, ¬fractionText (some digits) <+: t
  no_exponent : ∀ e, ¬exponentText (some e) <+: t

section Parts

variable {t rest : Text}

theorem digitsOf_append (digits : Digits) (h : Ends Char.isDigit rest) :
    digitsOf (digits.text ++ rest) = digits.text :=
  digits.toRun.takeWhile_append h

/-- The digits at the head, if there are any. -/
theorem exists_digits (h : (digitsOf t).isEmpty = false) :
    ∃ (digits : Digits) (rest : Text), digitsOf t = digits.text ∧ t = digits.text ++ rest :=
  ⟨⟨Text.Run.leading _ t, List.isEmpty_eq_false_iff.1 h⟩, t.dropWhile Char.isDigit, rfl,
    (Text.Run.leading_append _ t).symm⟩

theorem isEmpty_digitsOf_of_prefix {digits : Digits} (h : digits.text <+: t) :
    (digitsOf t).isEmpty = false := by
  obtain ⟨rest, rfl⟩ := h
  rw [List.isEmpty_eq_false_iff, digitsOf, List.takeWhile_append_of_pos digits.all]
  exact List.append_ne_nil_of_left_ne_nil digits.text_ne_nil _

theorem ends_of_digitsOf (h : digitsOf t = []) : Ends Char.isDigit t := by
  cases t with
  | nil => exact Text.ends_nil
  | cons c t =>
    rw [digitsOf, List.takeWhile_cons] at h
    split at h
    · cases h
    · next hc => exact Text.ends_cons.2 (by simpa using hc)

theorem fractionOf_append (digits : Digits) (h : Ends Char.isDigit rest) :
    fractionOf (fractionText (some digits) ++ rest) = fractionText (some digits) := by
  have hempty : (digitsOf (digits.text ++ rest)).isEmpty = false :=
    isEmpty_digitsOf_of_prefix (List.prefix_append _ _)
  rw [fractionText, List.cons_append, fractionOf, if_pos ⟨rfl, hempty⟩, digitsOf_append digits h]

theorem exists_fraction (t : Text) :
    ∃ (fraction? : Option Digits) (rest : Text),
      fractionOf t = fractionText fraction? ∧ t = fractionText fraction? ++ rest := by
  cases t with
  | nil => exact ⟨none, [], rfl, rfl⟩
  | cons c t =>
    rw [fractionOf]
    split
    · next h =>
      obtain ⟨digits, rest, hdigits, ht⟩ := exists_digits h.2
      refine ⟨some digits, rest, ?_, ?_⟩
      · rw [fractionText, h.1, hdigits]
      · rw [fractionText, h.1, ht, List.cons_append]
    · exact ⟨none, c :: t, rfl, rfl⟩

theorem fractionOf_eq_nil_iff :
    fractionOf t = [] ↔ ∀ digits, ¬fractionText (some digits) <+: t := by
  constructor
  · intro h digits hprefix
    obtain ⟨rest, rfl⟩ := hprefix
    have hempty : (digitsOf (digits.text ++ rest)).isEmpty = false :=
      isEmpty_digitsOf_of_prefix (List.prefix_append _ _)
    rw [fractionText, List.cons_append, fractionOf, if_pos ⟨rfl, hempty⟩] at h
    cases h
  · intro h
    obtain ⟨fraction?, rest, hfraction, ht⟩ := exists_fraction t
    cases fraction? with
    | none => exact hfraction
    | some digits => exact absurd ⟨rest, ht.symm⟩ (h digits)

/-- In front of digits stands no sign. -/
theorem signOf_digits {signs : Text} (hsigns : signs.all (!·.isDigit)) (digits : Digits)
    (rest : Text) : signOf signs (digits.text ++ rest) = [] := by
  obtain ⟨⟨_ | ⟨c, text⟩, hall⟩, hne⟩ := digits
  · exact absurd rfl hne
  · rw [List.cons_append, signOf, if_neg]
    intro hc
    have hnone := List.all_eq_true.1 hsigns c (by simpa using hc)
    rw [hall c List.mem_cons_self] at hnone
    contradiction

theorem signOf_append (sign : Sign) (digits : Digits) (rest : Text) :
    signOf ['+', '-'] (sign.text ++ (digits.text ++ rest)) = sign.text := by
  cases sign with
  | plus => rfl
  | minus => rfl
  | none => exact signOf_digits rfl digits rest

theorem exists_sign (t : Text) :
    ∃ (sign : Sign) (rest : Text), signOf ['+', '-'] t = sign.text ∧ t = sign.text ++ rest := by
  cases t with
  | nil => exact ⟨.none, [], rfl, rfl⟩
  | cons c t =>
    by_cases hplus : c = '+'
    · exact ⟨.plus, t, by rw [hplus]; rfl, by rw [hplus]; rfl⟩
    · by_cases hminus : c = '-'
      · exact ⟨.minus, t, by rw [hminus]; rfl, by rw [hminus]; rfl⟩
      · exact ⟨.none, c :: t, by simp [signOf, hplus, hminus, Sign.text], rfl⟩

/-- What is taken for an exponent, if its sign and digits are known. -/
theorem exponentOf_eq (letter : Char) (sign : Sign) {digits : Text}
    (hsign : signOf ['+', '-'] (sign.text ++ rest) = sign.text) (hdigits : digitsOf rest = digits) :
    exponentOf (letter :: (sign.text ++ rest)) =
      if (letter = 'e' ∨ letter = 'E') ∧ digits.isEmpty = false then
        letter :: (sign.text ++ digits)
      else [] := by
  simp only [exponentOf, hsign, List.drop_left, hdigits, List.cons_append]

theorem exponentOf_append (e : Exponent) (h : Ends Char.isDigit rest) :
    exponentOf (exponentText (some e) ++ rest) = exponentText (some e) := by
  have hempty : e.digits.text.isEmpty = false := List.isEmpty_eq_false_iff.2 e.digits.text_ne_nil
  rw [exponentText, List.cons_append, List.append_assoc,
    exponentOf_eq e.letter e.sign (signOf_append e.sign e.digits rest) (digitsOf_append e.digits h),
    if_pos ⟨e.isLetter, hempty⟩]

theorem exists_exponent (t : Text) :
    ∃ (exponent? : Option Exponent) (rest : Text),
      exponentOf t = exponentText exponent? ∧ t = exponentText exponent? ++ rest := by
  cases t with
  | nil => exact ⟨none, [], rfl, rfl⟩
  | cons letter t =>
    obtain ⟨sign, after, hsign, rfl⟩ := exists_sign t
    rw [exponentOf_eq letter sign hsign rfl]
    split
    · next h =>
      obtain ⟨hletter, hdigits⟩ := h
      obtain ⟨digits, rest, hdigits, rfl⟩ := exists_digits hdigits
      refine ⟨some ⟨letter, hletter, sign, digits⟩, rest, ?_, ?_⟩
      · rw [exponentText, hdigits]
      · rw [exponentText, List.cons_append, List.append_assoc]
    · exact ⟨none, _, rfl, rfl⟩

theorem exponentOf_eq_nil_iff :
    exponentOf t = [] ↔ ∀ e, ¬exponentText (some e) <+: t := by
  constructor
  · intro h e hprefix
    obtain ⟨rest, rfl⟩ := hprefix
    have hempty : (digitsOf (e.digits.text ++ rest)).isEmpty = false :=
      isEmpty_digitsOf_of_prefix (List.prefix_append _ _)
    rw [exponentText, List.cons_append, List.append_assoc,
      exponentOf_eq e.letter e.sign (signOf_append e.sign e.digits rest) rfl,
      if_pos ⟨e.isLetter, hempty⟩] at h
    cases h
  · intro h
    obtain ⟨exponent?, rest, hexponent, ht⟩ := exists_exponent t
    cases exponent? with
    | none => exact hexponent
    | some e => exact absurd ⟨rest, ht.symm⟩ (h e)

/-- The digits before the point, if there are any. -/
theorem wholeOf_cases (t : Text) :
    wholeOf t = [] ∨ ∃ (whole : Digits) (rest : Text), wholeOf t = whole.text ∧
      t = whole.text ++ rest ∧ (whole.text.head? = some '0' → whole.text = ['0']) := by
  cases t with
  | nil => exact Or.inl rfl
  | cons c t =>
    rw [wholeOf]
    split
    · next h =>
      refine Or.inr ⟨⟨⟨['0'], by simp⟩, List.cons_ne_nil _ _⟩, t, ?_, ?_, fun _ => rfl⟩
      · rw [h]
      · rw [h, List.singleton_append]
    · next h =>
      cases hempty : (digitsOf (c :: t)).isEmpty with
      | true => exact Or.inl (List.isEmpty_iff.1 hempty)
      | false =>
        obtain ⟨whole, rest, hwhole, ht⟩ := exists_digits hempty
        refine Or.inr ⟨whole, rest, hwhole, ht, fun hzero => absurd ?_ h⟩
        obtain ⟨more, hmore⟩ := List.head?_eq_some_iff.1 hzero
        rw [hmore, List.cons_append] at ht
        exact (List.cons.inj ht).1

end Parts

namespace Numeral

/-- Of the parts of a number and what follows, each part is what is taken for it. -/
structure Taken (n : Numeral) (rest : Text) : Prop where
  whole : wholeOf (n.whole.text ++ (n.fraction ++ (n.exponent ++ rest))) = n.whole.text
  fraction : fractionOf (n.fraction ++ (n.exponent ++ rest)) = n.fraction
  exponent : exponentOf (n.exponent ++ rest) = n.exponent

variable {n : Numeral} {t rest : Text}

theorem digitsValue_eq (digits : Digits) : digitsValue digits.text = Text.spelled digits.text := by
  refine List.foldl_ext _ _ 0 fun k c hc => ?_
  rw [Text.digitValue?_of_ascii (digits.all c hc)]
  rfl

theorem signOf_sign (n : Numeral) (rest : Text) :
    signOf ['-'] (n.sign ++ (n.whole.text ++ rest)) = n.sign := by
  rw [sign]
  cases n.negative with
  | true => rfl
  | false => exact signOf_digits rfl n.whole rest

theorem isEmpty_parts (n : Numeral) : (n.fraction.isEmpty && n.exponent.isEmpty) = n.isInteger := by
  rw [fraction, exponent, isInteger]
  cases n.fraction? <;> cases n.exponent? <;> rfl

theorem isEmpty_sign (n : Numeral) : n.sign.isEmpty = !n.negative := by
  rw [sign]
  cases n.negative <;> rfl

/-- A number that is taken as a whole is read, unless it is oversized. -/
theorem Taken.readNumber_eq (h : n.Taken rest) :
    readNumber (n.text ++ rest) =
      if n.isOversized then .error .oversizedNumeral else .ok (n.json, rest) := by
  have htext : n.text ++ rest =
      n.sign ++ (n.whole.text ++ (n.fraction ++ (n.exponent ++ rest))) := by
    simp only [text, List.append_assoc]
  have hwhole : n.whole.text.isEmpty = false := List.isEmpty_eq_false_iff.2 n.whole.text_ne_nil
  rw [readNumber]
  simp only [htext, signOf_sign, List.drop_left, ← List.drop_drop, h.whole, h.fraction, h.exponent,
    hwhole, isEmpty_parts, isEmpty_sign, digitsValue_eq, Bool.false_eq_true, if_false]
  rw [isOversized, json]
  cases n.isInteger with
  | false => simp [text]
  | true => cases n.negative <;> simp [signed]

theorem ends_exponent (n : Numeral) (h : Ends Char.isDigit rest) :
    Ends Char.isDigit (n.exponent ++ rest) := by
  rw [exponent]
  cases n.exponent? with
  | none => exact h
  | some e =>
    rw [exponentText, List.cons_append, Text.ends_cons]
    rcases e.isLetter with hletter | hletter <;> rw [hletter] <;> rfl

theorem ends_fraction (n : Numeral) (h : Ends Char.isDigit rest) :
    Ends Char.isDigit (n.fraction ++ rest) := by
  rw [fraction]
  cases n.fraction? with
  | none => exact h
  | some digits => exact Text.ends_cons.2 rfl

theorem wholeOf_append_of_ne_zero (hzero : n.whole.text.head? ≠ some '0') (rest : Text) :
    wholeOf (n.whole.text ++ rest) = digitsOf (n.whole.text ++ rest) := by
  obtain ⟨c, digits, hdigits⟩ := List.exists_cons_of_ne_nil n.whole.text_ne_nil
  rw [hdigits] at hzero ⊢
  rw [List.cons_append, wholeOf, if_neg fun hc => hzero (congrArg some hc)]

theorem wholeOf_append (n : Numeral) (h : Ends Char.isDigit rest) :
    wholeOf (n.whole.text ++ rest) = n.whole.text := by
  by_cases hzero : n.whole.text.head? = some '0'
  · rw [n.zero_alone hzero]
    rfl
  · rw [wholeOf_append_of_ne_zero hzero, digitsOf_append n.whole h]

theorem fractionOf_exponent (n : Numeral) (h : EndsNumber rest) :
    fractionOf (n.exponent ++ rest) = [] := by
  rw [exponent]
  cases n.exponent? with
  | none => exact fractionOf_eq_nil_iff.2 h.no_fraction
  | some e =>
    have hpoint : e.letter ≠ '.' := by
      rcases e.isLetter with hletter | hletter <;> rw [hletter] <;> decide
    rw [exponentText, List.cons_append, fractionOf, if_neg fun hc => hpoint hc.1]

/-- A number is taken as a whole where what follows does not go on with it. -/
theorem taken_of_ends (n : Numeral) (h : EndsNumber rest) : n.Taken rest where
  whole := wholeOf_append n (n.ends_fraction (n.ends_exponent h.no_digit))
  fraction := by
    have hends := n.ends_exponent h.no_digit
    have hnone := n.fractionOf_exponent h
    rw [fraction]
    cases n.fraction? with
    | none => exact hnone
    | some digits => exact fractionOf_append digits hends
  exponent := by
    rw [exponent]
    cases n.exponent? with
    | none => exact exponentOf_eq_nil_iff.2 h.no_exponent
    | some e => exact exponentOf_append e h.no_digit

/-- What follows an oversized integer that is taken as a whole does not go on with it. -/
theorem Taken.ends (h : n.Taken rest) (hoversized : n.isOversized) : EndsNumber rest := by
  rw [isOversized, isInteger, Bool.and_eq_true, Bool.and_eq_true, Option.isNone_iff_eq_none,
    Option.isNone_iff_eq_none, decide_eq_true_eq] at hoversized
  obtain ⟨⟨hfraction, hexponent⟩, hlength⟩ := hoversized
  obtain ⟨hwhole, htakenFraction, htakenExponent⟩ := h
  simp only [Numeral.fraction, Numeral.exponent, hfraction, hexponent, fractionText, exponentText,
    List.nil_append] at hwhole htakenFraction htakenExponent
  refine ⟨?_, fractionOf_eq_nil_iff.1 htakenFraction, exponentOf_eq_nil_iff.1 htakenExponent⟩
  have hzero : n.whole.text.head? ≠ some '0' := by
    intro hzero
    rw [n.zero_alone hzero] at hlength
    exact absurd hlength (by decide)
  rw [wholeOf_append_of_ne_zero hzero, digitsOf, List.takeWhile_append_of_pos n.whole.all] at hwhole
  exact ends_of_digitsOf (List.append_right_eq_self.1 hwhole)

theorem exists_sign_eq (t : Text) :
    ∃ (negative : Bool) (rest : Text),
      signOf ['-'] t = (if negative then ['-'] else []) ∧
        t = (if negative then ['-'] else []) ++ rest := by
  cases t with
  | nil => exact ⟨false, [], rfl, rfl⟩
  | cons c t =>
    by_cases hminus : c = '-'
    · exact ⟨true, t, by rw [hminus]; rfl, by rw [hminus]; rfl⟩
    · exact ⟨false, c :: t, by simp [signOf, hminus], rfl⟩

/-- At the head of a text stands a number, or the text is refused. -/
theorem exists_taken (t : Text) :
    readNumber t = .error (.refused .value t) ∨
      ∃ (n : Numeral) (rest : Text), t = n.text ++ rest ∧ n.Taken rest := by
  obtain ⟨negative, after, hsign, ht⟩ := exists_sign_eq t
  rcases wholeOf_cases after with hwhole | ⟨whole, rest, hwhole, rfl, hzero⟩
  · left
    rw [readNumber]
    simp only [hsign]
    rw [ht, List.drop_left]
    simp only [hwhole]
    rfl
  · right
    obtain ⟨fraction?, rest, hfraction, rfl⟩ := exists_fraction rest
    obtain ⟨exponent?, rest, hexponent, rfl⟩ := exists_exponent rest
    refine ⟨⟨negative, whole, hzero, fraction?, exponent?⟩, rest, ?_, hwhole, hfraction, hexponent⟩
    rw [ht]
    simp only [text, sign, fraction, exponent, List.append_assoc]

end Numeral

section Reading

variable {t rest : Text} {j : Json}

/-- A number is read as far as it goes, unless it is oversized. -/
theorem readNumber_append (n : Numeral) (h : EndsNumber rest) :
    readNumber (n.text ++ rest) =
      if n.isOversized then .error .oversizedNumeral else .ok (n.json, rest) :=
  (n.taken_of_ends h).readNumber_eq

/-- What is read is a number. -/
theorem exists_of_readNumber (h : readNumber t = .ok (j, rest)) :
    ∃ n : Numeral, n.json = j ∧ t = n.text ++ rest := by
  rcases Numeral.exists_taken t with hrefused | ⟨n, after, rfl, htaken⟩
  · cases hrefused.symm.trans h
  · have hread := htaken.readNumber_eq.symm.trans h
    split at hread
    · cases hread
    · cases hread
      exact ⟨n, rfl, rfl⟩

/-- A text that is not read as a number is refused, or it is an oversized number. -/
theorem readNumber_eq_error {e : ReadError} (h : readNumber t = .error e) :
    (∃ problem place, e = .refused problem place) ∨ e = .oversizedNumeral := by
  rcases Numeral.exists_taken t with hrefused | ⟨n, rest, rfl, htaken⟩
  · cases hrefused.symm.trans h
    exact Or.inl ⟨_, _, rfl⟩
  · have hread := htaken.readNumber_eq.symm.trans h
    split at hread
    · cases hread
      exact Or.inr rfl
    · cases hread

/-- A number that is too long is at the head of a text, and nothing goes on with it. -/
theorem readNumber_eq_oversized_iff :
    readNumber t = .error .oversizedNumeral ↔
      ∃ (n : Numeral) (rest : Text), n.isOversized ∧ EndsNumber rest ∧ t = n.text ++ rest := by
  constructor
  · intro h
    rcases Numeral.exists_taken t with hrefused | ⟨n, rest, rfl, htaken⟩
    · cases hrefused.symm.trans h
    · have hread := htaken.readNumber_eq.symm.trans h
      split at hread
      · next hoversized => exact ⟨n, rest, hoversized, htaken.ends hoversized, rfl⟩
      · cases hread
  · rintro ⟨n, rest, hoversized, hends, rfl⟩
    rw [readNumber_append n hends, if_pos hoversized]

end Reading

end Parlance.Json
