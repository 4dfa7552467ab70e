import Mathlib.Data.List.TakeDrop
import Parlance.Proofs.Number.Value
import Parlance.Proofs.Text.Digits
import Parlance.Proofs.Text.Names
import Parlance.Proofs.Text.Run
import Parlance.Value
/-!
Numerals and the numbers that they are read as. An integer is usable exactly if it has at most 4300
digits, leading zeros not counted, whichever of two readers takes its text (number?_integral): the
reader of integers refuses longer texts, and the reader of decimals takes those, where the bound on
the leading digit is the same bound.
-/

namespace Parlance

open Text (FilledRun isDigit spelled)

/-- What may stand in front of a number. -/
inductive Sign where
  | none
  | plus
  | minus

namespace Sign

def text : Sign → Text
  | none => []
  | plus => ['+']
  | minus => ['-']

def isMinus : Sign → Bool
  | minus => true
  | _ => false

theorem eq_of_mem_text {sign : Sign} {c : Char} (h : c ∈ sign.text) : c = '+' ∨ c = '-' := by
  cases sign with
  | none => exact absurd h List.not_mem_nil
  | plus => exact Or.inl (List.mem_singleton.1 h)
  | minus => exact Or.inr (List.mem_singleton.1 h)

end Sign

/-- An integer as it may be written: digits of any script, with single underscores between runs of
them. -/
structure Integral where
  sign : Sign
  first : FilledRun isDigit
  /-- The runs that follow, each behind an underscore. -/
  more : List (FilledRun isDigit)

namespace Integral

def digits (i : Integral) : Text := i.first.text ++ i.more.flatMap (·.text)

def text (i : Integral) : Text := i.sign.text ++ (i.first.text ++ i.more.flatMap ('_' :: ·.text))

def value (i : Integral) : Int := signed i.sign.isMinus (spelled i.digits)

end Integral

section Characters

variable {c : Char} {t : Text}

theorem not_isBlank_of_isDigit (h : isDigit c) : Text.isBlank c = false :=
  Text.not_isBlank_of_isWord (Text.isWord_of_isDigit h)

theorem ne_of_isDigit {d : Char} (h : isDigit c) (hd : isDigit d = false) : c ≠ d := by
  rintro rfl
  rw [h] at hd
  contradiction

theorem toLower_of_isDigit (h : isDigit c) : c.toLower = c := by
  have hcapital : ∀ n < 91, 65 ≤ n → isDigit (Char.ofNat n) = false := by decide
  have hrange : ¬(c.val ≥ 'A'.val ∧ c.val ≤ 'Z'.val) := by
    rintro ⟨hlow, hhigh⟩
    rw [ge_iff_le, UInt32.le_iff_toNat_le] at hlow
    rw [UInt32.le_iff_toNat_le] at hhigh
    have hnone := hcapital c.toNat (Nat.lt_succ_of_le hhigh) hlow
    rw [Char.ofNat_toNat, h] at hnone
    contradiction
  exact dif_neg hrange

theorem dropWhile_of_no_blank (h : ∀ c ∈ t, Text.isBlank c = false) :
    t.dropWhile Text.isBlank = t :=
  List.dropWhile_eq_self_iff.2 fun hpos => by simp [h _ (List.getElem_mem hpos)]

theorem trim_of_no_blank (h : ∀ c ∈ t, Text.isBlank c = false) : Text.trim t = t := by
  have hreverse : ∀ c ∈ t.reverse, Text.isBlank c = false := fun c hc => h c (List.mem_reverse.1 hc)
  rw [Text.trim, Text.trimStart, dropWhile_of_no_blank h, Text.trimEnd,
    dropWhile_of_no_blank hreverse, List.reverse_reverse]

end Characters

section Signs

variable {c : Char} {t : Text}

/-- The sign is taken off in front of a digit. -/
theorem readSign_append (sign : Sign) (h : isDigit c) :
    Decimal.readSign (sign.text ++ c :: t) = (sign.isMinus, c :: t) := by
  cases sign with
  | plus => rfl
  | minus => rfl
  | none =>
    have hminus : c ≠ '-' := ne_of_isDigit h (by decide)
    have hplus : c ≠ '+' := ne_of_isDigit h (by decide)
    simp [Sign.text, Sign.isMinus, Decimal.readSign, hminus, hplus]

theorem readSign_run (sign : Sign) (run : FilledRun isDigit) (t : Text) :
    Decimal.readSign (sign.text ++ (run.text ++ t)) = (sign.isMinus, run.text ++ t) := by
  obtain ⟨⟨_ | ⟨c, text⟩, hall⟩, hne⟩ := run
  · exact absurd rfl hne
  · exact readSign_append sign (hall c List.mem_cons_self)

end Signs

section BareDigits

variable {c : Char} {t : Text}

theorem bareDigits?_cons {d : Char} (hc : isDigit c) (hd : isDigit d) :
    Number.bareDigits? (c :: d :: t) = (Number.bareDigits? (d :: t)).map (c :: ·) := by
  have hunderscore : d ≠ '_' := ne_of_isDigit hd (by decide)
  rw [Number.bareDigits?, if_pos hc]
  · exact List.cons_ne_nil d t
  · intro rest h
    exact hunderscore (List.cons.inj h).1

/-- A run of digits is kept, whatever its last digit is followed by. -/
theorem bareDigits?_append (run : FilledRun isDigit) (rest? : Option Text)
    (h : ∀ c, isDigit c → Number.bareDigits? (c :: t) = rest?.map (c :: ·)) :
    Number.bareDigits? (run.text ++ t) = rest?.map (run.text ++ ·) := by
  obtain ⟨⟨text, hall⟩, hne⟩ := run
  change Number.bareDigits? (text ++ t) = rest?.map (text ++ ·)
  change ∀ c ∈ text, isDigit c at hall
  induction text with
  | nil => exact absurd rfl hne
  | cons c text ih =>
    have hc : isDigit c := hall c List.mem_cons_self
    cases text with
    | nil => exact h c hc
    | cons d text =>
      have hd : isDigit d := hall d (List.mem_cons_of_mem c List.mem_cons_self)
      rw [List.cons_append, List.cons_append, bareDigits?_cons hc hd, ← List.cons_append,
        ih (fun e he => hall e (List.mem_cons_of_mem c he)) (List.cons_ne_nil d text),
        Option.map_map]
      rfl

/-- Single underscores between runs of digits are passed over. -/
theorem bareDigits?_runs (first : FilledRun isDigit) (more : List (FilledRun isDigit)) :
    Number.bareDigits? (first.text ++ more.flatMap ('_' :: ·.text)) =
      some (first.text ++ more.flatMap (·.text)) := by
  induction more generalizing first with
  | nil =>
    apply bareDigits?_append first (some [])
    intro c hc
    rw [List.flatMap_nil, Number.bareDigits?, if_pos hc]
    rfl
  | cons second more ih =>
    rw [List.flatMap_cons, List.flatMap_cons, List.cons_append]
    apply bareDigits?_append first (some (second.text ++ more.flatMap (·.text)))
    intro c hc
    rw [Number.bareDigits?, if_pos hc, ih]

/-- Nothing but digits and underscores is read as an integer. -/
theorem digit_or_underscore_of_bareDigits? {digits : Text}
    (h : Number.bareDigits? t = some digits) : ∀ c ∈ t, isDigit c ∨ c = '_' := by
  fun_induction Number.bareDigits? t generalizing digits with
  | case1 => cases h
  | case2 c hc => simp [hc]
  | case3 => cases h
  | case4 c rest hc ih =>
    obtain ⟨bare, hbare, -⟩ := Option.map_eq_some_iff.1 h
    simpa [hc] using ih hbare
  | case5 => cases h
  | case6 c rest _ _ hc ih =>
    obtain ⟨bare, hbare, -⟩ := Option.map_eq_some_iff.1 h
    simpa [hc] using ih hbare
  | case7 => cases h

theorem length_bareDigits?_le {digits : Text} (h : Number.bareDigits? t = some digits) :
    digits.length ≤ t.length := by
  fun_induction Number.bareDigits? t generalizing digits with
  | case1 => cases h
  | case2 c hc => simp_all
  | case3 => cases h
  | case4 c rest hc ih =>
    obtain ⟨bare, hbare, rfl⟩ := Option.map_eq_some_iff.1 h
    have := ih hbare
    simp only [List.length_cons]
    omega
  | case5 => cases h
  | case6 c rest _ _ hc ih =>
    obtain ⟨bare, hbare, rfl⟩ := Option.map_eq_some_iff.1 h
    have := ih hbare
    simp only [List.length_cons]
    omega
  | case7 => cases h

end BareDigits

section Integers

namespace Integral

variable (i : Integral)

theorem isDigit_of_mem_digits {c : Char} (h : c ∈ i.digits) : isDigit c := by
  rw [digits, List.mem_append, List.mem_flatMap] at h
  rcases h with hfirst | ⟨run, -, hrun⟩
  · exact i.first.all c hfirst
  · exact run.all c hrun

theorem digits_ne_nil : i.digits ≠ [] :=
  List.append_ne_nil_of_left_ne_nil i.first.text_ne_nil _

theorem digitsValue?_digits : Text.digitsValue? i.digits = some (spelled i.digits) :=
  Text.digitsValue?_eq_some_iff.2 ⟨i.digits_ne_nil, fun _ => i.isDigit_of_mem_digits, rfl⟩

/-- Underscores aside, an integer is its sign and its digits. -/
theorem filter_text : i.text.filter (· ≠ '_') = i.sign.text ++ i.digits := by
  have hrun (run : FilledRun isDigit) : run.text.filter (· ≠ '_') = run.text := by
    apply List.filter_eq_self.2
    intro c hc
    have hne : c ≠ '_' := ne_of_isDigit (run.all c hc) (by decide)
    simpa using hne
  have hsign : i.sign.text.filter (· ≠ '_') = i.sign.text := by cases i.sign <;> rfl
  rw [text, digits, List.filter_append, List.filter_append, hsign, hrun, List.filter_flatMap]
  congr 3
  funext run
  exact hrun run

end Integral

theorem readInteger?_eq (t : Text) :
    Number.readInteger? t =
      (Number.bareDigits? (Decimal.readSign t).2).bind fun digits =>
        if digits.length ≤ Decimal.maxDigits then
          (Text.digitsValue? digits).bind fun n => some (signed (Decimal.readSign t).1 n)
        else none :=
  rfl

theorem readInteger?_text (i : Integral) :
    Number.readInteger? i.text =
      if i.digits.length ≤ Decimal.maxDigits then some i.value else none := by
  have hbare : Number.bareDigits? (i.first.text ++ i.more.flatMap ('_' :: ·.text)) =
      some i.digits := bareDigits?_runs i.first i.more
  rw [readInteger?_eq, Integral.text, readSign_run, hbare, Option.bind_some, i.digitsValue?_digits,
    Option.bind_some, Integral.value]

end Integers

section Decimals

variable {s t : Text} {run : FilledRun isDigit}

/-- A text that begins with a digit names no infinity and no non-number. -/
theorem readSpecial_eq_none (negative : Bool) (run : FilledRun isDigit) (t : Text) :
    Decimal.readSpecial negative (run.text ++ t) = none := by
  obtain ⟨⟨_ | ⟨c, text⟩, hall⟩, hne⟩ := run
  · exact absurd rfl hne
  · have hc : isDigit c := hall c List.mem_cons_self
    have hn : c ≠ 'n' := ne_of_isDigit hc (by decide)
    have hs : c ≠ 's' := ne_of_isDigit hc (by decide)
    have hi : c ≠ 'i' := ne_of_isDigit hc (by decide)
    simp [Decimal.readSpecial, Text.toLower, toLower_of_isDigit hc, hn, hs, hi]

/-- A point and the digits behind it, or nothing. -/
def pointed (fraction? : Option (FilledRun isDigit)) : Text := fraction?.elim [] ('.' :: ·.text)

def fractionDigits (fraction? : Option (FilledRun isDigit)) : Text := fraction?.elim [] (·.text)

variable {fraction? : Option (FilledRun isDigit)}

theorem isDigit_of_mem_fractionDigits {c : Char} (h : c ∈ fractionDigits fraction?) :
    isDigit c := by
  cases fraction? with
  | none => cases h
  | some fraction => exact fraction.all c h

theorem drop_pointed : (pointed fraction?).drop 1 = fractionDigits fraction? := by
  cases fraction? <;> rfl

theorem ends_pointed : Text.Ends (· ≠ '.') (pointed fraction?) := by
  cases fraction? with
  | none => exact Text.ends_nil
  | some fraction => exact Text.ends_cons.2 (by decide)

/-- The characters of a mantissa are digits and points. -/
theorem mem_mantissa {c : Char} (h : c ∈ run.text ++ pointed fraction?) : isDigit c ∨ c = '.' := by
  rcases List.mem_append.1 h with hrun | hpoint
  · exact .inl (run.all c hrun)
  · cases fraction? with
    | none => cases hpoint
    | some fraction =>
      rcases List.mem_cons.1 hpoint with rfl | hdigit
      · exact .inr rfl
      · exact .inl (fraction.all c hdigit)

theorem readCoefficient_mantissa (run : FilledRun isDigit)
    (fraction? : Option (FilledRun isDigit)) :
    Decimal.readCoefficient (run.text ++ pointed fraction?) =
      some (spelled (run.text ++ fractionDigits fraction?),
        -((fractionDigits fraction?).length : Int)) := by
  have hrun : ∀ c ∈ run.text, c ≠ '.' := fun c hc => ne_of_isDigit (run.all c hc) (by decide)
  have hspan : (run.text ++ pointed fraction?).span (· ≠ '.') = (run.text, pointed fraction?) := by
    rw [List.span_eq_takeWhile_dropWhile]
    let whole : Text.Run (· ≠ '.') := ⟨run.text, fun c hc => by simpa using hrun c hc⟩
    exact Prod.ext (whole.takeWhile_append ends_pointed) (whole.dropWhile_append ends_pointed)
  have hvalue : Text.digitsValue? (run.text ++ fractionDigits fraction?) =
      some (spelled (run.text ++ fractionDigits fraction?)) := by
    refine Text.digitsValue?_eq_some_iff.2 ⟨?_, ?_, rfl⟩
    · exact List.append_ne_nil_of_left_ne_nil run.text_ne_nil _
    · intro c hc
      rcases List.mem_append.1 hc with hwhole | hfraction
      · exact run.all c hwhole
      · exact isDigit_of_mem_fractionDigits hfraction
  simp only [Decimal.readCoefficient, hspan, drop_pointed, hvalue, Option.map_some]

/-- Digits with or without a point are read as a decimal with so many places. -/
theorem readFinite_mantissa (negative : Bool) (run : FilledRun isDigit)
    (fraction? : Option (FilledRun isDigit)) :
    Decimal.readFinite negative (run.text ++ pointed fraction?) =
      some (.finite negative (spelled (run.text ++ fractionDigits fraction?))
        (-((fractionDigits fraction?).length : Int))) := by
  have hletter : ∀ c ∈ run.text ++ pointed fraction?, c ≠ 'e' ∧ c ≠ 'E' := by
    intro c hc
    rcases mem_mantissa hc with hdigit | rfl
    · exact ⟨ne_of_isDigit hdigit (by decide), ne_of_isDigit hdigit (by decide)⟩
    · decide
  have hspan : (run.text ++ pointed fraction?).span (fun c => c ≠ 'e' && c ≠ 'E') =
      (run.text ++ pointed fraction?, []) := by
    rw [List.span_eq_takeWhile_dropWhile, List.takeWhile_eq_self_iff.2, List.dropWhile_eq_nil_iff.2]
    · intro c hc; simpa using hletter c hc
    · intro c hc; simpa using hletter c hc
  simp only [Decimal.readFinite, hspan, readCoefficient_mantissa, Option.bind_eq_bind,
    Option.bind_some, Option.pure_def, Int.add_zero]

/-- Underscores and blanks aside, a sign and a mantissa are read as a decimal. -/
theorem ofText?_mantissa {sign : Sign}
    (h : (Text.trim s).filter (· ≠ '_') = sign.text ++ (run.text ++ pointed fraction?)) :
    Decimal.ofText? s =
      some (.finite sign.isMinus (spelled (run.text ++ fractionDigits fraction?))
        (-((fractionDigits fraction?).length : Int))) := by
  rw [Decimal.ofText?, h, readSign_run]
  simp only [readSpecial_eq_none, readFinite_mantissa, Option.none_or]

end Decimals

/-- The digits of an integer as one run. -/
def Integral.run (i : Integral) : FilledRun isDigit :=
  ⟨⟨i.digits, fun _ => i.isDigit_of_mem_digits⟩, i.digits_ne_nil⟩

theorem Integral.ofText? {i : Integral} {s : Text} (h : Text.trim s = i.text) :
    Decimal.ofText? s = some (.finite i.sign.isMinus (spelled i.digits) 0) := by
  have hdigits : (Text.trim s).filter (· ≠ '_') = i.sign.text ++ (i.run.text ++ pointed none) := by
    rw [h, i.filter_text]
    exact congrArg _ (List.append_nil i.digits).symm
  rw [ofText?_mantissa hdigits]
  simp [fractionDigits, run]

/-- No blank stands in an integer. -/
theorem trim_text (i : Integral) : Text.trim i.text = i.text := by
  apply trim_of_no_blank
  intro c hc
  have hrun (run : FilledRun isDigit) (hc : c ∈ run.text) : Text.isBlank c = false :=
    not_isBlank_of_isDigit (run.all c hc)
  rw [Integral.text, List.mem_append, List.mem_append, List.mem_flatMap] at hc
  rcases hc with hsign | hfirst | ⟨run, -, hmore⟩
  · rcases Sign.eq_of_mem_text hsign with rfl | rfl <;> rfl
  · exact hrun i.first hfirst
  · rcases List.mem_cons.1 hmore with rfl | hdigit
    · decide
    · exact hrun run hdigit

section Values

variable {i : Integral} {s : Text}

theorem natAbs_signed (negative : Bool) (n : Nat) : (signed negative n).natAbs = n := by
  cases negative <;> simp [signed]

/-- The number that an integral text is read as, whichever reader takes it. -/
def Integral.number (i : Integral) : Number :=
  if i.digits.length ≤ Decimal.maxDigits then .integer i.value
  else .decimal (.finite i.sign.isMinus (spelled i.digits) 0)

theorem ofText?_integral (h : Text.trim s = i.text) :
    Number.ofText? s = (some i.number).filter Number.isBounded := by
  rw [Number.ofText?, h, readInteger?_text, i.ofText? h, Integral.number]
  by_cases hlength : i.digits.length ≤ Decimal.maxDigits
  · simp only [if_pos hlength]
  · simp only [if_neg hlength, Option.map_some]

theorem value?_number (i : Integral) : i.number.value? = some (i.value : ℚ) := by
  rw [Integral.number]
  split
  · rfl
  · rw [Number.value?, scaled, Integral.value, intCast_signed]
    simp

theorem digitCount_le_iff (n : Nat) :
    Decimal.digitCount n ≤ Decimal.maxDigits ↔ n < tenTo Decimal.maxDigits :=
  Text.length_ofNat_le_iff n (by decide)

/-- A decimal without places is bounded exactly if it would be as an integer. -/
theorem isBounded_whole (negative : Bool) (n : Nat) :
    (Decimal.finite negative n 0).isBounded = decide (n < tenTo Decimal.maxDigits) := by
  have hadjusted : (Decimal.adjusted n 0).natAbs = Decimal.digitCount n - 1 := by
    rw [Decimal.adjusted]
    omega
  have hpos : 0 < Decimal.maxDigits := by decide
  rw [Decimal.isBounded, hadjusted, decide_eq_decide, ← digitCount_le_iff]
  omega

theorem isBounded_number (i : Integral) :
    i.number.isBounded = decide (i.value.natAbs < tenTo Decimal.maxDigits) := by
  have hvalue : i.value.natAbs = spelled i.digits := natAbs_signed i.sign.isMinus _
  rw [Integral.number]
  split
  · rfl
  · rw [hvalue]
    exact isBounded_whole i.sign.isMinus (spelled i.digits)

end Values

theorem abs_lt_pow_iff (k : Int) (places : Nat) : |k| < 10 ^ places ↔ k.natAbs < tenTo places := by
  rw [Int.abs_eq_natAbs, tenTo]
  norm_cast

/-- A text that spells an integer, blanks around it aside, is usable exactly if the integer has at
most 4300 digits, leading zeros not counted, and then it is read as this integer. A text of more
digits is none for the reader of integers and goes to that of decimals. -/
theorem number?_integral {i : Integral} {s : Text} (h : Text.trim s = i.text) :
    ((Value.text s).number?.isSome ↔ |i.value| < 10 ^ Decimal.maxDigits) ∧
    ∀ n, (Value.text s).number? = some n → n.value? = some (i.value : ℚ) := by
  have hread : (Value.text s).number? = (some i.number).filter Number.isBounded :=
    ofText?_integral h
  rw [hread, Option.filter_some, isBounded_number, abs_lt_pow_iff, ← value?_number]
  by_cases hbounded : i.value.natAbs < tenTo Decimal.maxDigits
  · rw [decide_eq_true hbounded, if_pos rfl]
    refine ⟨iff_of_true rfl hbounded, fun n hn => ?_⟩
    rw [Option.some.inj hn]
  · rw [decide_eq_false hbounded, if_neg Bool.false_ne_true]
    refine ⟨iff_of_false Bool.false_ne_true hbounded, fun n hn => ?_⟩
    cases hn

/-- Minus seven behind more zeros than an integer may have digits. -/
def zerosSeven : Integral where
  sign := .minus
  first := ⟨⟨List.replicate 5000 '0', fun c hc => by rw [List.eq_of_mem_replicate hc]; decide⟩,
    mt (List.replicate_eq_nil_iff '0').1 (by decide)⟩
  more := [⟨⟨['7'], fun c hc => by rw [List.mem_singleton.1 hc]; decide⟩, List.cons_ne_nil _ _⟩]

theorem number?_zerosSeven :
    Text.trim zerosSeven.text = zerosSeven.text ∧
      ∃ n, (Value.text zerosSeven.text).number? = some n ∧ n.value? = some (-7 : ℚ) := by
  have hvalue : zerosSeven.value = -7 := by
    rw [Integral.value, Integral.digits, Text.spelled_append]
    simp only [zerosSeven, Text.spelled_replicate_zero]
    decide
  have hsmall : |zerosSeven.value| < 10 ^ Decimal.maxDigits := by
    rw [hvalue]
    calc |(-7 : Int)| < 10 ^ 1 := by decide
      _ ≤ 10 ^ Decimal.maxDigits := pow_le_pow_right₀ (by decide) (by decide)
  obtain ⟨husable, hread⟩ := number?_integral (trim_text zerosSeven)
  obtain ⟨n, hn⟩ := Option.isSome_iff_exists.1 (husable.2 hsmall)
  refine ⟨trim_text zerosSeven, n, hn, ?_⟩
  rw [hread n hn, hvalue]
  norm_num

end Parlance
