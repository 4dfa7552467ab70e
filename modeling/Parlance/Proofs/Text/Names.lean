import Mathlib.Data.List.Chain
import Parlance.Placeholder.Kind
import Parlance.Proofs.Text.Numeral
/-!
The characters of names. Digits of every script, and the letters, digits and underscores that
identifiers consist of, are word characters. No digit of any script begins an identifier, so no
name by position is one (not_isIdentifier_of_isPositional).
-/

namespace Parlance

/-- In a table whose ranges rise a search does not stop before the range of the character. -/
theorem RangeTable.contains_of_mem {table : RangeTable}
    (hrising : (table.map Prod.fst).Pairwise (· ≤ ·)) {low high n : Nat}
    (hmem : (low, high) ∈ table) (hlow : low ≤ n) (hhigh : n ≤ high) : table.contains n := by
  induction table with
  | nil => exact absurd hmem List.not_mem_nil
  | cons range rest ih =>
    obtain ⟨first, last⟩ := range
    rw [List.map_cons, List.pairwise_cons] at hrising
    rcases List.mem_cons.1 hmem with hhead | htail
    · obtain ⟨rfl, rfl⟩ := Prod.mk.inj hhead
      simp [contains, hhigh, Nat.not_lt.2 hlow]
    · have hbefore : first ≤ low := hrising.1 _ (List.mem_map_of_mem htail)
      simp [contains, Nat.not_lt.2 (Nat.le_trans hbefore hlow), ih hrising.2 htail]

namespace Text

theorem numericRanges_rising : (numericRanges.map Prod.fst).Pairwise (· ≤ ·) := by
  rw [← List.isChain_iff_pairwise]
  decide +kernel

/-- Every script has its ten digits side by side among the numeric characters. -/
theorem exists_range_of_zero : ∀ first ∈ digitZeros, ∃ range ∈ numericRanges,
    range.1 ≤ first ∧ first + 9 ≤ range.2 := by
  decide +kernel

theorem isWord_of_isDigit {c : Char} (h : isDigit c) : isWord c := by
  obtain ⟨value, hvalue⟩ := Option.isSome_iff_exists.1 h
  obtain ⟨first, hfirst, hdigit⟩ := List.exists_of_findSome?_eq_some hvalue
  rw [Option.ite_none_right_eq_some] at hdigit
  obtain ⟨range, hrange, hlow, hhigh⟩ := exists_range_of_zero first hfirst
  have hnumeric : isNumeric c :=
    RangeTable.contains_of_mem numericRanges_rising hrange (by omega) (by omega)
  simp [isWord, hnumeric]

/-- The digits of all scripts but one come after ASCII. -/
theorem zero_or_le_of_mem_digitZeros : ∀ first ∈ digitZeros, first = 48 ∨ 128 ≤ first := by
  decide

theorem toNat_of_isDigit {c : Char} (h : isDigit c) : c.toNat ≤ 57 ∨ 128 ≤ c.toNat := by
  obtain ⟨value, hvalue⟩ := Option.isSome_iff_exists.1 h
  obtain ⟨first, hfirst, hdigit⟩ := List.exists_of_findSome?_eq_some hvalue
  rw [Option.ite_none_right_eq_some] at hdigit
  have := zero_or_le_of_mem_digitZeros first hfirst
  omega

/-- The letters of ASCII. -/
theorem toNat_of_isAlpha {c : Char} (h : c.isAlpha) :
    (65 ≤ c.toNat ∧ c.toNat ≤ 90) ∨ (97 ≤ c.toNat ∧ c.toNat ≤ 122) := by
  have hcase : c.isUpper ∨ c.isLower := (Bool.or_eq_true _ _).mp h
  rcases hcase with hcapital | hsmall
  · exact .inl (of_decide_eq_true hcapital)
  · change (decide ('a'.val ≤ c.val) && decide (c.val ≤ 'z'.val)) = true at hsmall
    rw [Bool.and_eq_true, decide_eq_true_eq, decide_eq_true_eq] at hsmall
    exact .inr hsmall

theorem isLetter_of_isAlpha {c : Char} (h : c.isAlpha) : isLetter c := by
  -- the letters of ASCII are the first two ranges
  rw [isLetter, letterRanges, RangeTable.contains, RangeTable.contains]
  rcases toNat_of_isAlpha h with hrange | hrange
  · rw [if_neg (by omega), decide_eq_true hrange.2, Bool.true_or]
  · rw [if_neg (by omega), if_neg (by omega), decide_eq_true hrange.2, Bool.true_or, Bool.or_true]

end Text

namespace Placeholder

theorem isWord_of_isNameStart {c : Char} (h : isNameStart c) : Text.isWord c := by
  rw [isNameStart, Bool.or_eq_true] at h
  rcases h with halpha | hunderscore
  · simp [Text.isWord, Text.isLetter_of_isAlpha halpha]
  · simp [Text.isWord, hunderscore]

theorem toNat_of_isNameStart {c : Char} (h : isNameStart c) : 57 < c.toNat ∧ c.toNat < 128 := by
  rw [isNameStart, Bool.or_eq_true, beq_iff_eq] at h
  rcases h with halpha | rfl
  · have := Text.toNat_of_isAlpha halpha
    omega
  · decide

theorem not_isIdentifier_of_isPositional {name : Text} (h : Token.isPositional name) :
    ¬isIdentifier name := by
  cases name with
  | nil => exact Bool.false_ne_true
  | cons first rest =>
    intro hidentifier
    simp only [Token.isPositional, List.all_cons, Bool.and_eq_true] at h
    rw [isIdentifier, Bool.and_eq_true] at hidentifier
    have hdigit := Text.toNat_of_isDigit h.2.1
    have hstart := toNat_of_isNameStart hidentifier.1
    omega

/-- Names by position consist of word characters. -/
theorem all_isWord_of_isPositional {name : Text} (h : Token.isPositional name) :
    name ≠ [] ∧ name.all Text.isWord := by
  simp only [Token.isPositional, Bool.and_eq_true, List.all_eq_true, Bool.not_eq_true',
    List.isEmpty_eq_false_iff] at h ⊢
  exact ⟨h.1, fun c hc => Text.isWord_of_isDigit (h.2 c hc)⟩

theorem all_isWord_of_isIdentifier {name : Text} (h : isIdentifier name) :
    name ≠ [] ∧ name.all Text.isWord := by
  cases name with
  | nil => cases h
  | cons first rest =>
    simp only [isIdentifier, Bool.and_eq_true, Bool.or_eq_true, List.all_eq_true] at h
    refine ⟨List.cons_ne_nil _ _, List.all_eq_true.2 ?_⟩
    intro c hc
    rcases List.mem_cons.1 hc with rfl | hc
    · exact isWord_of_isNameStart h.1
    · rcases h.2 c hc with hstart | hdigit
      · exact isWord_of_isNameStart hstart
      · exact Text.isWord_of_isDigit (Text.isDigit_of_ascii hdigit)

end Placeholder

end Parlance
