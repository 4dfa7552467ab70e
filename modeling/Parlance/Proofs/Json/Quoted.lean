import Parlance.Json.Quoted
/-!
Quoted texts are read back (readQuoted_quoted). Writing gives every character either itself or an
escape that stands for it alone, so reading goes on character by character.
-/

namespace Parlance.Json

section Characters

variable {opening after rest : Text} {c : Char} {d : Letter}

theorem readCharacters_quote : readCharacters opening ('"' :: rest) = .ok ([], rest) := by
  rw [readCharacters, if_pos rfl]

theorem readCharacters_escape (h : readEscape opening rest = .ok (d, after)) :
    readCharacters opening ('\\' :: rest) =
      (readCharacters opening after).map fun (s, after) => (d :: s, after) := by
  rw [readCharacters, if_neg (by decide), if_pos rfl]
  split
  · next e herror =>
    rw [h] at herror
    cases herror
  · next d' after' hread =>
    rw [h] at hread
    cases hread
    rfl

theorem readCharacters_plain (hquote : c ≠ '"') (hslash : c ≠ '\\') (hcode : ¬c.toNat < 0x20) :
    readCharacters opening (c :: rest) =
      (readCharacters opening rest).map fun (s, after) => (.character c :: s, after) := by
  rw [readCharacters, if_neg hquote, if_neg hslash, if_neg hcode]

/-- The four digits of a control character are its code. -/
theorem hexadecimal_control : ∀ n < 0x20,
    Text.Quoted.hexadecimal 4 (Char.ofNat n) =
      ['0', '0', Nat.digitChar (n / 16), Nat.digitChar (n % 16)] ∧
    hexValue? (Nat.digitChar (n / 16)) = some (n / 16) ∧
    hexValue? (Nat.digitChar (n % 16)) = some (n % 16) := by
  decide

theorem readNumbered_hexadecimal (hc : c.toNat < 0x20) (hrest : rest ≠ []) :
    readNumbered (Text.Quoted.hexadecimal 4 c ++ rest) = .ok (.character c, rest) := by
  obtain ⟨hdigits, hhigh, hlow⟩ := hexadecimal_control c.toNat hc
  rw [Char.ofNat_toNat] at hdigits
  have hread : readHex? (Text.Quoted.hexadecimal 4 c ++ rest) = some (c.toNat, rest) := by
    have hzero : hexValue? '0' = some 0 := by decide
    have hsum : 4096 * 0 + 256 * 0 + 16 * (c.toNat / 16) + c.toNat % 16 = c.toNat := by omega
    have hempty : rest.isEmpty = false := by simpa using hrest
    simp only [hdigits, List.cons_append, List.nil_append, readHex?, hempty, hzero, hhigh, hlow,
      Option.bind_eq_bind, Option.bind_some, Option.pure_def, hsum]
    rfl
  have hhigh : isHighHalf c.toNat = false := by
    simp only [isHighHalf, Bool.and_eq_false_iff, decide_eq_false_iff_not]
    omega
  have hlow : isLowHalf c.toNat = false := by
    simp only [isLowHalf, Bool.and_eq_false_iff, decide_eq_false_iff_not]
    omega
  have hletter : letterOf c.toNat = .character c := by
    rw [letterOf, dif_neg (by simp [hhigh, hlow]), Char.ofNat_toNat]
  rw [readNumbered, hread]
  simp only [hhigh, Bool.false_eq_true, if_false, hletter]

/-- A character is escaped by a letter or by its code, or it stands for itself. -/
theorem escape_cases (c : Char) :
    (∃ letter, escape c = ['\\', letter] ∧ letter ≠ 'u' ∧ unescape? letter = some c) ∨
    (escape c = '\\' :: 'u' :: Text.Quoted.hexadecimal 4 c ∧ c.toNat < 0x20) ∨
    (escape c = [c] ∧ c ≠ '"' ∧ c ≠ '\\' ∧ ¬c.toNat < 0x20) := by
  by_cases hletter : c ∈ ['"', '\\', '\n', '\r', '\t', '\x0c', '\x08']
  · left
    simp only [List.mem_cons, List.not_mem_nil, or_false] at hletter
    rcases hletter with rfl | rfl | rfl | rfl | rfl | rfl | rfl
    · exact ⟨'"', by decide⟩
    · exact ⟨'\\', by decide⟩
    · exact ⟨'n', by decide⟩
    · exact ⟨'r', by decide⟩
    · exact ⟨'t', by decide⟩
    · exact ⟨'f', by decide⟩
    · exact ⟨'b', by decide⟩
  · right
    simp only [List.mem_cons, List.not_mem_nil, or_false, not_or] at hletter
    obtain ⟨hquote, hslash, hfeed, hreturn, htab, hpage, hback⟩ := hletter
    rw [escape, if_neg hquote, if_neg hslash, if_neg hfeed, if_neg hreturn, if_neg htab,
      if_neg hpage, if_neg hback]
    by_cases hcode : c.toNat < 0x20
    · exact Or.inl ⟨if_pos hcode, hcode⟩
    · exact Or.inr ⟨if_neg hcode, hquote, hslash, hcode⟩

/-- What is written for a character is read as that character, unless the text ends there. -/
theorem readCharacters_escape_append (hrest : rest ≠ []) :
    readCharacters opening (escape c ++ rest) =
      (readCharacters opening rest).map fun (s, after) => (.character c :: s, after) := by
  rcases escape_cases c with ⟨letter, hescape, hu, hletter⟩ | ⟨hescape, hcode⟩ |
    ⟨hescape, hquote, hslash, hcode⟩
  · rw [hescape, List.cons_append, List.singleton_append]
    apply readCharacters_escape
    rw [readEscape, if_neg hu, hletter]
  · rw [hescape, List.cons_append, List.cons_append]
    apply readCharacters_escape
    rw [readEscape, if_pos rfl]
    exact readNumbered_hexadecimal hcode hrest
  · rw [hescape]
    exact readCharacters_plain hquote hslash hcode

end Characters

theorem readCharacters_flatMap (opening t rest : Text) :
    readCharacters opening (t.flatMap escape ++ '"' :: rest) = .ok (.ofText t, rest) := by
  induction t with
  | nil => exact readCharacters_quote
  | cons c t ih =>
    have hrest : t.flatMap escape ++ '"' :: rest ≠ [] := by simp
    rw [List.flatMap_cons, List.append_assoc, readCharacters_escape_append hrest, ih]
    rfl

theorem quoted_append (t rest : Text) :
    quoted t ++ rest = '"' :: (t.flatMap escape ++ '"' :: rest) := by
  rw [quoted, List.append_assoc]
  rfl

/-- A quoted text is read back, whatever follows it. -/
theorem readQuoted_quoted (t rest : Text) :
    readQuoted (quoted t ++ rest) = .ok (.ofText t, rest) := by
  rw [quoted_append, readQuoted, if_pos rfl, readCharacters_flatMap]

/-- The control characters do not stand in a quoted text. -/
theorem code_of_mem_escape {c d : Char} (h : d ∈ escape c) : 0x20 ≤ d.toNat := by
  rcases escape_cases c with ⟨letter, hescape, -, hletter⟩ | ⟨hescape, hcode⟩ |
    ⟨hescape, -, -, hcode⟩
  · rw [hescape] at h
    have hsmall : ∀ n < 0x20, unescape? (Char.ofNat n) = none := by decide
    have hcode : ¬letter.toNat < 0x20 := by
      intro hcode
      have hnone := hsmall letter.toNat hcode
      rw [Char.ofNat_toNat, hletter] at hnone
      cases hnone
    rcases List.mem_cons.1 h with rfl | h
    · decide
    · exact List.mem_singleton.1 h ▸ Nat.le_of_not_lt hcode
  · have hdigits : ∀ n < 0x20,
        (Text.Quoted.hexadecimal 4 (Char.ofNat n)).all fun d => decide (0x20 ≤ d.toNat) := by
      decide
    rw [hescape] at h
    rcases List.mem_cons.1 h with rfl | h
    · decide
    · rcases List.mem_cons.1 h with rfl | h
      · decide
      · have hall := hdigits c.toNat hcode
        rw [Char.ofNat_toNat, List.all_eq_true] at hall
        exact of_decide_eq_true (hall d h)
  · rw [hescape, List.mem_singleton] at h
    exact h ▸ Nat.le_of_not_lt hcode

theorem code_of_mem_quoted {t : Text} {d : Char} (h : d ∈ quoted t) : 0x20 ≤ d.toNat := by
  rw [quoted, List.mem_append, List.mem_cons, List.mem_singleton] at h
  rcases h with (rfl | h) | rfl
  · decide
  · obtain ⟨c, -, hc⟩ := List.mem_flatMap.1 h
    exact code_of_mem_escape hc
  · decide

end Parlance.Json
