import Parlance.Proofs.Json.Quoted
import Parlance.Proofs.Traverse
/-!
Texts between double quotes, as they may be written: a character stands for itself, or it is given
by a letter or by its number behind a backslash, and two halves of a pair that follow each other are
one character, while a half alone remains a half (decode). Such texts are read as what they stand
for (readCharacters_glyphs), whatever is read is such a text (exists_glyphs), and any other text is
refused (refused_of_readCharacters).
-/

namespace Parlance.Json

/-- A hexadecimal digit. -/
structure HexDigit where
  char : Char
  value : Nat
  value_eq : hexValue? char = some value

/-- A character between quotes, as it is written. -/
inductive Glyph where
  | plain (c : Char) (not_quote : c ≠ '"') (not_slash : c ≠ '\\') (not_control : ¬c.toNat < 0x20)
  /-- A letter behind a backslash. -/
  | letter (c d : Char) (stands_for : unescape? c = some d)
  /-- Four digits behind a backslash and the letter u. -/
  | code (a b c d : HexDigit)

def codeText (a b c d : HexDigit) : Text := [a.char, b.char, c.char, d.char]

def codeNumber (a b c d : HexDigit) : Nat :=
  4096 * a.value + 256 * b.value + 16 * c.value + d.value

namespace Glyph

def text : Glyph → Text
  | plain c _ _ _ => [c]
  | letter c _ _ => ['\\', c]
  | code a b c d => '\\' :: 'u' :: codeText a b c d

/-- What a glyph stands for by itself. -/
def alone : Glyph → Letter
  | plain c _ _ _ => .character c
  | letter _ d _ => .character d
  | code a b c d => letterOf (codeNumber a b c d)

/-- The character that two glyphs stand for together, if they are the halves of a pair. -/
def joined? : Glyph → Glyph → Option Char
  | code a b c d, code a' b' c' d' =>
    let high := codeNumber a b c d
    let low := codeNumber a' b' c' d'
    if isHighHalf high && isLowHalf low then
      some (Char.ofNat (0x10000 + 0x400 * (high - 0xD800) + (low - 0xDC00)))
    else none
  | _, _ => none

/-- The letters that glyphs stand for. -/
def decode : List Glyph → Letters
  | [] => []
  | [g] => [g.alone]
  | high :: low :: rest =>
    match joined? high low with
    | some c => .character c :: decode rest
    | none => high.alone :: decode (low :: rest)

/-- The text that glyphs are written as, with the quote at its end. -/
def closedText (glyphs : List Glyph) : Text := glyphs.flatMap text ++ ['"']

end Glyph

section Codes

variable {t rest : Text} {a b c d : HexDigit}

theorem readHex?_code (a b c d : HexDigit) (hrest : rest ≠ []) :
    readHex? (codeText a b c d ++ rest) = some (codeNumber a b c d, rest) := by
  have hempty : rest.isEmpty = false := List.isEmpty_eq_false_iff.2 hrest
  simp only [codeText, List.cons_append, List.nil_append, readHex?, hempty, a.value_eq, b.value_eq,
    c.value_eq, d.value_eq]
  rfl

theorem exists_code {n : Nat} (h : readHex? t = some (n, rest)) :
    ∃ a b c d : HexDigit, t = codeText a b c d ++ rest ∧ codeNumber a b c d = n ∧ rest ≠ [] := by
  unfold readHex? at h
  split at h
  · next c₁ c₂ c₃ c₄ after =>
    split at h
    · cases h
    · next hempty =>
      simp only [Option.bind_eq_bind, Option.pure_def, Option.bind_eq_some_iff, Option.some.injEq,
        Prod.mk.injEq] at h
      obtain ⟨v₁, h₁, v₂, h₂, v₃, h₃, v₄, h₄, hnumber, rfl⟩ := h
      refine ⟨⟨c₁, v₁, h₁⟩, ⟨c₂, v₂, h₂⟩, ⟨c₃, v₃, h₃⟩, ⟨c₄, v₄, h₄⟩, rfl, hnumber, ?_⟩
      exact fun hnil => hempty (List.isEmpty_iff.2 hnil)
  · cases h

end Codes

section Reading

open Glyph

variable {t rest opening after : Text} {s : Letters} {high low g : Glyph} {glyphs : List Glyph}

theorem closedText_nil : closedText [] = ['"'] := rfl

theorem closedText_cons (g : Glyph) (glyphs : List Glyph) :
    closedText (g :: glyphs) = g.text ++ closedText glyphs := by
  rw [closedText, List.flatMap_cons, List.append_assoc]
  rfl

theorem closedText_ne_nil (glyphs : List Glyph) (rest : Text) : closedText glyphs ++ rest ≠ [] := by
  rw [closedText, List.append_assoc]
  exact List.append_ne_nil_of_right_ne_nil _ (List.cons_ne_nil _ _)

/-- A glyph that makes no pair with the next one stands for what it is alone. -/
theorem decode_cons (h : ∀ low ∈ glyphs.head?, joined? g low = none) :
    decode (g :: glyphs) = g.alone :: decode glyphs := by
  cases glyphs with
  | nil => rfl
  | cons low glyphs => rw [decode, h low rfl]

theorem decode_joined {c : Char} (h : joined? high low = some c) :
    decode (high :: low :: glyphs) = .character c :: decode glyphs := by
  rw [decode, h]

/-- The half of a pair that is found behind another half. -/
theorem readLowHalf_code (a b c d : HexDigit) (hrest : rest ≠ []) :
    readLowHalf ((Glyph.code a b c d).text ++ rest) =
      .ok (if isLowHalf (codeNumber a b c d) then some (codeNumber a b c d, rest) else none) := by
  have hlength : ¬(codeText a b c d ++ rest).length ≤ 4 := by
    have hpos := List.length_pos_iff.2 hrest
    simp only [codeText, List.cons_append, List.nil_append, List.length_cons]
    omega
  rw [Glyph.text, List.cons_append, List.cons_append, readLowHalf, if_neg hlength,
    readHex?_code a b c d hrest]

theorem readLowHalf_of_ne (h : ∀ digits, t ≠ '\\' :: 'u' :: digits) : readLowHalf t = .ok none := by
  unfold readLowHalf
  split
  · next digits => exact absurd rfl (h digits)
  · rfl

theorem letter_ne_u {c d : Char} (h : unescape? c = some d) : c ≠ 'u' := by
  rintro rfl
  have hnone : unescape? 'u' = none := by decide
  rw [hnone] at h
  cases h

theorem readEscape_letter {c d : Char} (h : unescape? c = some d) (opening rest : Text) :
    readEscape opening (c :: rest) = .ok (.character d, rest) := by
  rw [readEscape, if_neg (letter_ne_u h), h]

theorem readEscape_code (opening digits : Text) :
    readEscape opening ('u' :: digits) = readNumbered digits := by
  rw [readEscape, if_pos rfl]

/-- No second half is found where the next glyph does not make a pair with the first one. -/
theorem readLowHalf_alone {a b c d : HexDigit} (hhigh : isHighHalf (codeNumber a b c d))
    (h : ∀ low ∈ glyphs.head?, joined? (.code a b c d) low = none) (rest : Text) :
    readLowHalf (closedText glyphs ++ rest) = .ok none := by
  cases glyphs with
  | nil => exact readLowHalf_of_ne fun digits => by simp [closedText_nil]
  | cons low glyphs =>
    rw [closedText_cons, List.append_assoc]
    have hnone := h low rfl
    cases low with
    | plain c hquote hslash hcontrol =>
      exact readLowHalf_of_ne fun digits heq => hslash (List.cons.inj heq).1
    | letter c d hstands =>
      refine readLowHalf_of_ne fun digits heq => letter_ne_u hstands ?_
      exact (List.cons.inj (List.cons.inj heq).2).1
    | code a' b' c' d' =>
      rw [readLowHalf_code a' b' c' d' (closedText_ne_nil glyphs rest)]
      cases hlow : isLowHalf (codeNumber a' b' c' d') with
      | false => rfl
      | true => simp [joined?, hhigh, hlow] at hnone

/-- A number that makes no pair with the next glyph is read as what it is alone. -/
theorem readNumbered_alone {a b c d : HexDigit}
    (h : ∀ low ∈ glyphs.head?, joined? (.code a b c d) low = none) (rest : Text) :
    readNumbered (codeText a b c d ++ (closedText glyphs ++ rest)) =
      .ok (letterOf (codeNumber a b c d), closedText glyphs ++ rest) := by
  rw [readNumbered, readHex?_code a b c d (closedText_ne_nil glyphs rest)]
  cases hhigh : isHighHalf (codeNumber a b c d) with
  | false => simp only [hhigh, Bool.false_eq_true, if_false]
  | true => simp only [hhigh, readLowHalf_alone hhigh h, if_true]

theorem readCharacters_alone (h : ∀ low ∈ glyphs.head?, joined? g low = none)
    (opening rest : Text) :
    readCharacters opening (closedText (g :: glyphs) ++ rest) =
      (readCharacters opening (closedText glyphs ++ rest)).map fun (s, after) =>
        (g.alone :: s, after) := by
  rw [closedText_cons, List.append_assoc]
  cases g with
  | plain c hquote hslash hcontrol => exact readCharacters_plain hquote hslash hcontrol
  | letter c d hstands => exact readCharacters_escape (readEscape_letter hstands opening _)
  | code a b c d =>
    have hread := readNumbered_alone h rest
    exact readCharacters_escape ((readEscape_code opening _).trans hread)

/-- Two halves of a pair are read as one character. -/
theorem readCharacters_joined {pair : Char} (h : joined? high low = some pair)
    (opening rest : Text) :
    readCharacters opening (closedText (high :: low :: glyphs) ++ rest) =
      (readCharacters opening (closedText glyphs ++ rest)).map fun (s, after) =>
        (.character pair :: s, after) := by
  unfold joined? at h
  split at h
  · next a b c d a' b' c' d' =>
    obtain ⟨hhalves, hpair⟩ := Option.ite_none_right_eq_some.1 h
    obtain ⟨hhigh, hlow⟩ := Bool.and_eq_true_iff.1 hhalves
    have hnumbered : readNumbered (codeText a b c d ++
        ((Glyph.code a' b' c' d').text ++ (closedText glyphs ++ rest))) =
          .ok (.character pair, closedText glyphs ++ rest) := by
      rw [readNumbered, readHex?_code a b c d (by simp [Glyph.text])]
      simp only [hhigh, if_true, readLowHalf_code a' b' c' d' (closedText_ne_nil glyphs rest),
        if_pos hlow, Option.some.inj hpair]
    rw [closedText_cons, closedText_cons, List.append_assoc, List.append_assoc]
    exact readCharacters_escape ((readEscape_code opening _).trans hnumbered)
  · cases h

/-- What glyphs are written as is read as what they stand for. -/
theorem readCharacters_glyphs (opening : Text) (glyphs : List Glyph) (rest : Text) :
    readCharacters opening (closedText glyphs ++ rest) = .ok (decode glyphs, rest) := by
  fun_induction decode glyphs with
  | case1 => exact readCharacters_quote
  | case2 g =>
    rw [readCharacters_alone (by simp), closedText_nil, List.singleton_append,
      readCharacters_quote]
    rfl
  | case3 high low glyphs c hjoined ih => rw [readCharacters_joined hjoined, ih]; rfl
  | case4 high low glyphs hnone ih =>
    rw [readCharacters_alone (fun _ hlow => Option.some.inj hlow ▸ hnone), ih]
    rfl

theorem exists_of_readLowHalf {n : Nat} (h : readLowHalf t = .ok (some (n, rest))) :
    ∃ a b c d : HexDigit, t = (Glyph.code a b c d).text ++ rest ∧ codeNumber a b c d = n ∧
      isLowHalf n := by
  unfold readLowHalf at h
  split at h
  · next digits =>
    split at h
    · cases h
    · split at h
      · cases h
      · next n' after hread =>
        obtain ⟨hlow, hsome⟩ := Option.ite_none_right_eq_some.1 (Except.ok.inj h)
        cases hsome
        obtain ⟨a, b, c, d, rfl, hnumber, -⟩ := exists_code hread
        exact ⟨a, b, c, d, rfl, hnumber, hlow⟩
  · cases h

/-- Where no second half is found the next glyph makes no pair with a number in front of it. -/
theorem joined?_of_readLowHalf (h : readLowHalf (closedText glyphs ++ rest) = .ok none)
    (a b c d : HexDigit) : ∀ low ∈ glyphs.head?, joined? (.code a b c d) low = none := by
  intro low hlow
  obtain ⟨more, rfl⟩ := List.head?_eq_some_iff.1 hlow
  cases low with
  | plain _ _ _ _ => rfl
  | letter _ _ _ => rfl
  | code a' b' c' d' =>
    rw [closedText_cons, List.append_assoc,
      readLowHalf_code a' b' c' d' (closedText_ne_nil more rest)] at h
    cases hlow : isLowHalf (codeNumber a' b' c' d') with
    | false => simp [joined?, hlow]
    | true => simp [hlow] at h

theorem joined?_of_not_high {a b c d : HexDigit} (h : isHighHalf (codeNumber a b c d) = false)
    (low : Glyph) : joined? (.code a b c d) low = none := by
  cases low <;> simp [joined?, h]

/-- What is read as a number is a glyph, or the two halves of a pair. -/
theorem exists_of_readNumbered {digits : Text} {l : Letter}
    (h : readNumbered digits = .ok (l, closedText glyphs ++ rest)) :
    ∃ more, decode more = l :: decode glyphs ∧ '\\' :: 'u' :: digits = closedText more ++ rest := by
  unfold readNumbered at h
  split at h
  · cases h
  · next n after hread =>
    obtain ⟨a, b, c, d, rfl, rfl, -⟩ := exists_code hread
    have hwritten (more : List Glyph) :
        '\\' :: 'u' :: (codeText a b c d ++ (closedText more ++ rest)) =
          closedText (.code a b c d :: more) ++ rest := by
      rw [closedText_cons, List.append_assoc]
      rfl
    split at h
    · next hhigh =>
      split at h
      · cases h
      · next low after' hlow =>
        obtain ⟨rfl, rfl⟩ := Prod.mk.inj (Except.ok.inj h)
        obtain ⟨a', b', c', d', rfl, rfl, hislow⟩ := exists_of_readLowHalf hlow
        have hhalves := Bool.and_eq_true_iff.2 ⟨hhigh, hislow⟩
        refine ⟨.code a b c d :: .code a' b' c' d' :: glyphs, decode_joined (if_pos hhalves), ?_⟩
        rw [← hwritten, closedText_cons, List.append_assoc]
      · next hlow =>
        cases h
        exact ⟨.code a b c d :: glyphs, decode_cons (joined?_of_readLowHalf hlow a b c d),
          hwritten glyphs⟩
    · next hhigh =>
      cases h
      have hnone := joined?_of_not_high (eq_false_of_ne_true hhigh)
      exact ⟨.code a b c d :: glyphs, decode_cons fun low _ => hnone low, hwritten glyphs⟩

theorem exists_of_readEscape {l : Letter}
    (h : readEscape opening t = .ok (l, closedText glyphs ++ rest)) :
    ∃ more, decode more = l :: decode glyphs ∧ '\\' :: t = closedText more ++ rest := by
  unfold readEscape at h
  split at h
  · cases h
  · next letter digits =>
    split at h
    · next hu => exact hu ▸ exists_of_readNumbered h
    · split at h
      · next d hstands =>
        cases h
        refine ⟨.letter letter _ hstands :: glyphs, decode_cons fun low _ => rfl, ?_⟩
        rw [closedText_cons, List.append_assoc]
        rfl
      · cases h

/-- What is read is the text of glyphs. -/
theorem exists_glyphs (h : readCharacters opening t = .ok (s, rest)) :
    ∃ glyphs, decode glyphs = s ∧ t = closedText glyphs ++ rest := by
  fun_induction readCharacters opening t generalizing s with
  | case1 => cases h
  | case2 after =>
    cases h
    exact ⟨[], rfl, rfl⟩
  | case3 => cases h
  | case4 _ _ _ hescape _ _ ih =>
    obtain ⟨⟨more, after'⟩, hread, hpair⟩ := exists_of_map_eq_ok h
    cases hpair
    obtain ⟨glyphs, rfl, rfl⟩ := ih hread
    exact exists_of_readEscape hescape
  | case5 => cases h
  | case6 c after hquote hslash hcontrol ih =>
    obtain ⟨⟨more, after'⟩, hread, hpair⟩ := exists_of_map_eq_ok h
    cases hpair
    obtain ⟨glyphs, rfl, rfl⟩ := ih hread
    refine ⟨.plain c hquote hslash hcontrol :: glyphs, decode_cons fun low _ => rfl, ?_⟩
    rw [closedText_cons, List.append_assoc]
    rfl

theorem readQuoted_glyphs (glyphs : List Glyph) (rest : Text) :
    readQuoted ('"' :: (closedText glyphs ++ rest)) = .ok (decode glyphs, rest) := by
  rw [readQuoted, if_pos rfl, readCharacters_glyphs]

theorem exists_of_readQuoted (h : readQuoted t = .ok (s, rest)) :
    ∃ glyphs, decode glyphs = s ∧ t = '"' :: (closedText glyphs ++ rest) := by
  unfold readQuoted at h
  split at h
  · cases h
  · split at h
    · next hquote =>
      obtain ⟨glyphs, hdecode, rfl⟩ := exists_glyphs h
      exact ⟨glyphs, hdecode, by rw [hquote]⟩
    · cases h

end Reading

section Refusals

variable {t opening : Text} {e : ReadError}

theorem refused_of_readLowHalf (h : readLowHalf t = .error e) :
    ∃ problem place, e = .refused problem place := by
  unfold readLowHalf at h
  split at h
  · split at h
    · cases h
    · split at h <;> cases h
      exact ⟨_, _, rfl⟩
  · cases h

theorem refused_of_readNumbered (h : readNumbered t = .error e) :
    ∃ problem place, e = .refused problem place := by
  unfold readNumbered at h
  split at h
  · cases h
    exact ⟨_, _, rfl⟩
  · split at h
    · split at h
      · next hlow =>
        cases h
        exact refused_of_readLowHalf hlow
      · cases h
      · cases h
    · cases h

theorem refused_of_readEscape (h : readEscape opening t = .error e) :
    ∃ problem place, e = .refused problem place := by
  unfold readEscape at h
  split at h
  · cases h
    exact ⟨_, _, rfl⟩
  · split at h
    · exact refused_of_readNumbered h
    · split at h <;> cases h
      exact ⟨_, _, rfl⟩

/-- A text between quotes that is not read is refused. -/
theorem refused_of_readCharacters (h : readCharacters opening t = .error e) :
    ∃ problem place, e = .refused problem place := by
  fun_induction readCharacters opening t with
  | case1 =>
    cases h
    exact ⟨_, _, rfl⟩
  | case2 => cases h
  | case3 _ _ hescape =>
    cases h
    exact refused_of_readEscape hescape
  | case4 _ _ _ _ _ _ ih => exact ih (map_eq_error_iff.1 h)
  | case5 =>
    cases h
    exact ⟨_, _, rfl⟩
  | case6 _ _ _ _ _ ih => exact ih (map_eq_error_iff.1 h)

theorem refused_of_readQuoted (h : readQuoted t = .error e) :
    ∃ problem place, e = .refused problem place := by
  unfold readQuoted at h
  split at h
  · cases h
    exact ⟨_, _, rfl⟩
  · split at h
    · exact refused_of_readCharacters h
    · cases h
      exact ⟨_, _, rfl⟩

end Refusals

end Parlance.Json
