import Parlance.Json
import Parlance.Text.Quoted
/-!
Texts between double quotes. Writing escapes the quote, the backslash and the control characters
of ASCII and nothing else; reading also takes a letter by its number, or a character beyond the
first plane by a pair of numbers.
-/

namespace Parlance.Json

/-- A character inside quotes. -/
def escape (c : Char) : Text :=
  if c = '"' then ['\\', '"']
  else if c = '\\' then ['\\', '\\']
  else if c = '\n' then ['\\', 'n']
  else if c = '\r' then ['\\', 'r']
  else if c = '\t' then ['\\', 't']
  else if c = '\x0c' then ['\\', 'f']
  else if c = '\x08' then ['\\', 'b']
  else if c.toNat < 0x20 then '\\' :: 'u' :: Text.Quoted.hexadecimal 4 c
  else [c]

def quoted (t : Text) : Text := '"' :: t.flatMap escape ++ ['"']

/-- The character that a letter after a backslash stands for. -/
def unescape? (c : Char) : Option Char :=
  if c = '"' ∨ c = '\\' ∨ c = '/' then some c
  else if c = 'n' then some '\n'
  else if c = 'r' then some '\r'
  else if c = 't' then some '\t'
  else if c = 'f' then some '\x0c'
  else if c = 'b' then some '\x08'
  else none

def hexValue? (c : Char) : Option Nat :=
  if c.isDigit then some (c.toNat - '0'.toNat)
  else if 'a' ≤ c ∧ c ≤ 'f' then some (c.toNat - 'a'.toNat + 10)
  else if 'A' ≤ c ∧ c ≤ 'F' then some (c.toNat - 'A'.toNat + 10)
  else none

/-- The number in four hexadecimal digits, which never end a text. -/
def readHex? : Text → Option (Nat × Text)
  | a :: b :: c :: d :: rest =>
    if rest.isEmpty then none
    else do
      let number := 4096 * (← hexValue? a) + 256 * (← hexValue? b) + 16 * (← hexValue? c)
      return (number + (← hexValue? d), rest)
  | _ => none

/-- The second half of a pair, if an escape for it follows. -/
def readLowHalf : Text → Except ReadError (Option (Nat × Text))
  | '\\' :: 'u' :: digits =>
    if digits.length ≤ 4 then .ok none
    else
      match readHex? digits with
      | none => .error (.refused .unicodeEscape ('u' :: digits))
      | some (n, rest) => .ok (if isLowHalf n then some (n, rest) else none)
  | _ => .ok none

/-- A letter by its number; the digits follow the letter u. -/
def readNumbered (digits : Text) : Except ReadError (Letter × Text) :=
  match readHex? digits with
  | none => .error (.refused .unicodeEscape ('u' :: digits))
  | some (n, rest) =>
    if isHighHalf n then
      match readLowHalf rest with
      | .error e => .error e
      | .ok (some (low, rest)) =>
        .ok (.character (Char.ofNat (0x10000 + 0x400 * (n - 0xD800) + (low - 0xDC00))), rest)
      | .ok none => .ok (letterOf n, rest)
    else .ok (letterOf n, rest)

/-- What follows a backslash, in a text with a given opening quote. -/
def readEscape (opening : Text) : Text → Except ReadError (Letter × Text)
  | [] => .error (.refused .unterminated opening)
  | c :: rest =>
    if c = 'u' then readNumbered rest
    else
      match unescape? c with
      | some d => .ok (.character d, rest)
      | none => .error (.refused .escape ('\\' :: c :: rest))

theorem length_readHex? {t rest : Text} {n : Nat} (h : readHex? t = some (n, rest)) :
    rest.length < t.length := by
  unfold readHex? at h
  split at h
  · split at h
    · contradiction
    · simp only [Option.bind_eq_bind, Option.pure_def, Option.bind_eq_some_iff, Option.some.injEq,
        Prod.mk.injEq] at h
      obtain ⟨_, _, _, _, _, _, _, _, _, rfl⟩ := h
      simp only [List.length_cons]
      omega
  · contradiction

theorem length_readLowHalf {t rest : Text} {n : Nat} (h : readLowHalf t = .ok (some (n, rest))) :
    rest.length < t.length := by
  unfold readLowHalf at h
  split at h
  · split at h
    · simp at h
    · split at h
      · contradiction
      · next hread =>
        split at h
        · simp only [Except.ok.injEq, Option.some.injEq, Prod.mk.injEq] at h
          have := length_readHex? hread
          obtain ⟨_, rfl⟩ := h
          simp only [List.length_cons]
          omega
        · simp at h
  · simp at h

theorem length_readNumbered {t rest : Text} {l : Letter} (h : readNumbered t = .ok (l, rest)) :
    rest.length < t.length := by
  unfold readNumbered at h
  split at h
  · contradiction
  · next hread =>
    have := length_readHex? hread
    split at h
    · split at h
      · contradiction
      · next hlow =>
        have := length_readLowHalf hlow
        simp only [Except.ok.injEq, Prod.mk.injEq] at h
        obtain ⟨_, rfl⟩ := h
        omega
      · simp only [Except.ok.injEq, Prod.mk.injEq] at h
        obtain ⟨_, rfl⟩ := h
        omega
    · simp only [Except.ok.injEq, Prod.mk.injEq] at h
      obtain ⟨_, rfl⟩ := h
      omega

theorem length_readEscape {opening t rest : Text} {l : Letter}
    (h : readEscape opening t = .ok (l, rest)) : rest.length < t.length := by
  unfold readEscape at h
  split at h
  · contradiction
  · split at h
    · have := length_readNumbered h
      simp only [List.length_cons]
      omega
    · split at h
      · simp only [Except.ok.injEq, Prod.mk.injEq] at h
        obtain ⟨_, rfl⟩ := h
        simp
      · contradiction

/-- The letters up to the closing quote, and what follows it. A text that does not end is reported
at its opening quote. -/
def readCharacters (opening : Text) (t : Text) : Except ReadError (Letters × Text) :=
  match t with
  | [] => .error (.refused .unterminated opening)
  | c :: rest =>
    if c = '"' then .ok ([], rest)
    else if c = '\\' then
      match h : readEscape opening rest with
      | .error e => .error e
      | .ok (d, after) =>
        have := length_readEscape h
        (readCharacters opening after).map fun (s, after) => (d :: s, after)
    else if c.toNat < 0x20 then .error (.refused .control t)
    else (readCharacters opening rest).map fun (s, after) => (.character c :: s, after)
termination_by t.length
decreasing_by all_goals simp only [List.length_cons]; omega

theorem exists_of_map_eq_ok {ε α β : Type} {f : α → β} {r : Except ε α} {b : β}
    (h : r.map f = .ok b) : ∃ a, r = .ok a ∧ f a = b := by
  cases r with
  | error e => simp [Except.map] at h
  | ok a => exact ⟨a, rfl, by simpa [Except.map] using h⟩

theorem length_readCharacters {opening t rest : Text} {s : Letters}
    (h : readCharacters opening t = .ok (s, rest)) : rest.length < t.length := by
  fun_induction readCharacters opening t generalizing s with
  | case1 => contradiction
  | case2 rest' =>
    simp only [Except.ok.injEq, Prod.mk.injEq] at h
    obtain ⟨_, rfl⟩ := h
    simp
  | case3 => contradiction
  | case4 _ _ _ _ _ _ ih =>
    obtain ⟨⟨_, _⟩, hread, hpair⟩ := exists_of_map_eq_ok h
    simp only [Prod.mk.injEq] at hpair
    have := ih (hpair.2 ▸ hread)
    simp only [List.length_cons]
    omega
  | case5 => contradiction
  | case6 _ _ _ _ _ ih =>
    obtain ⟨⟨_, _⟩, hread, hpair⟩ := exists_of_map_eq_ok h
    simp only [Prod.mk.injEq] at hpair
    have := ih (hpair.2 ▸ hread)
    simp only [List.length_cons]
    omega

/-- A whole text in quotes; anything else is no key. -/
def readQuoted (t : Text) : Except ReadError (Letters × Text) :=
  match t with
  | [] => .error (.refused .key t)
  | c :: rest => if c = '"' then readCharacters t rest else .error (.refused .key t)

theorem length_readQuoted {t rest : Text} {s : Letters} (h : readQuoted t = .ok (s, rest)) :
    rest.length < t.length := by
  unfold readQuoted at h
  split at h
  · contradiction
  · split at h
    · have := length_readCharacters h
      simp only [List.length_cons]
      omega
    · contradiction

end Parlance.Json
