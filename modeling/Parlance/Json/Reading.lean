import Parlance.Json.Quoted
/-!
Reading documents. Blanks are space, tab and the two line ends. Numbers start with no superfluous
zero; the words for what is no number are read as numbers. Reading stops at the first problem.
-/

namespace Parlance.Json

def isBlank (c : Char) : Bool := c == ' ' || c == '\t' || c == '\n' || c == '\r'

def skipBlank (t : Text) : Text := t.dropWhile isBlank

theorem length_skipBlank_le (t : Text) : (skipBlank t).length ≤ t.length :=
  (List.dropWhile_sublist _).length_le

/-! Numbers -/

/-- The most digits that an integer may have. -/
def digitLimit : Nat := 4300

/-- The run of ASCII digits at the head. -/
def digitsOf (t : Text) : Text := t.takeWhile Char.isDigit

/-- A point and at least one digit. -/
def fractionOf (t : Text) : Text :=
  match t with
  | [] => []
  | c :: rest => if c = '.' ∧ (digitsOf rest).isEmpty = false then c :: digitsOf rest else []

/-- The sign at the head, if there is one. -/
def signOf (signs : Text) (t : Text) : Text :=
  match t with
  | [] => []
  | c :: _ => if signs.contains c then [c] else []

/-- The letter e, perhaps a sign, and at least one digit. -/
def exponentOf (t : Text) : Text :=
  match t with
  | [] => []
  | c :: rest =>
    let sign := signOf ['+', '-'] rest
    let digits := digitsOf (rest.drop sign.length)
    if (c = 'e' ∨ c = 'E') ∧ digits.isEmpty = false then c :: sign ++ digits else []

/-- The digits before the point; a zero stands alone. -/
def wholeOf (t : Text) : Text :=
  match t with
  | [] => []
  | c :: _ => if c = '0' then [c] else digitsOf t

def digitsValue (digits : Text) : Nat :=
  digits.foldl (fun n d => 10 * n + (d.toNat - '0'.toNat)) 0

def readNumber (t : Text) : Except ReadError (Json × Text) :=
  let sign := signOf ['-'] t
  let whole := wholeOf (t.drop sign.length)
  let afterWhole := t.drop (sign.length + whole.length)
  let fraction := fractionOf afterWhole
  let exponent := exponentOf (afterWhole.drop fraction.length)
  let rest := t.drop (sign.length + whole.length + fraction.length + exponent.length)
  if whole.isEmpty then .error (.refused .value t)
  else if fraction.isEmpty && exponent.isEmpty then
    if digitLimit < whole.length then .error .oversizedNumeral
    else
      let n : Int := digitsValue whole
      .ok (.integer (if sign.isEmpty then n else -n), rest)
  else .ok (.real (sign ++ whole ++ fraction ++ exponent), rest)

theorem length_readNumber {t rest : Text} {j : Json} (h : readNumber t = .ok (j, rest)) :
    rest.length < t.length := by
  unfold readNumber at h
  dsimp only at h
  split at h
  · contradiction
  · next hwhole =>
    have hpos : 0 < (wholeOf (t.drop (signOf ['-'] t).length)).length :=
      List.length_pos_iff.2 fun h => hwhole (by simp [h])
    have hne : 0 < t.length := by
      cases t with
      | nil => simp [wholeOf, signOf] at hpos
      | cons => simp
    split at h
    · split at h
      · contradiction
      · simp only [Except.ok.injEq, Prod.mk.injEq] at h
        rw [← h.2, List.length_drop]
        omega
    · simp only [Except.ok.injEq, Prod.mk.injEq] at h
      rw [← h.2, List.length_drop]
      omega

/-! Words -/

/-- The words that stand for values. -/
def words : List (String × Json) :=
  [("null", .null), ("true", .boolean true), ("false", .boolean false), ("NaN", .real "NaN"),
   ("Infinity", .real "Infinity"), ("-Infinity", .real "-Infinity")]

def readWord? (t : Text) : Option (Json × Text) :=
  (words.find? fun w => w.1.toList.isPrefixOf t).map fun w => (w.2, t.drop w.1.length)

theorem length_readWord? {t rest : Text} {j : Json} (h : readWord? t = some (j, rest)) :
    rest.length < t.length := by
  simp only [readWord?, Option.map_eq_some_iff, Prod.mk.injEq] at h
  obtain ⟨w, hfind, _, rfl⟩ := h
  have hle : w.1.length ≤ t.length := by
    have := List.find?_some hfind
    exact (List.isPrefixOf_iff_prefix.1 this).length_le
  have hpos : 0 < w.1.length := by
    have := List.mem_of_find?_eq_some hfind
    simp only [words, List.mem_cons, List.not_mem_nil, or_false] at this
    obtain rfl | rfl | rfl | rfl | rfl | rfl := this <;> decide
  rw [List.length_drop]
  omega

/-! Containers -/

/-- Items with commas between them, up to a closing bracket. -/
def readItems {α : Type} (item : Reader α) (close : Char) (t : Text) :
    Except ReadError (List α × Text) :=
  match h : item.read t with
  | .error e => .error e
  | .ok (a, rest) =>
    have := item.shorter h
    match _hrest : skipBlank rest with
    | [] => .error (.refused .comma [])
    | c :: more =>
      if c = close then .ok ([a], more)
      else if c = ',' then
        (readItems item close (skipBlank more)).map fun (items, rest) => (a :: items, rest)
      else .error (.refused .comma (c :: more))
termination_by t.length
decreasing_by
  have := length_skipBlank_le rest
  have := length_skipBlank_le more
  simp only [_hrest, List.length_cons] at *
  omega

theorem length_readItems {α : Type} {item : Reader α} {close : Char} {t rest : Text}
    {items : List α} (h : readItems item close t = .ok (items, rest)) :
    rest.length < t.length := by
  fun_induction readItems item close t generalizing items with
  | case1 => contradiction
  | case2 => contradiction
  | case3 t a after hitem _ more hafter =>
    simp only [Except.ok.injEq, Prod.mk.injEq] at h
    have h1 := item.shorter hitem
    have h2 := length_skipBlank_le after
    rw [hafter, List.length_cons] at h2
    rw [← h.2]
    omega
  | case4 t a after hitem _ more hafter _ ih =>
    obtain ⟨⟨_, _⟩, hread, hpair⟩ := exists_of_map_eq_ok h
    simp only [Prod.mk.injEq] at hpair
    have h1 := item.shorter hitem
    have h2 := length_skipBlank_le after
    have h3 := length_skipBlank_le more
    rw [hafter, List.length_cons] at h2
    have := ih (hpair.2 ▸ hread)
    omega
  | case5 => contradiction

/-- What follows an opening bracket: nothing but blanks, or items. -/
def readList {α : Type} (item : Reader α) (close : Char) (t : Text) :
    Except ReadError (List α × Text) :=
  match skipBlank t with
  | [] => readItems item close []
  | c :: rest => if c = close then .ok ([], rest) else readItems item close (c :: rest)

theorem length_readList_le {α : Type} {item : Reader α} {close : Char} {t rest : Text}
    {items : List α} (h : readList item close t = .ok (items, rest)) :
    rest.length ≤ t.length := by
  have hskip := length_skipBlank_le t
  unfold readList at h
  split at h
  · have := length_readItems h
    simp at this
  · next hcons =>
    rw [hcons, List.length_cons] at hskip
    split at h
    · simp only [Except.ok.injEq, Prod.mk.injEq] at h
      rw [← h.2]
      omega
    · have := length_readItems h
      simp only [List.length_cons] at this
      omega

/-- A key, a colon and a value. -/
def readMember (value : Reader Json) (t : Text) : Except ReadError ((Letters × Json) × Text) :=
  match readQuoted t with
  | .error e => .error e
  | .ok (key, afterKey) =>
    match skipBlank afterKey with
    | [] => .error (.refused .colon [])
    | c :: rest =>
      if c = ':' then (value.read (skipBlank rest)).map fun (j, rest) => ((key, j), rest)
      else .error (.refused .colon (c :: rest))

theorem length_readMember {value : Reader Json} {t rest : Text} {m : Letters × Json}
    (h : readMember value t = .ok (m, rest)) : rest.length < t.length := by
  unfold readMember at h
  split at h
  · contradiction
  · next key afterKey hkey =>
    have h1 := length_readQuoted hkey
    have h2 := length_skipBlank_le afterKey
    split at h
    · contradiction
    · next after hafter =>
      rw [hafter, List.length_cons] at h2
      split at h
      · obtain ⟨⟨_, _⟩, hread, hpair⟩ := exists_of_map_eq_ok h
        simp only [Prod.mk.injEq] at hpair
        have h3 := value.shorter hread
        have h4 := length_skipBlank_le after
        rw [← hpair.2]
        omega
      · contradiction

def member (value : Reader Json) : Reader (Letters × Json) :=
  ⟨readMember value, length_readMember⟩

/-- A value, given the reader for values inside it; without one no container may stand here. -/
def readValue (inner? : Option (Reader Json)) (t : Text) : Except ReadError (Json × Text) :=
  match t with
  | [] => .error (.refused .value [])
  | c :: rest =>
    if c = '"' then (readCharacters t rest).map fun (s, rest) => (.text s, rest)
    else if c = '{' then
      match inner? with
      | none => .error (.tooDeep "object")
      | some inner =>
        (readList (member inner) '}' rest).map fun (members, rest) => (.object members, rest)
    else if c = '[' then
      match inner? with
      | none => .error (.tooDeep "array")
      | some inner => (readList inner ']' rest).map fun (items, rest) => (.array items, rest)
    else
      match readWord? t with
      | some found => .ok found
      | none => readNumber t

theorem length_readValue {inner? : Option (Reader Json)} {t rest : Text} {j : Json}
    (h : readValue inner? t = .ok (j, rest)) : rest.length < t.length := by
  unfold readValue at h
  split at h
  · contradiction
  · next c after =>
    rw [List.length_cons]
    split at h
    · obtain ⟨⟨_, _⟩, hread, hpair⟩ := exists_of_map_eq_ok h
      simp only [Prod.mk.injEq] at hpair
      have := length_readCharacters (hpair.2 ▸ hread)
      omega
    · split at h
      · split at h
        · contradiction
        · obtain ⟨⟨_, _⟩, hread, hpair⟩ := exists_of_map_eq_ok h
          simp only [Prod.mk.injEq] at hpair
          have := length_readList_le (hpair.2 ▸ hread)
          omega
      · split at h
        · split at h
          · contradiction
          · obtain ⟨⟨_, _⟩, hread, hpair⟩ := exists_of_map_eq_ok h
            simp only [Prod.mk.injEq] at hpair
            have := length_readList_le (hpair.2 ▸ hread)
            omega
        · split at h
          · next hword =>
            obtain rfl := Except.ok.inj h
            simpa using length_readWord? hword
          · simpa using length_readNumber h

/-- The reader of values that hold containers up to a depth. -/
def value : Nat → Reader Json
  | 0 => ⟨readValue none, length_readValue⟩
  | depth + 1 => ⟨readValue (some (value depth)), length_readValue⟩

/-! Documents -/

/-- Read a whole text as a document. -/
def ofText (limit : Limit) (t : Text) : Except ReadError Json :=
  if t.head? = some '\uFEFF' then .error (.refused .byteOrderMark t)
  else
    match (value limit.depth).read (skipBlank t) with
    | .error e => .error e
    | .ok (j, rest) =>
      if (skipBlank rest).isEmpty then .ok j
      else .error (.refused .extraData (skipBlank rest))

/-- Where in a document the rest of it starts: line, column and number of characters before. -/
def place (document rest : Text) : Text :=
  let before := document.take (document.length - rest.length)
  let column := (before.reverse.takeWhile (· ≠ '\n')).length + 1
  "line " ++ Text.ofNat (before.count '\n' + 1) ++ " column " ++ Text.ofNat column ++
    " (char " ++ Text.ofNat before.length ++ ")"

end Parlance.Json
