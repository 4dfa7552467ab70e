import Parlance.Text
/-!
Spellings: what a text may look like, character by character. A spelling is a list of parts, each
a set of characters that is taken once or any number of times. Spellings are written in the usual
short form, where a backslash takes the character after it as itself, d, w and s after a backslash
stand for digits, word characters and blanks, brackets enclose a set, and plus, star and question
mark repeat what stands before them.
-/

namespace Parlance

/-- Sets of characters that a spelling can name. -/
inductive CharSet where
  | range (first last : Char)
  | digit
  | word
  | blank
  | union (sets : List CharSet)
  | complement (set : CharSet)

namespace CharSet

def single (c : Char) : CharSet := .range c c

mutual

def contains : CharSet → Char → Bool
  | .range first last, c => first ≤ c && c ≤ last
  | .digit, c => Text.isDigit c
  | .word, c => Text.isWord c
  | .blank, c => Text.isBlank c
  | .union sets, c => anyContains sets c
  | .complement set, c => !set.contains c

def anyContains : List CharSet → Char → Bool
  | [], _ => false
  | set :: sets, c => set.contains c || anyContains sets c

end

end CharSet

namespace Spelling

inductive Part where
  | one (set : CharSet)
  | option (set : CharSet)
  | many (set : CharSet)

/-- A part that repeats gives up a character only after it has tried to end. -/
def accepts (parts : List Part) (t : Text) : Bool :=
  match parts with
  | [] => t.isEmpty
  | .one set :: rest =>
    match t with
    | [] => false
    | c :: t => set.contains c && accepts rest t
  | .option set :: rest =>
    accepts rest t ||
      match t with
      | [] => false
      | c :: t => set.contains c && accepts rest t
  | .many set :: rest =>
    accepts rest t ||
      match t with
      | [] => false
      | c :: t => set.contains c && accepts (.many set :: rest) t
termination_by parts.length + t.length

/-- The set that a character after a backslash stands for. -/
def escaped (c : Char) : Option CharSet :=
  if c = 'd' then some .digit
  else if c = 'w' then some .word
  else if c = 's' then some .blank
  else if c.isAlphanum then none
  else some (.single c)

/-- The members of a bracketed set, up to the closing bracket. -/
def readMembers : Text → Option (List CharSet × Text)
  | [] => none
  | ']' :: rest => some ([], rest)
  | '\\' :: c :: rest => do
    let set ← escaped c
    let (sets, rest) ← readMembers rest
    return (set :: sets, rest)
  | first :: '-' :: last :: rest => do
    if last = ']' || last = '\\' then none
    else
      let (sets, rest) ← readMembers rest
      return (.range first last :: sets, rest)
  | c :: rest => do
    let (sets, rest) ← readMembers rest
    return (.single c :: sets, rest)

/-- One set at the head of a written spelling. -/
def readSet : Text → Option (CharSet × Text)
  | [] => none
  | '\\' :: c :: rest => return (← escaped c, rest)
  | '[' :: '^' :: rest => do
    let (sets, rest) ← readMembers rest
    return (.complement (.union sets), rest)
  | '[' :: rest => do
    let (sets, rest) ← readMembers rest
    return (.union sets, rest)
  | '.' :: rest => some (.complement (.single '\n'), rest)
  | c :: rest => if "()|^$+*?\\".contains c then none else some (.single c, rest)

/-- Repeat a set as the character after it demands. -/
def readRepeat (set : CharSet) : Text → List Part × Text
  | '+' :: rest => ([.one set, .many set], rest)
  | '*' :: rest => ([.many set], rest)
  | '?' :: rest => ([.option set], rest)
  | rest => ([.one set], rest)

/-- Read a written spelling; every set takes at least one character, so the length bounds the
number of sets. -/
def readParts : Nat → Text → Option (List Part)
  | _, [] => some []
  | 0, _ => none
  | limit + 1, t => do
    let (set, rest) ← readSet t
    let (parts, rest) := readRepeat set rest
    return parts ++ (← readParts limit rest)

def ofText? (t : Text) : Option (List Part) := readParts t.length t

end Spelling

end Parlance
