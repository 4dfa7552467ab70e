import Parlance.Brace.Place
import Parlance.Construct.Kind
import Parlance.Span
/-!
Constructs: brace groups of the form argument, keyword and, after a second comma, a list of
branches or a style. They are read from a marked pattern without cutting the pattern up.
-/

namespace Parlance

open Brace

namespace Construct

/-- One alternative of a choice; the body is pattern text. -/
structure Branch where
  label : Text
  body : Text
  deriving DecidableEq

/-- A branch and the position at which its body starts. -/
structure PlacedBranch extends Branch where
  start : Nat

/-- Why a text is no list of branches. -/
inductive BranchError where
  /-- A character is out of place. -/
  | malformed
  /-- The text ends after a label. -/
  | unfinished

/-- Labels hold anything but blanks, braces and commas. -/
def isLabel (c : Char) : Bool := !Text.isBlank c && c != '{' && c != '}' && c != ','

/-- One branch at the head of the marks, and the marks after it. -/
def readBranch (pos : Nat) (ms : Marks) : Except BranchError (PlacedBranch × Marks) :=
  let label := ms.takeWhile (isLabel ·.char)
  let group := Marks.skipBlank (ms.dropWhile (isLabel ·.char))
  if label.isEmpty then .error .malformed
  else
    match group with
    | [] => .error .unfinished
    | brace :: inside =>
      match brace.reach with
      | none => .error .malformed
      | some n =>
        if brace.char = '{' ∧ n ≤ group.length then
          .ok (⟨⟨Marks.text label, Marks.text (inside.take (n - 2))⟩,
            pos + (ms.length - group.length) + 1⟩, group.drop n)
        else .error .malformed

theorem length_dropWhile_le {α : Type u} (p : α → Bool) (l : List α) :
    (l.dropWhile p).length ≤ l.length :=
  (List.dropWhile_sublist p).length_le

theorem length_readBranch {pos : Nat} {ms rest : Marks} {b : PlacedBranch}
    (h : readBranch pos ms = .ok (b, rest)) : rest.length < ms.length := by
  simp only [readBranch] at h
  split at h
  · contradiction
  · next hlabel =>
    have hsplit := congrArg List.length
      (List.takeWhile_append_dropWhile (p := fun m : Mark => isLabel m.char) (l := ms))
    rw [List.length_append] at hsplit
    have hpos : 0 < (ms.takeWhile (isLabel ·.char)).length := by
      cases hl : ms.takeWhile (isLabel ·.char) with
      | nil => simp [hl] at hlabel
      | cons => simp
    have hskip := length_dropWhile_le (fun m : Mark => Text.isBlank m.char)
      (ms.dropWhile (isLabel ·.char))
    split at h
    · contradiction
    · next brace inside hgroup =>
      split at h
      · contradiction
      · split at h
        · simp only [Except.ok.injEq, Prod.mk.injEq] at h
          rw [← h.2, List.length_drop]
          simp only [Marks.skipBlank] at hgroup ⊢
          omega
        · contradiction

/-- All branches of a text, each after optional blanks. -/
def readBranches (pos : Nat) (ms : Marks) : Except BranchError (List PlacedBranch) :=
  if ms.skipBlank.isEmpty then .ok []
  else
    match h : readBranch (pos + (ms.length - ms.skipBlank.length)) ms.skipBlank with
    | .error e => .error e
    | .ok (b, rest) =>
      have := length_readBranch h
      match readBranches (pos + (ms.length - rest.length)) rest with
      | .error e => .error e
      | .ok bs => .ok (b :: bs)
termination_by ms.length
decreasing_by
  have := length_dropWhile_le (fun m : Mark => Text.isBlank m.char) ms
  simp only [Marks.skipBlank] at *
  omega

/-- The branches of a text that is a list of at least one branch and nothing else. -/
def branchList? (pos : Nat) (ms : Marks) : Option (List PlacedBranch) :=
  match readBranches pos ms with
  | .ok (b :: bs) => some (b :: bs)
  | _ => none

/-- The branches between two positions of a marked pattern. Reading that comes to the end of the
pattern before the second position looks for a character there. -/
def branchesFrom (ms : Marks) (start stop : Nat) :
    Except RangeError (Option (List PlacedBranch)) :=
  if stop < start then .ok none
  else
    match readBranches start (ms.slice start stop) with
    | .error .malformed => .ok none
    | .error .unfinished => if ms.length < stop then .error .outside else .ok none
    | .ok bs =>
      if ms.length < stop ∧ start < stop then .error .outside
      else .ok (if bs.isEmpty then none else some bs)

/-- The branches between two places. From a negative place on blanks are skipped to the end of the
pattern, and reading goes on at its start; there a label has to stand if not all were blank. -/
def branchesBetween (ms : Marks) (start stop : Int) :
    Except RangeError (Option (List PlacedBranch)) := do
  if 0 ≤ start then branchesFrom ms start.toNat stop.toNat
  else if stop ≤ start then return none
  else
    discard (charAt ms start)
    let tail := ms.drop (placeIn ms start).toNat
    let blank (m : Mark) : Bool := Text.isBlank m.char
    if stop ≤ 0 ∨ (!tail.all blank ∧ ms.head?.any blank) then return none
    else branchesFrom ms 0 stop.toNat

/-- Argument and keyword at the head of a group's inside, and what follows them: nothing, or a
comma and the rest. -/
structure Header where
  argument : Text
  keyword : Text
  rest : Marks

/-- The longest run of word characters at the head, and the marks after it. -/
def spanWord (ms : Marks) : Text × Marks :=
  (Marks.text (ms.takeWhile (Text.isWord ·.char)), ms.dropWhile (Text.isWord ·.char))

def Header.read? (inner : Marks) : Option Header :=
  let (argument, afterArgument) := spanWord inner.skipBlank
  match Marks.skipBlank afterArgument with
  | [] => none
  | comma :: afterComma =>
    let (keyword, afterKeyword) := spanWord (Marks.skipBlank afterComma)
    let rest := Marks.skipBlank afterKeyword
    if argument.isEmpty || comma.char ≠ ',' || keyword.isEmpty then none
    else
      match rest with
      | [] => some ⟨argument, keyword, []⟩
      | next :: _ => if next.char = ',' then some ⟨argument, keyword, rest⟩ else none

/-- What a construct does with its argument. -/
inductive Content where
  | choice (c : Choice) (branches : List Branch)
  | field (f : Field) (style : Option Text)
  deriving DecidableEq

def Content.kind : Content → Kind
  | .choice c _ => .choice c
  | .field f _ => .field f

end Construct

/-- A construct, its exact source text and where it stands. -/
structure Construct where
  argument : Text
  content : Construct.Content
  source : Text
  span : Span

namespace Construct

def kind (c : Construct) : Kind := c.content.kind

def branches (c : Construct) : List Branch :=
  match c.content with
  | .choice _ branches => branches
  | .field _ _ => []

def style (c : Construct) : Option Text :=
  match c.content with
  | .choice _ _ => none
  | .field _ style => style

/-- The branch bodies by label; of branches with one label the first counts. -/
def forms (c : Construct) : List (Text × Text) :=
  c.branches.foldl (fun forms b =>
    if forms.any (·.1 == b.label) then forms else forms ++ [(b.label, b.body)]) []

/-- The text between the two outer braces of a group. -/
def interior? (group : Marks) : Option Marks :=
  match group with
  | first :: rest =>
    match rest.getLast? with
    | some last => if first.char = '{' ∧ last.char = '}' then some rest.dropLast else none
    | none => none
  | [] => none

/-- The style of a field: the trimmed text after the second comma, unless it is blank. -/
def styleOf (rest : Marks) : Option Text :=
  let style := Text.trim (Marks.text (rest.drop 1))
  if style.isEmpty then none else some style

/-- What the text after the header says; a choice needs branches. -/
def contentOf? (kind : Kind) (rest : Marks) : Option Content :=
  match kind with
  | .field f => some (.field f (styleOf rest))
  | .choice c =>
    match rest with
    | [] => none
    | _ :: list => (branchList? 0 list).map fun bs => .choice c (bs.map (·.toBranch))

/-- The argument of a construct and what it does with it, from what stands between the two outer
braces. -/
def ofInterior? (inner : Marks) : Option (Text × Content) := do
  let header ← Header.read? inner
  let kind ← Kind.ofKeyword? header.keyword
  return (header.argument, ← contentOf? kind header.rest)

/-- Read a whole group at a position as a construct. -/
def ofGroup? (pos : Nat) (group : Marks) : Option Construct := do
  let (argument, content) ← ofInterior? (← interior? group)
  return ⟨argument, content, group.text, Span.ofLength pos group.length⟩

/-- The argument and the content of a construct between two places. The first and the last
character are looked at before anything else. -/
def contentBetween (ms : Marks) (start stop : Int) :
    Except RangeError (Option (Text × Content)) := do
  if stop < start + 2 then return none
  else if (← charAt ms start).char ≠ '{' then return none
  else if (← charAt ms (stop - 1)).char ≠ '}' then return none
  else return ofInterior? (ms.range (start + 1) (stop - 1))

/-- Why there is no answer for two places. -/
inductive PlaceError where
  | range (e : RangeError)
  | span (e : Span.Invalid)

/-- The construct with an argument and a content that was read between two places, as if it stood
somewhat further on. -/
def placed (ms : Marks) (start stop offset : Int) (said : Text × Content) :
    Except Span.Invalid Construct := do
  let span ← Span.ofBounds (start + offset) (stop + offset)
  return ⟨said.1, said.2, (ms.range (placeIn ms start) stop).text, span⟩

/-- Whether the inside of a group opens with an argument and a known keyword, whatever follows
them. -/
def resembles (inner : Marks) : Bool :=
  match Header.read? inner with
  | some header => (Kind.ofKeyword? header.keyword).isSome
  | none => false

/-- Whether the text between two places opens with an argument and a known keyword, whatever
follows them. -/
def looksLike (ms : Marks) (start stop : Int) : Except RangeError Bool :=
  match Header.read? (ms.range (start + 1) (stop - 1)) with
  | none => .ok false
  | some header =>
    if header.rest.isEmpty ∧ ms.length < stop - 1 then .error .outside
    else .ok (Kind.ofKeyword? header.keyword).isSome

/-- Read a whole text as a construct that stands somewhere. -/
def parse? (source : Text) (offset : Int) : Except Span.Invalid (Option Construct) :=
  match ofGroup? 0 (mark source) with
  | none => .ok none
  | some c => return some { c with span := ← c.span.shift offset }

/-- Read a whole text as a list of branches. -/
def parseBranches? (source : Text) : Option (List Branch) :=
  (branchList? 0 (mark source)).map fun bs => bs.map (·.toBranch)

end Construct

end Parlance
