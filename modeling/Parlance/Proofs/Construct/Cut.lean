import Parlance.Construct
import Parlance.Proofs.Brace.Cut
/-!
Reading a part of a marked pattern in place. No reader asks for a group that goes beyond the end of
what it reads, so it makes no difference to a reader if such groups are taken not to close
(readBranches_clip, ofInterior?_clip, resembles_clip). A part that was marked with the whole pattern
then reads like the part marked alone (ofInterior?_take_mark).
-/

namespace Parlance.Construct

open Brace

theorem readBranches_eq (pos : Nat) (ms : Marks) :
    readBranches pos ms =
      if ms.skipBlank.isEmpty then .ok []
      else do
        let (b, rest) ← readBranch (pos + (ms.length - ms.skipBlank.length)) ms.skipBlank
        let bs ← readBranches (pos + (ms.length - rest.length)) rest
        return b :: bs := by
  rw [readBranches]
  split
  · rfl
  · split
    · next hbranch =>
      simp only [hbranch]
      rfl
    · next b rest hbranch =>
      simp only [hbranch]
      change _ = Except.bind (readBranches _ rest) fun bs => .ok (b :: bs)
      cases readBranches (pos + (ms.length - rest.length)) rest <;> rfl

theorem readBranch_clip (pos : Nat) (ms : Marks) :
    readBranch pos ms.clip = (readBranch pos ms).map fun read => (read.1, read.2.clip) := by
  have hlabel : Marks.text (ms.clip.takeWhile (isLabel ·.char)) =
      Marks.text (ms.takeWhile (isLabel ·.char)) := by
    rw [Marks.text_takeWhile, Marks.text_takeWhile, Marks.text_clip]
  have hempty : (ms.clip.takeWhile (isLabel ·.char)).isEmpty =
      (ms.takeWhile (isLabel ·.char)).isEmpty := by
    rw [← Marks.isEmpty_text, hlabel, Marks.isEmpty_text]
  rw [readBranch, readBranch, hlabel, hempty, Marks.dropWhile_clip, Marks.skipBlank_clip,
    Marks.length_clip]
  split
  · rfl
  · cases Marks.skipBlank (ms.dropWhile (isLabel ·.char)) with
    | nil => rfl
    | cons brace inside =>
      simp only [Marks.clip]
      cases hreach : brace.reach with
      | none => rfl
      | some n =>
        split
        · next hnone =>
          rw [Option.filter_eq_none_iff] at hnone
          have hbeyond : ¬(brace.char = '{' ∧ n ≤ (brace :: inside).length) := fun h =>
            hnone n rfl (decide_eq_true h.2)
          simp only [if_neg hbeyond]
          rfl
        · next n' hsome =>
          obtain ⟨hn, -⟩ := Option.filter_eq_some_iff.1 hsome
          obtain rfl := Option.some.inj hn
          have hrest := Marks.drop_clip (brace :: inside) n
          rw [Marks.clip, hreach] at hrest
          simp only [List.length_cons, Marks.length_clip, Marks.text_take_clip, hrest]
          split <;> rfl

/-- Branches of a part are read without a look beyond its end. -/
theorem readBranches_clip (pos : Nat) (ms : Marks) :
    readBranches pos ms.clip = readBranches pos ms := by
  rw [readBranches_eq, readBranches_eq, Marks.skipBlank_clip, Marks.isEmpty_clip,
    Marks.length_clip, Marks.length_clip, readBranch_clip]
  split
  · rfl
  · cases hbranch : readBranch (pos + (ms.length - ms.skipBlank.length)) ms.skipBlank with
    | error e => rfl
    | ok read =>
      obtain ⟨b, rest⟩ := read
      have hskip : ms.skipBlank.length ≤ ms.length := length_dropWhile_le _ ms
      have hshorter : rest.length < ms.length :=
        Nat.lt_of_lt_of_le (length_readBranch hbranch) hskip
      change (readBranches (pos + (ms.length - rest.clip.length)) rest.clip).bind _ =
        (readBranches (pos + (ms.length - rest.length)) rest).bind _
      rw [Marks.length_clip, readBranches_clip _ rest]
termination_by ms.length

section Clip

variable (ms : Marks)

theorem spanWord_clip : spanWord ms.clip = ((spanWord ms).1, (spanWord ms).2.clip) := by
  rw [spanWord, Marks.text_takeWhile, Marks.text_clip, ← Marks.text_takeWhile,
    Marks.dropWhile_clip]
  rfl

theorem Header.read?_clip :
    Header.read? ms.clip = (Header.read? ms).map fun h => { h with rest := h.rest.clip } := by
  simp only [Header.read?, Marks.skipBlank_clip, spanWord_clip]
  cases Marks.skipBlank (spanWord ms.skipBlank).2 with
  | nil => rfl
  | cons comma afterComma =>
    simp only [Marks.clip, Marks.skipBlank_clip, spanWord_clip]
    split
    · rfl
    · cases Marks.skipBlank (spanWord (Marks.skipBlank afterComma)).2 with
      | nil => rfl
      | cons next rest =>
        simp only [Marks.clip]
        split <;> rfl

theorem branchList?_clip (pos : Nat) : branchList? pos ms.clip = branchList? pos ms := by
  rw [branchList?, branchList?, readBranches_clip]

theorem contentOf?_clip (kind : Kind) : contentOf? kind ms.clip = contentOf? kind ms := by
  cases kind with
  | field f => rw [contentOf?, contentOf?, styleOf, styleOf, Marks.drop_clip, Marks.text_clip]
  | choice c =>
    cases ms with
    | nil => rfl
    | cons comma list => simp only [contentOf?, Marks.clip, branchList?_clip]

theorem ofInterior?_clip : ofInterior? ms.clip = ofInterior? ms := by
  rw [ofInterior?, ofInterior?, Header.read?_clip]
  cases Header.read? ms with
  | none => rfl
  | some header =>
    simp only [Option.map_some, Option.bind_eq_bind, Option.bind_some, contentOf?_clip]

theorem resembles_clip : resembles ms.clip = resembles ms := by
  rw [resembles, resembles, Header.read?_clip]
  cases Header.read? ms <;> rfl

/-- The inside of a construct says the same in place and cut out. -/
theorem ofInterior?_take_mark (t u : Text) :
    ofInterior? ((mark (t ++ u)).take t.length) = ofInterior? (mark t) := by
  rw [← ofInterior?_clip, clip_take_mark]

end Clip

end Parlance.Construct
