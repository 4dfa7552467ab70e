import Mathlib.Data.List.Forall2
import Parlance.Json.Reading
import Parlance.Json.Writing
import Parlance.Proofs.Json.Quoted
/-!
Written objects are read back in every layout (reads_writeObject). A layout puts nothing but blanks
around members, and reading skips blanks wherever a layout puts them.
-/

namespace Parlance.Json

/-- A reader reads a text as a value, whatever follows the text. No blank is skipped for it. -/
structure Reads {α : Type} (r : Reader α) (w : Text) (a : α) : Prop where
  solid : w.head?.any (!isBlank ·)
  read_append : ∀ rest, r.read (w ++ rest) = .ok (a, rest)

section Blanks

variable {blanks t : Text}

theorem skipBlank_append (h : blanks.all isBlank) (t : Text) :
    skipBlank (blanks ++ t) = skipBlank t :=
  List.dropWhile_append_of_pos fun _ hc => List.all_eq_true.1 h _ hc

theorem skipBlank_cons {c : Char} (h : isBlank c = false) (t : Text) :
    skipBlank (c :: t) = c :: t :=
  List.dropWhile_cons_of_neg (by simp [h])

theorem skipBlank_of_solid (h : t.head?.any (!isBlank ·)) (rest : Text) :
    skipBlank (t ++ rest) = t ++ rest := by
  cases t with
  | nil => cases h
  | cons c t => exact skipBlank_cons (by simpa using h) (t ++ rest)

end Blanks

namespace Layout

variable (layout : Layout) (level : Nat)

theorem all_isBlank_newLine : (layout.newLine level).all isBlank := by
  cases layout with
  | line => rfl
  | lines indent =>
    rw [newLine, List.all_cons, List.all_replicate]
    split <;> rfl

/-- Between members stands a comma and blanks. -/
theorem exists_separator_eq :
    ∃ blanks : Text, layout.separator level = ',' :: blanks ∧ blanks.all isBlank := by
  cases layout with
  | line => exact ⟨[' '], rfl, rfl⟩
  | lines indent => exact ⟨(lines indent).newLine level, rfl, all_isBlank_newLine _ level⟩

end Layout

section Items

variable {α : Type} {item : Reader α} {close : Char} {t w rest after : Text} {a : α} {blanks : Text}

theorem readItems_of_error {e : ReadError} (h : item.read t = .error e) (close : Char) :
    readItems item close t = .error e := by
  rw [readItems]
  split
  · next e' herror => exact congrArg _ (Except.error.inj (herror.symm.trans h))
  · next a after hread => cases hread.symm.trans h

/-- The closing bracket ends the items. -/
theorem readItems_of_close (h : item.read t = .ok (a, after))
    (hclose : skipBlank after = close :: rest) : readItems item close t = .ok ([a], rest) := by
  rw [readItems]
  split
  · next e herror => cases herror.symm.trans h
  · next a' after' hread =>
    cases hread.symm.trans h
    split
    · next hnil => cases hnil.symm.trans hclose
    · next c more hcons =>
      cases hcons.symm.trans hclose
      rw [if_pos rfl]

/-- Behind a comma there are more items. -/
theorem readItems_of_comma (h : item.read t = .ok (a, after))
    (hcomma : skipBlank after = ',' :: rest) (hne : close ≠ ',') :
    readItems item close t =
      (readItems item close (skipBlank rest)).map fun (items, rest) => (a :: items, rest) := by
  rw [readItems]
  split
  · next e herror => cases herror.symm.trans h
  · next a' after' hread =>
    cases hread.symm.trans h
    split
    · next hnil => cases hnil.symm.trans hcomma
    · next c more hcons =>
      cases hcons.symm.trans hcomma
      rw [if_neg (Ne.symm hne), if_pos rfl]

/-- The last item stands before the closing bracket. -/
theorem readItems_last (h : Reads item w a) (hblanks : blanks.all isBlank)
    (hclose : isBlank close = false) (rest : Text) :
    readItems item close (w ++ (blanks ++ close :: rest)) = .ok ([a], rest) := by
  apply readItems_of_close (h.read_append _)
  rw [skipBlank_append hblanks, skipBlank_cons hclose]

/-- An item before a comma is followed by more items. -/
theorem readItems_cons (h : Reads item w a) (hblanks : blanks.all isBlank) (hclose : close ≠ ',')
    (t : Text) :
    readItems item close (w ++ (',' :: blanks ++ t)) =
      (readItems item close (skipBlank t)).map fun (items, rest) => (a :: items, rest) := by
  rw [← skipBlank_append hblanks t]
  exact readItems_of_comma (h.read_append _) (skipBlank_cons (by decide) _) hclose

variable {ws : List Text} {as : List α}

theorem exists_intercalate_cons (separator w : Text) (ws : List Text) :
    ∃ u, separator.intercalate (w :: ws) = w ++ u := by
  cases ws with
  | nil => exact ⟨[], by rw [List.intercalate_singleton, List.append_nil]⟩
  | cons w' ws => exact ⟨_, List.intercalate_cons_cons.trans (List.append_assoc ..)⟩

/-- Items with separators between them are read up to the closing bracket. -/
theorem readItems_intercalate (hitems : List.Forall₂ (Reads item) ws as) (hne : ws ≠ [])
    {separator : Text} (hseparator : ∃ gap : Text, separator = ',' :: gap ∧ gap.all isBlank)
    (hblanks : blanks.all isBlank) (hcomma : close ≠ ',') (hclose : isBlank close = false)
    (rest : Text) :
    readItems item close (separator.intercalate ws ++ (blanks ++ close :: rest)) =
      .ok (as, rest) := by
  obtain ⟨gap, rfl, hgap⟩ := hseparator
  induction hitems with
  | nil => exact absurd rfl hne
  | @cons w a ws as hfirst hrest ih =>
    cases hrest with
    | nil => rw [List.intercalate_singleton, readItems_last hfirst hblanks hclose]
    | @cons w' a' ws as hsecond hmore =>
      obtain ⟨u, hu⟩ := exists_intercalate_cons (',' :: gap) w' ws
      have hread := ih (List.cons_ne_nil _ _)
      rw [hu, List.append_assoc] at hread
      rw [List.intercalate_cons_cons, hu, List.append_assoc, List.append_assoc, List.append_assoc,
        readItems_cons hfirst hgap hcomma, skipBlank_of_solid hsecond.solid, hread]
      rfl

/-- A list whose first item begins with a character other than the closing bracket. -/
theorem readList_of_head? (hblanks : blanks.all isBlank) {c : Char} (hc : isBlank c = false)
    (hclose : c ≠ close) {t : Text} (ht : t.head? = some c) :
    readList item close (blanks ++ t) = readItems item close t := by
  obtain ⟨rest, rfl⟩ := List.head?_eq_some_iff.1 ht
  rw [readList, skipBlank_append hblanks, skipBlank_cons hc]
  exact if_neg hclose

end Items

section Objects

variable {inner : Reader Json} {layout : Layout} {level : Nat}

theorem reads_quoted (inner? : Option (Reader Json)) (t : Text) :
    Reads ⟨readValue inner?, length_readValue⟩ (quoted t) (.text (.ofText t)) where
  solid := rfl
  read_append rest := by
    change readValue inner? (quoted t ++ rest) = .ok (.text (.ofText t), rest)
    rw [quoted_append]
    simp only [readValue, if_pos, readCharacters_flatMap]
    rfl

/-- A member is read as its key and what its value is read as. -/
theorem reads_writeMember {w : Text × Text} {m : Letters × Json} (hkey : .ofText w.1 = m.1)
    (h : Reads inner w.2 m.2) : Reads (member inner) (writeMember w) m where
  solid := rfl
  read_append rest := by
    change readMember inner (writeMember w ++ rest) = .ok (m, rest)
    have hcolon : skipBlank (':' :: (' ' :: (w.2 ++ rest))) = ':' :: (' ' :: (w.2 ++ rest)) :=
      skipBlank_cons (by decide) _
    have hvalue : skipBlank (' ' :: (w.2 ++ rest)) = w.2 ++ rest := by
      rw [← List.singleton_append, skipBlank_append (by decide), skipBlank_of_solid h.solid]
    have hwritten : writeMember w ++ rest = quoted w.1 ++ (':' :: (' ' :: (w.2 ++ rest))) := by
      simp only [writeMember, List.append_assoc, List.cons_append, List.nil_append]
    simp only [readMember, hwritten, readQuoted_quoted, hcolon, if_pos, hvalue, h.read_append, hkey]
    rfl

/-- An object is read as its members in their order, in every layout. -/
theorem reads_writeObject {written : List (Text × Text)} {members : List (Letters × Json)}
    (h : List.Forall₂ (fun w m => .ofText w.1 = m.1 ∧ Reads inner w.2 m.2) written members) :
    Reads ⟨readValue (some inner), length_readValue⟩ (writeObject layout level written)
      (.object members) where
  solid := by
    rw [writeObject]
    split <;> rfl
  read_append rest := by
    change readValue (some inner) (writeObject layout level written ++ rest) =
      .ok (.object members, rest)
    have hitems : List.Forall₂ (Reads (member inner)) (written.map writeMember) members := by
      rw [List.forall₂_map_left_iff]
      exact h.imp fun w m hmember => reads_writeMember hmember.1 hmember.2
    cases written with
    | nil =>
      cases h
      rfl
    | cons w written =>
      let start := layout.newLine (level + 1)
      let items := (layout.separator (level + 1)).intercalate ((w :: written).map writeMember)
      have htext : writeObject layout level (w :: written) ++ rest =
          '{' :: (start ++ (items ++ (layout.newLine level ++ '}' :: rest))) := by
        simp only [writeObject, List.isEmpty_cons, Bool.false_eq_true, if_false, List.append_assoc,
          List.cons_append, List.nil_append, start, items]
      have hread : readItems (member inner) '}' (items ++ (layout.newLine level ++ '}' :: rest)) =
          .ok (members, rest) :=
        readItems_intercalate hitems (by simp) (layout.exists_separator_eq (level + 1))
          (layout.all_isBlank_newLine level) (by decide) (by decide) rest
      obtain ⟨u, hu⟩ := exists_intercalate_cons (layout.separator (level + 1)) (writeMember w)
        (written.map writeMember)
      have hhead : (items ++ (layout.newLine level ++ '}' :: rest)).head? = some '"' := by
        simp only [items, List.map_cons, hu]
        rfl
      rw [htext]
      simp only [readValue, Char.reduceEq, if_false, if_true]
      rw [readList_of_head? (layout.all_isBlank_newLine (level + 1)) (by decide) (by decide) hhead,
        hread]
      rfl

end Objects

end Parlance.Json
