import Parlance.MapStore.Document
import Parlance.Proofs.Json.Quoted
import Parlance.Proofs.Protection.Offers
import Parlance.Proofs.Table.RoundTrip
import Parlance.Proofs.Text.Numeral
/-!
The characters of written tables and of written placeholder maps: those of the texts that went in,
and the marks of the format. Neither holds a carriage return of its own (not_mem_content,
not_mem_toDocument); in the maps even those of the texts are escaped.
-/

namespace Parlance

open Brace

variable {c : Char} {t : Text}

namespace Text

theorem mem_or_exists_of_mem_intercalate {separator : Text} {ts : List Text}
    (h : c ∈ separator.intercalate ts) : c ∈ separator ∨ ∃ t ∈ ts, c ∈ t := by
  induction ts with
  | nil => cases h
  | cons t ts ih =>
    cases ts with
    | nil =>
      rw [List.intercalate_singleton] at h
      exact Or.inr ⟨t, List.mem_cons_self, h⟩
    | cons u ts =>
      rw [List.intercalate_cons_cons, List.mem_append, List.mem_append] at h
      rcases h with (h | h) | h
      · exact Or.inr ⟨t, List.mem_cons_self, h⟩
      · exact Or.inl h
      · exact (ih h).imp_right fun ⟨v, hv, hc⟩ => ⟨v, List.mem_cons_of_mem t hv, hc⟩

theorem not_mem_ofInt (n : Int) : '\r' ∉ ofInt n := by
  have hdigits (n : Nat) : '\r' ∉ ofNat n := by
    intro h
    exact absurd (isDigit_of_mem_ofNat h) (by decide)
  cases n with
  | ofNat n => exact hdigits n
  | negSucc n => simp [ofInt, hdigits]

end Text

namespace Json

/-- Around members stand braces, commas, colons, blanks and line feeds. -/
def marks : Text := ['{', '}', ',', ':', ' ', '\n']

theorem mem_marks_of_mem_newLine {layout : Layout} {level : Nat} (h : c ∈ layout.newLine level) :
    c ∈ marks := by
  cases layout with
  | line => cases h
  | lines indent =>
    rcases List.mem_cons.1 h with rfl | h
    · decide
    · rw [List.eq_of_mem_replicate h]
      decide

theorem mem_marks_of_mem_separator {layout : Layout} {level : Nat}
    (h : c ∈ layout.separator level) : c ∈ marks := by
  cases layout with
  | line => exact List.Sublist.mem (show c ∈ [',', ' '] from h) (by decide)
  | lines indent =>
    rcases List.mem_cons.1 h with rfl | h
    · decide
    · exact mem_marks_of_mem_newLine h

/-- A character of a written object is a mark, or stands in a key or in a value. -/
theorem mem_writeObject {layout : Layout} {level : Nat} {members : List (Text × Text)}
    (h : c ∈ writeObject layout level members) :
    c ∈ marks ∨ ∃ member ∈ members, c ∈ quoted member.1 ∨ c ∈ member.2 := by
  rw [writeObject] at h
  split at h
  · exact Or.inl (List.Sublist.mem h (by decide))
  · simp only [List.cons_append, List.mem_cons, List.mem_append, List.not_mem_nil, or_false] at h
    rcases h with rfl | ((h | h) | h) | rfl
    · exact Or.inl (by decide)
    · exact Or.inl (mem_marks_of_mem_newLine h)
    · rcases Text.mem_or_exists_of_mem_intercalate h with h | ⟨written, hwritten, h⟩
      · exact Or.inl (mem_marks_of_mem_separator h)
      · obtain ⟨member, hmember, rfl⟩ := List.mem_map.1 hwritten
        rw [writeMember, List.mem_append, List.mem_append] at h
        rcases h with (h | h) | h
        · exact Or.inr ⟨member, hmember, Or.inl h⟩
        · exact Or.inl (List.Sublist.mem h (by decide))
        · exact Or.inr ⟨member, hmember, Or.inr h⟩
    · exact Or.inl (mem_marks_of_mem_newLine h)
    · exact Or.inl (by decide)

end Json

theorem MapStore.not_mem_toDocument (store : MapStore) (layout : Json.Layout) :
    '\r' ∉ store.toDocument layout := by
  intro h
  have hmarks : '\r' ∉ Json.marks := by decide
  have hquoted (t : Text) : '\r' ∉ Json.quoted t := by
    intro h
    exact absurd (Json.code_of_mem_quoted h) (by decide)
  rcases Json.mem_writeObject h with h | ⟨member, hmember, h | h⟩
  · exact hmarks h
  · exact hquoted _ h
  · obtain ⟨entry, -, rfl⟩ := List.mem_map.1 hmember
    rcases Json.mem_writeObject h with h | ⟨inner, hinner, h | h⟩
    · exact hmarks h
    · exact hquoted _ h
    · obtain ⟨entry', -, rfl⟩ := List.mem_map.1 hinner
      exact hquoted _ h

namespace Protection

/-- A character of a numbered text stands in a piece or is one of a token. -/
theorem mem_numbered {index : Nat} {pieces : List (Piece Placed)} (h : c ∈ numbered index pieces) :
    c ∈ pieces.flatMap (Piece.text Placed.source) ∨ ∃ i, c ∈ token i := by
  induction pieces generalizing index with
  | nil => cases h
  | cons piece rest ih =>
    rw [List.flatMap_cons, List.mem_append]
    cases piece with
    | literal u =>
      rcases List.mem_append.1 h with h | h
      · exact Or.inl (Or.inl h)
      · exact (ih h).imp_left Or.inr
    | found p =>
      rcases List.mem_append.1 h with h | h
      · exact Or.inr ⟨index, h⟩
      · exact (ih h).imp_left Or.inr

/-- Protecting adds braces and digits and nothing else. -/
theorem mem_replaced {kinds : Placeholder.Kinds} (h : c ∈ (protect kinds t).replaced) :
    c ∈ t ∨ c ∈ ['{', '}'] ∨ Text.isDigit c := by
  rcases mem_numbered h with h | ⟨i, h⟩
  · rw [pieces, Piece.flatMap_cut (exact_find kinds)] at h
    exact Or.inl h
  · rw [token, List.cons_append, List.mem_cons, List.mem_append] at h
    rcases h with rfl | h | h
    · exact Or.inr (Or.inl (by decide))
    · exact Or.inr (Or.inr (Text.isDigit_of_mem_ofNat h))
    · exact Or.inr (Or.inl (List.mem_cons_of_mem _ h))

theorem not_mem_replaced {kinds : Placeholder.Kinds} (h : '\r' ∉ t) :
    '\r' ∉ (protect kinds t).replaced := by
  intro hmem
  rcases mem_replaced hmem with hmem | hmem | hmem
  · exact h hmem
  · exact absurd hmem (by decide)
  · exact absurd hmem (by decide)

end Protection

namespace Table

theorem Delimited.mem_writeField {delimiter : Char} {field : Text}
    (h : c ∈ writeField delimiter field) : c ∈ field ∨ c = '"' := by
  rw [writeField] at h
  split at h
  · rw [quoted, List.cons_append, List.mem_cons, List.mem_append, List.mem_singleton,
      Text.substitute, List.mem_flatMap] at h
    rcases h with h | ⟨d, hd, h⟩ | h
    · exact Or.inr h
    · split at h
      · exact Or.inr (List.eq_of_mem_replicate (show c ∈ List.replicate 2 '"' from h))
      · exact Or.inl (List.mem_singleton.1 h ▸ hd)
    · exact Or.inr h
  · exact Or.inl h

/-- A character of a written table stands in a field, or it is a delimiter, a quote or a line
feed. -/
theorem Delimited.mem_write {delimiter : Char} {records : List (List Text)}
    (h : c ∈ write delimiter records) :
    (∃ record ∈ records, ∃ field ∈ record, c ∈ field) ∨ c ∈ [delimiter, '"', '\n'] := by
  obtain ⟨record, hrecord, h⟩ := List.mem_flatMap.1 h
  rw [writeRecord, List.mem_append] at h
  rcases h with h | h
  · rcases Text.mem_or_exists_of_mem_intercalate h with h | ⟨written, hwritten, h⟩
    · rw [List.mem_singleton.1 h]
      exact Or.inr List.mem_cons_self
    · obtain ⟨field, hfield, rfl⟩ := List.mem_map.1 hwritten
      rcases mem_writeField h with h | rfl
      · exact Or.inl ⟨record, hrecord, field, hfield, h⟩
      · exact Or.inr (by simp)
  · rw [List.mem_singleton.1 h]
    exact Or.inr (by simp)

/-- The texts of an entry that go into a table of some cultures. -/
def Entry.texts (e : Entry) (cultures : List Text) : List Text :=
  [e.space, e.key, e.source, e.category, e.context.getD [], e.comment.getD []] ++
    cultures.map e.localized

/-- No text that goes into a table holds a carriage return. -/
def Unbroken (entries : List Entry) (cultures : List Text) : Prop :=
  (∀ culture ∈ cultures, '\r' ∉ culture) ∧ ∀ e ∈ entries, ∀ t ∈ e.texts cultures, '\r' ∉ t

/-- The delimiter of a format of delimited text. -/
def Format.delimiter? : Format → Option Char
  | .tsv => some '\t'
  | .csv => some ','
  | .html => none

section Content

variable {kinds : Placeholder.Kinds} {entries : List Entry} {cultures : List Text}

theorem not_mem_cells {e : Entry} (h : ∀ t ∈ e.texts cultures, '\r' ∉ t) {field : Text}
    (hfield : field ∈
      (e.mapTexts (fun t => (Protection.protect kinds t).replaced) cultures).writtenCells
        cultures) :
    '\r' ∉ field := by
  rw [Entry.writtenCells, Entry.cellsWith, List.append_assoc, List.mem_append, List.mem_append]
    at hfield
  rcases hfield with hfield | hfield | hfield
  · simp only [Entry.mapTexts, List.mem_cons, List.not_mem_nil, or_false] at hfield
    rcases hfield with rfl | rfl | rfl | rfl | rfl | rfl
    -- of these cells only that of the source is protected
    case inr.inr.inr.inl => exact Protection.not_mem_replaced (h _ (by simp [Entry.texts]))
    all_goals exact h _ (by simp [Entry.texts])
  · obtain ⟨culture, hculture, rfl⟩ := List.mem_map.1 hfield
    rw [Entry.localized_mapTexts _ e hculture]
    exact Protection.not_mem_replaced (h _ (List.mem_append_right _ (List.mem_map_of_mem hculture)))
  · have hlength :
        (e.mapTexts (fun t => (Protection.protect kinds t).replaced) cultures).maxLength =
          e.maxLength := rfl
    rw [List.mem_singleton.1 hfield, hlength]
    cases e.maxLength with
    | none => exact List.not_mem_nil
    | some n => exact Text.not_mem_ofInt n

/-- A table of texts without carriage returns holds none. -/
theorem not_mem_content (h : Unbroken entries cultures) {format : Format} {delimiter : Char}
    (hdelimiter : format.delimiter? = some delimiter) {x : Export}
    (hx : Export.inFormat kinds format entries cultures = .ok x) : '\r' ∉ x.content := by
  obtain ⟨hreturn, hformat⟩ : delimiter ≠ '\r' ∧ Export.inFormat kinds format entries cultures =
      Export.ofFlat (Flat.ofEntries kinds entries cultures) cultures
        (Delimited.write delimiter) := by
    cases format <;> cases hdelimiter <;> exact ⟨by decide, rfl⟩
  rw [hformat] at hx
  obtain ⟨-, rfl⟩ := Export.ofFlat_eq_ok_iff.1 hx
  intro hmem
  rcases Delimited.mem_write hmem with ⟨record, hrecord, field, hfield, hmem⟩ | hmem
  · rcases List.mem_cons.1 hrecord with rfl | hrow
    · have hfixed : '\r' ∉ fixedColumns.flatten := by decide
      rw [header, List.mem_append, List.mem_append] at hfield
      rcases hfield with (hfield | hfield) | hfield
      · exact hfixed (List.mem_flatten.2 ⟨field, List.mem_append_left _ hfield, hmem⟩)
      · exact h.1 field hfield hmem
      · exact hfixed (List.mem_flatten.2 ⟨field, List.mem_append_right _ hfield, hmem⟩)
    · simp only [Flat.ofEntries, List.map_map] at hrow
      obtain ⟨e, he, rfl⟩ := List.mem_map.1 hrow
      exact not_mem_cells (h.2 e he) hfield hmem
  · simp [hreturn.symm] at hmem

end Content

end Table

end Parlance
