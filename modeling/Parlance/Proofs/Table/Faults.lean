import Parlance.Proofs.MapStore.Document
import Parlance.Proofs.Protection.Oversized
import Parlance.Table.Import
/-!
What imports fail with. A text may be no table and a header may lack a column; beyond that, only a
cell that is restored from a map with an oversized key fails, and then the whole import does
(restoring_fails_iff_oversized). Such maps can be loaded from documents (oversized_welcome).
-/

namespace Parlance.Table

open Protection

namespace ImportError

/-- What tables may be expected to fail with. -/
def Foreseen : ImportError → Prop
  | unreadable _ => True
  | issue found => found.family = .table
  | fault _ => False

end ImportError

/-- The cell of a culture is restored from a map with an oversized key. -/
def OversizedCell (store : MapStore) (columns : Columns) (record : List Text) (culture : Text) :
    Prop :=
  ∃ i, columns.cultures.get? culture = some i ∧ record.getD i [] ≠ [] ∧
    ∃ map, store.lookup (record.getD columns.space []) (record.getD columns.key []) culture =
      some map ∧ ∃ key ∈ map.keys, Oversized key

/-- A record that is not too short has such a cell. -/
def OversizedRecord (store : MapStore) (columns : Columns) (cultures : List Text)
    (record : List Text) : Prop :=
  columns.count ≤ record.length ∧ ∃ culture ∈ cultures, OversizedCell store columns record culture

/-- A text is a table with such a record, below a header with the columns of the keys. -/
def OversizedTable (delimiter : Char) (store : MapStore) (targets? : Option (List Text))
    (t : Text) : Prop :=
  ∃ header records columns, Delimited.read delimiter t = .ok (header :: records) ∧
    Columns.ofHeader header = .ok columns ∧
    ∃ record ∈ records,
      OversizedRecord store columns (targets?.getD columns.cultures.keys) record

section Cells

variable {store : MapStore} {columns : Columns} {record : List Text} {fault : Fault}

theorem restoreCell_eq_error_iff {space key culture cell : Text} :
    restoreCell (some store) space key culture cell = .error fault ↔
      fault = .oversizedNumeral ∧
        ∃ map, store.lookup space key culture = some map ∧ ∃ key ∈ map.keys, Oversized key := by
  rw [restoreCell, Option.bind_some]
  cases store.lookup space key culture with
  | none => simp
  | some map => simp [restore_eq_error_iff]

theorem readCell_eq_error_iff {culture : Text} :
    readCell (some store) columns record culture = .error fault ↔
      fault = .oversizedNumeral ∧ OversizedCell store columns record culture := by
  rw [readCell, OversizedCell]
  cases columns.cultures.get? culture with
  | none => simp
  | some i =>
    simp only [Option.some.injEq, exists_eq_left', ne_eq, ← List.isEmpty_iff]
    split
    · next hempty => simp only [hempty, not_true, false_and, and_false, reduceCtorEq]
    · next hempty =>
      rw [bind_pure_eq_error_iff, restoreCell_eq_error_iff, and_iff_right hempty]

theorem readRecord_eq_error_iff {cultures : List Text} :
    readRecord (some store) columns cultures record = .error fault ↔
      fault = .oversizedNumeral ∧ OversizedRecord store columns cultures record := by
  rw [readRecord, OversizedRecord]
  split
  · next hshort => simp [Nat.not_le_of_lt hshort]
  · next hlong =>
    rw [bind_pure_eq_error_iff, mapM_eq_error_iff fun culture _ _ => readCell_eq_error_iff,
      and_iff_right (Nat.le_of_not_lt hlong)]

end Cells

section Tables

variable {delimiter : Char} {store : MapStore} {targets? : Option (List Text)} {t : Text}

theorem Columns.family_of_indexOf {names : List Text} {name : Text} {issue : Issue}
    (h : indexOf names name = .error issue) : issue.family = .table := by
  unfold indexOf at h
  split at h <;> cases h
  rfl

theorem Columns.family_of_ofHeader {header : List Text} {issue : Issue}
    (h : ofHeader header = .error issue) : issue.family = .table := by
  rcases of_bind_eq_error h with hkey | ⟨key, -, h⟩
  · exact family_of_indexOf hkey
  · rcases of_bind_eq_error h with hspace | ⟨space, -, h⟩
    · exact family_of_indexOf hspace
    · cases h

theorem importDelimited_of_oversized (h : OversizedTable delimiter store targets? t) :
    importDelimited delimiter (some store) targets? t = .error (.fault .oversizedNumeral) := by
  obtain ⟨header, records, columns, hread, hheader, record, hrecord, hoversized⟩ := h
  cases records with
  | nil => exact absurd hrecord List.not_mem_nil
  | cons first rest =>
    have hfault : (first :: rest).mapM
        (readRecord (some store) columns (targets?.getD columns.cultures.keys)) =
          .error .oversizedNumeral :=
      (mapM_eq_error_iff (fun _ _ _ => readRecord_eq_error_iff) _).2
        ⟨rfl, record, hrecord, hoversized⟩
    simp only [importDelimited, hread, hheader, hfault]

theorem foreseen_of_not_oversized (h : ¬OversizedTable delimiter store targets? t)
    {error : ImportError}
    (herror : importDelimited delimiter (some store) targets? t = .error error) :
    error.Foreseen := by
  unfold importDelimited at herror
  split at herror
  · next e _ =>
    cases herror
    exact trivial
  · next header first rest hread =>
    split at herror
    · next issue hheader =>
      cases herror
      exact Columns.family_of_ofHeader hheader
    · next columns hheader =>
      simp only at herror
      split at herror
      · next fault hfault =>
        obtain ⟨-, hoversized⟩ :=
          (mapM_eq_error_iff (fun _ _ _ => readRecord_eq_error_iff) fault).1 hfault
        exact absurd ⟨header, first :: rest, columns, hread, hheader, hoversized⟩ h
      · cases herror
  · cases herror

end Tables

/-- A map restores every text or none, and none exactly if it has an oversized key. An import fails
with a fault exactly if some cell is restored from such a map; all else that it may fail with is
foreseen. -/
theorem restoring_fails_iff_oversized (map : PlaceholderMap) (delimiter : Char) (store : MapStore)
    (targets? : Option (List Text)) (t : Text) :
    ((∃ key ∈ map.keys, Oversized key) → restore map t = .error .oversizedNumeral) ∧
    ((¬∃ key ∈ map.keys, Oversized key) → ∃ u, restore map t = .ok u) ∧
    (OversizedTable delimiter store targets? t →
      importDelimited delimiter (some store) targets? t = .error (.fault .oversizedNumeral)) ∧
    (¬OversizedTable delimiter store targets? t →
      ∀ error, importDelimited delimiter (some store) targets? t = .error error →
        error.Foreseen) := by
  refine ⟨fun h => ?_, fun h => exists_restore_of_not_oversized h t,
    importDelimited_of_oversized, fun h error => foreseen_of_not_oversized h⟩
  exact (restore_eq_error_iff t).2 ⟨rfl, h⟩

section Welcome

/-- One zero more than a number may have digits. -/
def manyZeros : Text.FilledRun Text.isDigit :=
  ⟨⟨List.replicate (numberLimit + 1) '0',
    fun _ hc => Text.isDigit_of_ascii (by rw [List.eq_of_mem_replicate hc]; rfl)⟩,
    List.cons_ne_nil _ _⟩

theorem oversized_manyZeros : Oversized (numberedKey manyZeros) := by
  refine ⟨manyZeros, ?_, rfl⟩
  rw [manyZeros, List.length_replicate]
  exact Nat.lt_succ_self _

/-- A map whose only key is an oversized one. -/
def zerosMap : PlaceholderMap := ⟨[(numberedKey manyZeros, "y")], List.pairwise_singleton _ _⟩

/-- The map of a source text. -/
def zerosStore : MapStore :=
  ⟨[(MapStore.key "Menu" "Welcome" [], zerosMap)], List.pairwise_singleton _ _⟩

/-- A store that is loaded from a document restores no text, not even one without digits, and a
well-formed table cannot be imported with it. -/
theorem oversized_welcome :
    (∀ limit, MapStore.ofDocument limit (zerosStore.toDocument .line) = .ok zerosStore) ∧
      zerosStore.get? (MapStore.key "Menu" "Welcome" []) = some zerosMap ∧
      restore zerosMap "x" = .error .oversizedNumeral ∧
      importDelimited '\t' (some zerosStore) none "Key\tNamespace\tde\nWelcome\tMenu\tx\n" =
        .error (.fault .oversizedNumeral) := by
  have hkey : ∃ key ∈ zerosMap.keys, Oversized key :=
    ⟨_, List.mem_singleton_self _, oversized_manyZeros⟩
  have hload (limit : Json.Limit) :
      MapStore.ofDocument limit (zerosStore.toDocument .line) = .ok zerosStore :=
    MapStore.ofDocument_eq_ok (MapStore.loaded_toDocument limit zerosStore .line)
  refine ⟨hload, rfl, (restore_eq_error_iff _).2 ⟨rfl, hkey⟩, importDelimited_of_oversized ?_⟩
  refine ⟨["Key", "Namespace", "de"], [["Welcome", "Menu", "x"]], _, rfl, rfl, _,
    List.mem_singleton_self _, by decide, "de", ?_, 2, rfl, by decide, zerosMap, rfl, hkey⟩
  exact List.mem_singleton_self _

end Welcome

end Parlance.Table
