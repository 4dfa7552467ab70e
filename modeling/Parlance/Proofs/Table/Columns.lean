import Mathlib.Data.List.Nodup
import Parlance.Proofs.Protection.Foreign
import Parlance.Proofs.Traverse
import Parlance.Table.Export
import Parlance.Table.Import
/-!
The columns of an exported table are found again: the header that is written tells where the cells
of every culture stand (ofHeader_header, exists_column), and the maps that go with the table are
found under the key of their cell (lookup_localized, lookup_absent). The table is exported exactly
if the length limits of its entries can be written (ofFlat_eq_ok_iff, inFormat_eq_error_iff).
-/

namespace Parlance.Table

open Placeholder Protection

variable {kinds : Kinds} {entries : List Entry} {cultures : List Text} {culture : Text} {e : Entry}

/-- Cultures that have columns of their own: written and read back, each is one name, and none is
that of a fixed column. -/
structure Proper (cultures : List Text) : Prop where
  nodup : cultures.Nodup
  trimmed : ∀ culture ∈ cultures, Text.trim culture = culture
  not_fixed : ∀ culture ∈ cultures, culture ∉ fixedColumns

namespace Columns

/-- The columns of the table that is exported for some cultures. -/
def exported (cultures : List Text) : Columns :=
  ⟨cultures.length + 7, 0, 1, .ofPairs (cultures.zipIdx 6)⟩

theorem map_trim_header (h : ∀ culture ∈ cultures, Text.trim culture = culture) :
    (header cultures).map Text.trim = header cultures := by
  have hleading : leadingColumns.map Text.trim = leadingColumns := by decide
  have hlast : [maxLengthColumn].map Text.trim = [maxLengthColumn] := by decide
  have hcultures : cultures.map Text.trim = cultures :=
    (List.map_congr_left h).trans (List.map_id cultures)
  rw [header, List.map_append, List.map_append, hleading, hlast, hcultures]

theorem filter_zipIdx_header (h : ∀ culture ∈ cultures, culture ∉ fixedColumns) :
    (header cultures).zipIdx.filter (fun (name, _) => !fixedColumns.contains name) =
      cultures.zipIdx 6 := by
  have hleading :
      leadingColumns.zipIdx.filter (fun (name, _) => !fixedColumns.contains name) = [] := by
    decide
  have hlast (i : Nat) :
      ([maxLengthColumn].zipIdx i).filter (fun (name, _) => !fixedColumns.contains name) = [] := by
    rfl
  have hcultures : (cultures.zipIdx 6).filter (fun (name, _) => !fixedColumns.contains name) =
      cultures.zipIdx 6 := by
    apply List.filter_eq_self.2
    rintro ⟨culture, i⟩ hmem
    have hnot := h culture (List.fst_mem_of_mem_zipIdx hmem)
    simpa using hnot
  rw [header, List.zipIdx_append, List.zipIdx_append, List.filter_append, List.filter_append,
    hleading, hlast, List.append_nil, List.nil_append]
  exact hcultures

theorem indexOf_header {name : Text} {i : Nat}
    (h : leadingColumns.findIdx? (· = name) = some i) (cultures : List Text) :
    indexOf (header cultures) name = .ok i := by
  rw [indexOf, header, List.append_assoc, List.findIdx?_append, h]
  rfl

theorem ofHeader_header (h : Proper cultures) :
    ofHeader (header cultures) = .ok (exported cultures) := by
  have hkey : indexOf (header cultures) keyColumn = .ok 0 := indexOf_header (by decide) cultures
  have hspace : indexOf (header cultures) spaceColumn = .ok 1 :=
    indexOf_header (by decide) cultures
  have hlength : (header cultures).length = cultures.length + 7 := by
    simp [header, leadingColumns]
  simp only [ofHeader, map_trim_header h.trimmed, hkey, hspace, filter_zipIdx_header h.not_fixed,
    hlength]
  rfl

theorem entries_cultures (h : Proper cultures) :
    (exported cultures).cultures.entries = cultures.zipIdx 6 := by
  apply OrderedMap.entries_ofPairs
  rw [List.zipIdx_map_fst]
  exact h.nodup

theorem keys_cultures (h : Proper cultures) : (exported cultures).cultures.keys = cultures := by
  rw [OrderedMap.keys, entries_cultures h, List.zipIdx_map_fst]

/-- The column of a culture holds its localized text, in every row. -/
theorem exists_column (h : Proper cultures) (hmem : culture ∈ cultures) :
    ∃ i, (exported cultures).cultures.get? culture = some i ∧
      ∀ (e : Entry) (last : Text), (e.cellsWith cultures last).getD i [] = e.localized culture := by
  obtain ⟨i, hi, rfl⟩ := List.getElem_of_mem hmem
  refine ⟨6 + i, ?_, ?_⟩
  · rw [OrderedMap.get?_eq_some_iff, entries_cultures h, List.mk_mem_zipIdx_iff_le_and_getElem?_sub]
    simp [hi]
  · intro e last
    simp [Entry.cellsWith, List.getD, hi, List.getElem?_append, Nat.add_comm 6 i]

/-- A written cell is read as the text in it. -/
theorem readCell_cells (h : Proper cultures) (hmem : culture ∈ cultures) (maps? : Option MapStore)
    (row : Entry) (last : Text) :
    readCell maps? (exported cultures) (row.cellsWith cultures last) culture =
      if (row.localized culture).isEmpty then .ok none
      else return some ⟨row.space, row.key, culture,
        ← restoreCell maps? row.space row.key culture (row.localized culture)⟩ := by
  obtain ⟨i, hcolumn, hcell⟩ := exists_column h hmem
  have hspace : (row.cellsWith cultures last).getD (exported cultures).space [] = row.space := rfl
  have hkey : (row.cellsWith cultures last).getD (exported cultures).key [] = row.key := rfl
  simp only [readCell, hcolumn, hcell row, hspace, hkey]

theorem readRecord_cells (maps? : Option MapStore) (cultures : List Text) (row : Entry)
    (last : Text) :
    readRecord maps? (exported cultures) cultures (row.cellsWith cultures last) =
      return (← cultures.mapM
        (readCell maps? (exported cultures) (row.cellsWith cultures last))).filterMap id := by
  have hlength : (row.cellsWith cultures last).length = (exported cultures).count := by
    simp [Entry.cellsWith, exported]
  rw [readRecord, hlength, if_neg (Nat.lt_irrefl _)]

/-- A table whose first record is the header that is written is read row by row. -/
theorem importDelimited_of_read (h : Proper cultures) {delimiter : Char} {t : Text}
    {maps? : Option MapStore} {records : List (List Text)}
    (hread : Delimited.read delimiter t = .ok (header cultures :: records))
    {localized : List (List Localized)}
    (hrecords : records.mapM (readRecord maps? (exported cultures) cultures) = .ok localized) :
    importDelimited delimiter maps? none t = .ok localized.flatten := by
  cases records with
  | nil =>
    obtain rfl : localized = [] := by
      cases hrecords
      rfl
    rw [importDelimited, hread]
    rfl
  | cons first rest =>
    simp only [importDelimited, hread, ofHeader_header h, Option.getD_none, keys_cultures h,
      hrecords]

end Columns

/-- The keys under which a table keeps maps: one for the source text of every entry, and one for
every cell of a culture. -/
def mapKeys (entries : List Entry) (cultures : List Text) : List Text :=
  entries.flatMap fun e => ([] :: cultures).map (MapStore.key e.space e.key)

/-- Distinct keys tell the entries and the cultures that they belong to. -/
theorem eq_of_key_eq (h : (mapKeys entries cultures).Nodup) {e₁ e₂ : Entry} {c₁ c₂ : Text}
    (he₁ : e₁ ∈ entries) (he₂ : e₂ ∈ entries) (hc₁ : c₁ ∈ [] :: cultures)
    (hc₂ : c₂ ∈ [] :: cultures)
    (hkey : MapStore.key e₁.space e₁.key c₁ = MapStore.key e₂.space e₂.key c₂) :
    e₁ = e₂ ∧ c₁ = c₂ := by
  -- an entry and a culture are a label; the keys are distinct, so they tell the labels apart
  let label := fun e : Entry => ([] :: cultures).map fun c => (e, c)
  have hlabel {e : Entry} {c : Text} (he : e ∈ entries) (hc : c ∈ [] :: cultures) :
      (e, c) ∈ entries.flatMap label :=
    List.mem_flatMap.2 ⟨e, he, List.mem_map.2 ⟨c, hc, rfl⟩⟩
  have hnodup :
      ((entries.flatMap label).map fun l => MapStore.key l.1.space l.1.key l.2).Nodup := by
    simp only [label, List.map_flatMap, List.map_map]
    exact h
  exact Prod.mk.inj (List.inj_on_of_nodup_map hnodup (hlabel he₁ hc₁) (hlabel he₂ hc₂) hkey)

/-- The empty culture would share its key with the source text. -/
theorem nil_not_mem (h : (mapKeys entries cultures).Nodup) (he : e ∈ entries) : [] ∉ cultures := by
  have hrow := (List.nodup_flatMap.1 h).1 e he
  exact (List.nodup_cons.1 hrow.of_map).1

namespace Flat

theorem keys_maps_sublist (kinds : Kinds) (entries : List Entry) (cultures : List Text) :
    ((entries.flatMap (Entry.maps kinds cultures)).map Prod.fst).Sublist
      (mapKeys entries cultures) := by
  induction entries with
  | nil => exact List.Sublist.slnil
  | cons e rest ih =>
    rw [List.flatMap_cons, List.map_append, mapKeys, List.flatMap_cons]
    refine List.Sublist.append ?_ ih
    simp only [Entry.maps, List.map_cons, List.map_map]
    exact (List.filter_sublist.map (MapStore.key e.space e.key)).cons_cons _

theorem entries_maps (h : (mapKeys entries cultures).Nodup) :
    (ofEntries kinds entries cultures).maps.entries =
      entries.flatMap (Entry.maps kinds cultures) :=
  OrderedMap.entries_ofPairs (h.sublist (keys_maps_sublist kinds entries cultures))

theorem get?_source (h : (mapKeys entries cultures).Nodup) (he : e ∈ entries) :
    (ofEntries kinds entries cultures).maps.get? (MapStore.key e.space e.key []) =
      some (protect kinds e.source).map := by
  rw [OrderedMap.get?_eq_some_iff, entries_maps h]
  exact List.mem_flatMap.2 ⟨e, he, List.mem_cons_self⟩

theorem get?_localized (h : (mapKeys entries cultures).Nodup) (he : e ∈ entries)
    (hmem : culture ∈ cultures) (hpresent : (e.localized culture).isEmpty = false) :
    (ofEntries kinds entries cultures).maps.get? (MapStore.key e.space e.key culture) =
      some (protect kinds (e.localized culture)).map := by
  rw [OrderedMap.get?_eq_some_iff, entries_maps h]
  refine List.mem_flatMap.2 ⟨e, he, List.mem_cons_of_mem _ (List.mem_map.2 ⟨culture, ?_, rfl⟩)⟩
  exact List.mem_filter.2 ⟨hmem, by rw [hpresent]; rfl⟩

/-- No entry and no other culture has taken the key of an empty cell. -/
theorem get?_eq_none (h : (mapKeys entries cultures).Nodup) (he : e ∈ entries)
    (hmem : culture ∈ cultures) (habsent : (e.localized culture).isEmpty) :
    (ofEntries kinds entries cultures).maps.get? (MapStore.key e.space e.key culture) = none := by
  rw [OrderedMap.get?_eq_none_iff, OrderedMap.keys, entries_maps h]
  intro hkey
  obtain ⟨pair, hpair, hpairkey⟩ := List.mem_map.1 hkey
  obtain ⟨e', he', hpair⟩ := List.mem_flatMap.1 hpair
  rcases List.mem_cons.1 hpair with rfl | hpair
  · -- the key of a source text belongs to the empty culture
    have hsame := eq_of_key_eq h he' he List.mem_cons_self (List.mem_cons_of_mem _ hmem) hpairkey
    exact nil_not_mem h he (hsame.2 ▸ hmem)
  · obtain ⟨culture', hpresent, rfl⟩ := List.mem_map.1 hpair
    obtain ⟨hmem', hpresent⟩ := List.mem_filter.1 hpresent
    obtain ⟨rfl, rfl⟩ := eq_of_key_eq h he' he (List.mem_cons_of_mem _ hmem')
      (List.mem_cons_of_mem _ hmem) hpairkey
    rw [habsent] at hpresent
    contradiction

/-- A localized text is restored from its own map, or from that of the source if it has no
placeholders. -/
theorem lookup_localized (h : (mapKeys entries cultures).Nodup) (he : e ∈ entries)
    (hmem : culture ∈ cultures) (hpresent : (e.localized culture).isEmpty = false) :
    (ofEntries kinds entries cultures).maps.lookup e.space e.key culture =
      if (protect kinds (e.localized culture)).map.isEmpty then some (protect kinds e.source).map
      else some (protect kinds (e.localized culture)).map := by
  rw [MapStore.lookup, get?_localized h he hmem hpresent, get?_source h he]

/-- A cell that was empty is restored from the map of the source. -/
theorem lookup_absent (h : (mapKeys entries cultures).Nodup) (he : e ∈ entries)
    (hmem : culture ∈ cultures) (habsent : (e.localized culture).isEmpty) :
    (ofEntries kinds entries cultures).maps.lookup e.space e.key culture =
      some (protect kinds e.source).map := by
  rw [MapStore.lookup, get?_eq_none h he hmem habsent, get?_source h he]

end Flat

section Limits

variable {fault : Fault} {flat : Flat}

/-- The length limit of an entry can be written, if it has one. -/
def Entry.LimitWritten (e : Entry) : Prop := ∀ n ∈ e.maxLength, Number.isBoundedInt n

namespace Entry

/-- The cells of an entry whose length limit can be written. -/
def writtenCells (e : Entry) (cultures : List Text) : List Text :=
  e.cellsWith cultures ((e.maxLength.map Text.ofInt).getD [])

theorem cells_of_limitWritten (h : e.LimitWritten) (cultures : List Text) :
    e.cells cultures = .ok (e.writtenCells cultures) := by
  rw [cells, limitText, writtenCells]
  cases hlimit : e.maxLength with
  | none => rfl
  | some n =>
    simp only [Number.integerText, if_pos (h n hlimit)]
    rfl

theorem cells_eq_error_iff :
    e.cells cultures = .error fault ↔ fault = .oversizedNumeral ∧ ¬e.LimitWritten := by
  by_cases h : e.LimitWritten
  · simp [cells_of_limitWritten h, h]
  · obtain ⟨n, hlimit, hbounded⟩ : ∃ n, e.maxLength = some n ∧ ¬Number.isBoundedInt n := by
      simpa [LimitWritten] using h
    have hcells : e.cells cultures = .error .oversizedNumeral := by
      simp only [cells, limitText, hlimit, Number.integerText, if_neg hbounded]
      rfl
    rw [hcells, Except.error.injEq, eq_comm, and_iff_left h]

end Entry

namespace Flat

/-- The grid of a table whose length limits can be written. -/
def writtenGrid (flat : Flat) (cultures : List Text) : List (List Text) :=
  header cultures :: flat.rows.map (Entry.writtenCells · cultures)

theorem grid_of_limitWritten (h : ∀ row ∈ flat.rows, row.LimitWritten) (cultures : List Text) :
    flat.grid cultures = .ok (flat.writtenGrid cultures) := by
  have hrows : flat.rows.mapM (Entry.cells · cultures) =
      .ok (flat.rows.map (Entry.writtenCells · cultures)) := by
    rw [mapM_eq_ok_iff, List.forall₂_map_right_iff, List.forall₂_same]
    exact fun row hrow => Entry.cells_of_limitWritten (h row hrow) cultures
  rw [grid, hrows]
  rfl

theorem grid_eq_error_iff :
    flat.grid cultures = .error fault ↔
      fault = .oversizedNumeral ∧ ∃ row ∈ flat.rows, ¬row.LimitWritten := by
  rw [grid, bind_pure_eq_error_iff]
  exact mapM_eq_error_iff (fun row _ fault => Entry.cells_eq_error_iff) fault

/-- Every record of a table has a cell for every column. -/
theorem length_of_mem_grid {record : List Text} (h : record ∈ flat.writtenGrid cultures) :
    record.length = cultures.length + 7 := by
  rcases List.mem_cons.1 h with rfl | hrow
  · simp [header, leadingColumns]
  · obtain ⟨row, -, rfl⟩ := List.mem_map.1 hrow
    simp [Entry.writtenCells, Entry.cellsWith]

end Flat

namespace Export

variable {write : List (List Text) → Text} {x : Export}

/-- A table is written exactly if its length limits can be. -/
theorem ofFlat_eq_ok_iff :
    ofFlat flat cultures write = .ok x ↔ (∀ row ∈ flat.rows, row.LimitWritten) ∧
      x = ⟨write (flat.writtenGrid cultures), flat.maps, flat.rows.length⟩ := by
  by_cases h : ∀ row ∈ flat.rows, row.LimitWritten
  · rw [ofFlat, Flat.grid_of_limitWritten h, and_iff_right h]
    exact ⟨fun hx => (Except.ok.inj hx).symm, fun hx => congrArg Except.ok hx.symm⟩
  · have hgrid : flat.grid cultures = .error .oversizedNumeral :=
      Flat.grid_eq_error_iff.2 ⟨rfl, by simpa using h⟩
    rw [ofFlat, hgrid, iff_false_intro h, false_and, iff_false]
    exact nofun

theorem ofFlat_eq_error_iff :
    ofFlat flat cultures write = .error fault ↔
      fault = .oversizedNumeral ∧ ∃ row ∈ flat.rows, ¬row.LimitWritten := by
  rw [ofFlat, bind_pure_eq_error_iff, Flat.grid_eq_error_iff]

/-- Protecting placeholders leaves the length limits. -/
theorem limitWritten_rows_iff :
    (∀ row ∈ (Flat.ofEntries kinds entries cultures).rows, row.LimitWritten) ↔
      ∀ e ∈ entries, e.LimitWritten :=
  List.forall_mem_map

/-- Entries are exported exactly if their length limits can be written. -/
theorem exists_ofFlat_ofEntries_iff :
    (∃ x, ofFlat (Flat.ofEntries kinds entries cultures) cultures write = .ok x) ↔
      ∀ e ∈ entries, e.LimitWritten := by
  simp only [ofFlat_eq_ok_iff, limitWritten_rows_iff, exists_and_left, exists_eq, and_true]

theorem exists_inFormat_iff {format : Format} :
    (∃ x, inFormat kinds format entries cultures = .ok x) ↔ ∀ e ∈ entries, e.LimitWritten := by
  cases format <;> exact exists_ofFlat_ofEntries_iff

/-- In every format an export fails for a length limit of too many digits and for nothing else. -/
theorem inFormat_eq_error_iff {format : Format} :
    inFormat kinds format entries cultures = .error fault ↔
      fault = .oversizedNumeral ∧ ∃ e ∈ entries, ¬e.LimitWritten := by
  have hrows : (∃ row ∈ (Flat.ofEntries kinds entries cultures).rows, ¬row.LimitWritten) ↔
      ∃ e ∈ entries, ¬e.LimitWritten := by
    simpa only [not_forall, exists_prop] using not_congr limitWritten_rows_iff
  rw [← hrows]
  cases format <;> exact ofFlat_eq_error_iff

end Export

end Limits

end Parlance.Table
