import Mathlib
import Parlance.Proofs.Table.Columns
import Parlance.Proofs.Table.Delimited
import Parlance.Proofs.Traverse
/-!
An exported table is read back as the localized texts that it was made of (import_export). Before
that translators may put new texts in cells that were empty; these are restored with the
placeholders of the source, and every other text is what it was.
-/

namespace Parlance.Table

open Placeholder Protection

/-- Put new texts in the empty cells of a row. -/
def Entry.fill (cultures : List Text) (new : Text → Text) (row : Entry) : Entry :=
  { row with
    localizations := .ofPairs (cultures.map fun culture =>
      (culture, if (row.localized culture).isEmpty then new culture else row.localized culture)) }

/-- Put new texts in the empty cells of a table, by row and culture; an empty one changes
nothing. -/
def Flat.fill (cultures : List Text) (new : Nat → Text → Text) (flat : Flat) : Flat :=
  { flat with rows := flat.rows.mapIdx fun i row => row.fill cultures (new i) }

/-- An exported table in which new texts have been put in empty cells. -/
def Export.filled (kinds : Kinds) (delimiter : Char) (entries : List Entry) (cultures : List Text)
    (new : Nat → Text → Text) : Except Fault Export :=
  ofFlat ((Flat.ofEntries kinds entries cultures).fill cultures new) cultures
    (Delimited.write delimiter)

/-- A cell of a culture, and the new text for it. -/
structure Cell where
  entry : Entry
  culture : Text
  new : Text

namespace Cell

/-- The localized text that was exported in the cell. -/
def exported (cell : Cell) : Text := cell.entry.localized cell.culture

def isEmpty (cell : Cell) : Bool := cell.exported.isEmpty && cell.new.isEmpty

/-- The text that a cell stands for: the exported text, or the new text with the placeholders of
the source. -/
def text (kinds : Kinds) (cell : Cell) : Except Fault Text :=
  if cell.exported.isEmpty then restore (protect kinds cell.entry.source).map cell.new
  else .ok cell.exported

def localized (kinds : Kinds) (cell : Cell) : Except Fault Localized :=
  return ⟨cell.entry.space, cell.entry.key, cell.culture, ← cell.text kinds⟩

end Cell

/-- The cells of a row. -/
def rowCells (cultures : List Text) (new : Text → Text) (e : Entry) : List Cell :=
  cultures.map fun culture => ⟨e, culture, new culture⟩

/-- The cells of a table that are not empty, row by row. -/
def filledCells (entries : List Entry) (cultures : List Text) (new : Nat → Text → Text) :
    List Cell :=
  entries.zipIdx.flatMap fun (e, i) => (rowCells cultures (new i) e).filter (!·.isEmpty)

variable {entries : List Entry} {cultures : List Text} {culture : Text} {e : Entry}

theorem Entry.localized_mapTexts (f : Text → Text) (e : Entry) (hmem : culture ∈ cultures) :
    (e.mapTexts f cultures).localized culture = f (e.localized culture) := by
  rw [localized, mapTexts, OrderedMap.get?_ofPairs_map (fun c => f (e.localized c)) hmem]
  rfl

theorem Entry.localized_fill (new : Text → Text) (row : Entry) (hmem : culture ∈ cultures) :
    (row.fill cultures new).localized culture =
      if (row.localized culture).isEmpty then new culture else row.localized culture := by
  rw [localized, fill, OrderedMap.get?_ofPairs_map
    (fun c => if (row.localized c).isEmpty then new c else row.localized c) hmem]
  rfl

theorem Entry.localized_mem_cells (row : Entry) (hmem : culture ∈ cultures) :
    row.localized culture ∈ row.writtenCells cultures := by
  have hlocalized : row.localized culture ∈ cultures.map row.localized := List.mem_map_of_mem hmem
  exact List.mem_append_left _ (List.mem_append_right _ hlocalized)

theorem Entry.cells_fill_nil (row : Entry) (cultures : List Text) :
    (row.fill cultures fun _ => []).cells cultures = row.cells cultures := by
  have hsame : ∀ culture ∈ cultures,
      (row.fill cultures fun _ => []).localized culture = row.localized culture := by
    intro culture hmem
    rw [localized_fill _ row hmem]
    split
    · next hempty => exact (List.isEmpty_iff.1 hempty).symm
    · rfl
  simp only [cells, cellsWith, List.map_congr_left hsame]
  rfl

/-- Where nothing is put in, the table is as it was exported. -/
theorem filled_nil (kinds : Kinds) (delimiter : Char) (entries : List Entry)
    (cultures : List Text) :
    Export.filled kinds delimiter entries cultures (fun _ _ => []) =
      Export.delimited kinds delimiter entries cultures := by
  have hrows (rows : List Entry) :
      (rows.mapIdx fun _ row => row.fill cultures fun _ => []).mapM (Entry.cells · cultures) =
        rows.mapM (Entry.cells · cultures) := by
    rw [List.mapIdx_eq_zipIdx_map, List.mapM_map]
    conv_rhs => rw [← List.zipIdx_map_fst 0 rows, List.mapM_map]
    congr 1
    exact funext fun row => Entry.cells_fill_nil row.1 cultures
  simp only [Export.filled, Export.delimited, Export.ofFlat, Flat.grid, Flat.fill, hrows,
    List.length_mapIdx]

section Rows

variable {kinds : Kinds}

/-- The row of an entry in the exported table, after new texts have been put in. -/
def Entry.exportedRow (kinds : Kinds) (cultures : List Text) (new : Text → Text) (e : Entry) :
    Entry :=
  (e.mapTexts (fun t => (protect kinds t).replaced) cultures).fill cultures new

theorem rows_filled (kinds : Kinds) (entries : List Entry) (cultures : List Text)
    (new : Nat → Text → Text) :
    ((Flat.ofEntries kinds entries cultures).fill cultures new).rows =
      entries.zipIdx.map fun (e, i) => e.exportedRow kinds cultures (new i) := by
  simp only [Flat.fill, Flat.ofEntries, List.mapIdx_eq_zipIdx_map, List.zipIdx_map, List.map_map]
  rfl

/-- The cell of an exported text holds its protected form, and any other cell the new text. -/
theorem Entry.localized_exportedRow (kinds : Kinds) (e : Entry) (new : Text → Text)
    (hmem : culture ∈ cultures) :
    (e.exportedRow kinds cultures new).localized culture =
      if (e.localized culture).isEmpty then new culture
      else (protect kinds (e.localized culture)).replaced := by
  rw [exportedRow, localized_fill new _ hmem, localized_mapTexts _ e hmem, isEmpty_replaced]

/-- A text that fits in a field has no more placeholders than can be numbered. -/
theorem size_le_of_readable {t : Text} (h : Delimited.Readable (protect kinds t).replaced) :
    (protect kinds t).map.size ≤ tenTo numberLimit := by
  have hlimit : Delimited.fieldLimit ≤ tenTo 6 := by decide
  have hpower : tenTo 6 ≤ tenTo numberLimit := tenTo_le_tenTo (by decide)
  exact Nat.le_trans (size_le_length_replaced kinds t) (Nat.le_trans h (hlimit.trans hpower))

theorem restoreCell_present (hindexed : HoldsIndexed kinds)
    (hkeys : (mapKeys entries cultures).Nodup) (he : e ∈ entries) (hmem : culture ∈ cultures)
    (hpresent : (e.localized culture).isEmpty = false)
    (hsource : Delimited.Readable (protect kinds e.source).replaced)
    (hlocalized : Delimited.Readable (protect kinds (e.localized culture)).replaced) :
    restoreCell (some (Flat.ofEntries kinds entries cultures).maps) e.space e.key culture
      (protect kinds (e.localized culture)).replaced = .ok (e.localized culture) := by
  simp only [restoreCell, Option.bind_some, Flat.lookup_localized hkeys he hmem hpresent]
  by_cases hplain : (protect kinds (e.localized culture)).map.isEmpty
  · -- the map of the source takes the place of an empty one, and changes nothing
    rw [if_pos hplain, replaced_of_isEmpty hplain]
    exact restore_plain hindexed (size_le_of_readable hsource) hplain
  · rw [if_neg hplain]
    have hrestore := restore_replaced (hindexed.numbersAccepted (e.localized culture))
    exact hrestore.trans (if_pos (size_le_of_readable hlocalized))

/-- A cell of an exported row is read as the text that it stands for, and passed over if it is
empty. -/
theorem readCell_exportedRow (hindexed : HoldsIndexed kinds) (hproper : Proper cultures)
    (hkeys : (mapKeys entries cultures).Nodup) (he : e ∈ entries) (hmem : culture ∈ cultures)
    {new : Text → Text}
    (hreadable : ∀ field ∈ (e.exportedRow kinds cultures new).writtenCells cultures,
      Delimited.Readable field) :
    if !(Cell.mk e culture (new culture)).isEmpty then
      ∃ l, readCell (some (Flat.ofEntries kinds entries cultures).maps) (Columns.exported cultures)
          ((e.exportedRow kinds cultures new).writtenCells cultures) culture = .ok (some l) ∧
        (Cell.mk e culture (new culture)).localized kinds = .ok l
    else
      readCell (some (Flat.ofEntries kinds entries cultures).maps) (Columns.exported cultures)
        ((e.exportedRow kinds cultures new).writtenCells cultures) culture = .ok none := by
  have hsource : Delimited.Readable (protect kinds e.source).replaced :=
    hreadable _ (by
      simp [Entry.writtenCells, Entry.cellsWith, Entry.exportedRow, Entry.fill, Entry.mapTexts])
  have htext := Entry.localized_exportedRow kinds e new hmem
  have hspace : (e.exportedRow kinds cultures new).space = e.space := rfl
  have hkey : (e.exportedRow kinds cultures new).key = e.key := rfl
  rw [Entry.writtenCells, Columns.readCell_cells hproper hmem, hspace, hkey]
  by_cases hexported : (e.localized culture).isEmpty
  · rw [if_pos hexported] at htext
    rw [htext]
    by_cases hnew : (new culture).isEmpty
    · -- nothing was exported and nothing put in
      simp [Cell.isEmpty, Cell.exported, hexported, hnew]
    · obtain ⟨u, hu⟩ := exists_restore (size_le_of_readable hsource) (new culture)
      have hcell : restoreCell (some (Flat.ofEntries kinds entries cultures).maps) e.space e.key
          culture (new culture) = .ok u := by
        simp only [restoreCell, Option.bind_some, Flat.lookup_absent hkeys he hmem hexported]
        exact hu
      rw [if_pos (by simp [Cell.isEmpty, hnew]), if_neg hnew, hcell]
      refine ⟨_, rfl, ?_⟩
      rw [Cell.localized, Cell.text, Cell.exported, if_pos hexported, hu]
      rfl
  · rw [if_neg hexported] at htext
    have hlocalized : Delimited.Readable (protect kinds (e.localized culture)).replaced := by
      apply hreadable
      rw [← htext]
      exact Entry.localized_mem_cells _ hmem
    have hcell := restoreCell_present hindexed hkeys he hmem (Bool.not_eq_true _ ▸ hexported)
      hsource hlocalized
    rw [htext, if_pos (by simp [Cell.isEmpty, Cell.exported, hexported]), isEmpty_replaced,
      if_neg hexported, hcell]
    refine ⟨_, rfl, ?_⟩
    rw [Cell.localized, Cell.text, Cell.exported, if_neg hexported]
    rfl

/-- A row of the exported table is read as its cells that are not empty. -/
theorem readRecord_exportedRow (hindexed : HoldsIndexed kinds) (hproper : Proper cultures)
    (hkeys : (mapKeys entries cultures).Nodup) (he : e ∈ entries) {new : Text → Text}
    (hreadable : ∀ field ∈ (e.exportedRow kinds cultures new).writtenCells cultures,
      Delimited.Readable field) :
    ∃ ls, readRecord (some (Flat.ofEntries kinds entries cultures).maps)
        (Columns.exported cultures) cultures
          ((e.exportedRow kinds cultures new).writtenCells cultures) = .ok ls ∧
      ((rowCells cultures new e).filter (!·.isEmpty)).mapM (Cell.localized kinds) = .ok ls := by
  let read := readCell (some (Flat.ofEntries kinds entries cultures).maps)
    (Columns.exported cultures) ((e.exportedRow kinds cultures new).writtenCells cultures)
  have hcells : ∀ cell ∈ rowCells cultures new e,
      if !cell.isEmpty then ∃ l, read cell.culture = .ok (some l) ∧ cell.localized kinds = .ok l
      else read cell.culture = .ok none := by
    intro cell hcell
    obtain ⟨culture, hmem, rfl⟩ := List.mem_map.1 hcell
    exact readCell_exportedRow hindexed hproper hkeys he hmem hreadable
  obtain ⟨ds, hread, hlocalized⟩ := exists_mapM_filter hcells
  have hread : cultures.mapM read = .ok ds := by
    rw [rowCells, List.mapM_map] at hread
    exact hread
  refine ⟨ds.filterMap id, ?_, hlocalized⟩
  rw [Entry.writtenCells, Columns.readRecord_cells]
  change (cultures.mapM read >>= fun ds => pure (ds.filterMap id)) = _
  rw [hread]
  rfl

end Rows

theorem limitWritten_rows_filled (kinds : Kinds) (entries : List Entry) (cultures : List Text)
    (new : Nat → Text → Text) (hlimits : ∀ e ∈ entries, e.LimitWritten) :
    ∀ row ∈ ((Flat.ofEntries kinds entries cultures).fill cultures new).rows, row.LimitWritten := by
  rw [rows_filled]
  intro row hrow
  obtain ⟨⟨e, i⟩, hmem, rfl⟩ := List.mem_map.1 hrow
  exact hlimits e (List.fst_mem_of_mem_zipIdx hmem)

/-- The fields of the table can be read back, if it is exported. -/
def Export.Fits (kinds : Kinds) (entries : List Entry) (cultures : List Text)
    (new : Nat → Text → Text) : Prop :=
  ∀ grid, ((Flat.ofEntries kinds entries cultures).fill cultures new).grid cultures = .ok grid →
    ∀ record ∈ grid, ∀ field ∈ record, Delimited.Readable field

/-- Entries are exported exactly if their length limits can be written, and importing the table
gives the localized texts of its cells that are not empty, row by row and culture by culture, each
with its own key: what was exported, and what was put in since. -/
theorem import_export {delimiter : Char} (hdelimiter : delimiter = '\t' ∨ delimiter = ',')
    {entries : List Entry} {cultures : List Text} (hproper : Proper cultures)
    (hkeys : (mapKeys entries cultures).Nodup) {new : Nat → Text → Text}
    (hfits : Export.Fits .default entries cultures new) :
    ((∃ x, Export.delimited .default delimiter entries cultures = .ok x) ↔
      ∀ e ∈ entries, e.LimitWritten) ∧
    ∀ x, Export.delimited .default delimiter entries cultures = .ok x →
      ∃ y localized, Export.filled .default delimiter entries cultures new = .ok y ∧
        importDelimited delimiter (some x.maps) none y.content = .ok localized ∧
        (filledCells entries cultures new).mapM (Cell.localized .default) = .ok localized := by
  refine ⟨Export.exists_ofFlat_ofEntries_iff, fun x hx => ?_⟩
  let flat := (Flat.ofEntries .default entries cultures).fill cultures new
  let maps? := some (Flat.ofEntries .default entries cultures).maps
  obtain ⟨hlimits, rfl⟩ := Export.ofFlat_eq_ok_iff.1 hx
  have hflat : ∀ row ∈ flat.rows, row.LimitWritten :=
    limitWritten_rows_filled .default entries cultures new
      (Export.limitWritten_rows_iff.1 hlimits)
  have hreadable := hfits _ (Flat.grid_of_limitWritten hflat cultures)
  have hdelimiter : Delimited.IsDelimiter delimiter := by
    rcases hdelimiter with rfl | rfl <;> exact ⟨by decide, by decide⟩
  have hread : Delimited.read delimiter (Delimited.write delimiter (flat.writtenGrid cultures)) =
      .ok (header cultures :: flat.rows.map (Entry.writtenCells · cultures)) := by
    apply Delimited.read_write hdelimiter
    intro record hrecord
    have hlength := Flat.length_of_mem_grid hrecord
    refine ⟨?_, ?_, hreadable record hrecord⟩
    · rintro rfl
      simp at hlength
    · rintro rfl
      simp at hlength
  have hrows : ∀ row ∈ entries.zipIdx, ∃ ls,
      readRecord maps? (Columns.exported cultures) cultures
          ((row.1.exportedRow .default cultures (new row.2)).writtenCells cultures) = .ok ls ∧
        ((rowCells cultures (new row.2) row.1).filter (!·.isEmpty)).mapM
          (Cell.localized .default) = .ok ls := by
    rintro ⟨e, i⟩ hrow
    have he : e ∈ entries := List.fst_mem_of_mem_zipIdx hrow
    apply readRecord_exportedRow holdsIndexed_default hproper hkeys he
    apply hreadable
    rw [Flat.writtenGrid, rows_filled, List.map_map]
    exact List.mem_cons_of_mem _ (List.mem_map.2 ⟨(e, i), hrow, rfl⟩)
  obtain ⟨lss, hlocalized, hcells⟩ := exists_mapM_flatMap hrows
  refine ⟨_, lss.flatten, Export.ofFlat_eq_ok_iff.2 ⟨hflat, rfl⟩, ?_, hcells⟩
  apply Columns.importDelimited_of_read hproper hread
  rw [rows_filled, List.map_map, List.mapM_map]
  exact hlocalized

/-- A greeting in German of at most 80 characters; the French cell is filled in the table. -/
def greeting : Entry :=
  { space := "Game".toList, key := "Hello".toList, source := "Hello, {name}!".toList
    category := defaultCategory, context := none, comment := none
    localizations := .ofPairs [("de".toList, "Hallo \"{name}\"!".toList)], maxLength := some 80 }

theorem import_export_greeting :
    let cultures := ["de".toList, "fr".toList]
    let new := fun (_ : Nat) (_ : Text) => "Salut,\n{0}!".toList
    ∃ x y localized, Export.delimited .default ',' [greeting] cultures = .ok x ∧
      Export.filled .default ',' [greeting] cultures new = .ok y ∧
      importDelimited ',' (some x.maps) none y.content = .ok localized ∧
      (filledCells [greeting] cultures new).mapM (Cell.localized .default) = .ok localized := by
  intro cultures new
  have heighty : 80 < tenTo Decimal.maxDigits :=
    Nat.lt_of_lt_of_le (by decide : 80 < tenTo 2) (tenTo_le_tenTo (by decide))
  have hlimits : ∀ e ∈ [greeting], e.LimitWritten := by
    intro e he n hn
    obtain rfl := List.mem_singleton.1 he
    obtain rfl := Option.some.inj hn
    exact decide_eq_true heighty
  have hgrid :
      ((Flat.ofEntries .default [greeting] cultures).fill cultures new).writtenGrid cultures =
        [header cultures, ["Hello".toList, "Game".toList, defaultCategory, "Hello, {0}!".toList,
          [], [], "Hallo \"{0}\"!".toList, "Salut,\n{0}!".toList, "80".toList]] := by
    cbv
  have hfits : Export.Fits .default [greeting] cultures new := by
    intro grid hsame
    rw [Flat.grid_of_limitWritten (limitWritten_rows_filled _ _ _ new hlimits), hgrid] at hsame
    obtain rfl := Except.ok.inj hsame
    decide
  obtain ⟨hexported, himported⟩ :=
    import_export (Or.inr rfl) ⟨by decide, by decide, by decide⟩ (by decide) hfits
  obtain ⟨x, hx⟩ := hexported.2 hlimits
  obtain ⟨y, localized, hy, hread, hcells⟩ := himported x hx
  exact ⟨x, y, localized, hx, hy, hread, hcells⟩

end Parlance.Table
