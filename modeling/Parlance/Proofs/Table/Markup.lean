import Parlance.Proofs.Table.Columns
/-!
An exported markup table is read back. Markup is read as tags, each with the text behind it up to
the next one (tagged): rows begin at tr tags, and the text behind a th or td tag is a cell once its
entities are undone (read). Cells are written without an opening angle bracket, so the tags of a
table are the same for all cells (map_tag_tagTable), and reading gives the cells back (read_markup).
-/

namespace Parlance.Table

open Placeholder

namespace Markup

section Entities

/-- The entities and the characters that they stand for. -/
def entities : List (Text × Char) :=
  [("&amp;", '&'), ("&lt;", '<'), ("&gt;", '>'), ("&quot;", '"'), ("&#x27;", '\'')]

/-- Entities give way to their characters, in one pass from left to right. -/
def unescape (t : Text) : Text :=
  match t with
  | [] => []
  | c :: rest =>
    match entities.find? fun entity => entity.1.isPrefixOf (c :: rest) with
    | some entity => entity.2 :: unescape (rest.drop (entity.1.length - 1))
    | none => c :: unescape rest
termination_by t.length
decreasing_by all_goals simp only [List.length_drop, List.length_cons]; omega

/-- Entities begin with an ampersand. -/
theorem find?_entities_of_ne {c : Char} (hc : c ≠ '&') (t : Text) :
    (entities.find? fun entity => entity.1.isPrefixOf (c :: t)) = none := by
  have hhead : ∀ entity ∈ entities, entity.1.head? = some '&' := by decide
  rw [List.find?_eq_none]
  intro entity hentity
  obtain ⟨rest, hrest⟩ := List.head?_eq_some_iff.1 (hhead entity hentity)
  rw [hrest, List.isPrefixOf_iff_prefix, List.cons_prefix_cons]
  exact fun h => hc h.1.symm

theorem unescape_escape_append (c : Char) (t : Text) :
    unescape (escape c ++ t) = c :: unescape t := by
  by_cases hc : c ∈ entities.map Prod.snd
  · simp only [entities, List.map_cons, List.map_nil, List.mem_cons, List.not_mem_nil,
      or_false] at hc
    rcases hc with rfl | rfl | rfl | rfl | rfl <;> (rw [unescape.eq_def]; rfl)
  · have hescape : escape c = [c] := by
      simp only [entities, List.map_cons, List.map_nil, List.mem_cons, List.not_mem_nil,
        or_false, not_or] at hc
      simp [escape, hc]
    have hne : c ≠ '&' := by
      rintro rfl
      exact hc (by decide)
    rw [hescape, List.singleton_append, unescape.eq_def]
    simp only [find?_entities_of_ne hne]

/-- No text is lost or gained in a cell, whatever entities it had before. -/
theorem unescape_flatMap_escape (cell : Text) : unescape (cell.flatMap escape) = cell := by
  induction cell with
  | nil => rw [List.flatMap_nil, unescape.eq_def]
  | cons c cell ih => rw [List.flatMap_cons, unescape_escape_append, ih]

theorem open_notMem_escape (c : Char) : '<' ∉ escape c := by
  rw [escape]
  split
  · decide
  · split
    · decide
    · next hc =>
      split
      · decide
      · split
        · decide
        · split
          · decide
          · rw [List.mem_singleton]
            exact fun h => hc h.symm

theorem open_notMem_flatMap_escape (cell : Text) : '<' ∉ cell.flatMap escape := by
  intro h
  obtain ⟨c, -, hc⟩ := List.mem_flatMap.1 h
  exact open_notMem_escape c hc

end Entities

/-- A tag and the text behind it, up to the next tag. -/
structure Tagged where
  tag : Text
  behind : Text
  deriving DecidableEq

namespace Tagged

def text (p : Tagged) : Text := '<' :: p.tag ++ '>' :: p.behind

/-- The brackets of a tag are its own. -/
structure Proper (p : Tagged) : Prop where
  open_notMem_tag : '<' ∉ p.tag
  close_notMem_tag : '>' ∉ p.tag
  open_notMem_behind : '<' ∉ p.behind

/-- What stands between two opening brackets. -/
def ofPart (part : Text) : Tagged :=
  ⟨part.takeWhile (· ≠ '>'), (part.dropWhile (· ≠ '>')).drop 1⟩

def isRow (p : Tagged) : Bool := p.tag = "tr"

def isCell (p : Tagged) : Bool := p.tag = "th" || p.tag = "td"

end Tagged

/-- The tags of a text, in order. -/
def tagged (t : Text) : List Tagged := (t.splitOn '<').tail.map .ofPart

/-- The cells that tags begin. -/
def cellsOf (parts : List Tagged) : List Text :=
  (parts.filter Tagged.isCell).map fun p => unescape p.behind

/-- The rows of a table, each as the texts of its cells. -/
def read (t : Text) : List (List Text) := ((tagged t).splitOnP Tagged.isRow).tail.map cellsOf

section Reading

variable {p : Tagged} {parts : List Tagged}

instance (p : Tagged) : Decidable p.Proper :=
  decidable_of_iff ('<' ∉ p.tag ∧ '>' ∉ p.tag ∧ '<' ∉ p.behind)
    ⟨fun h => ⟨h.1, h.2.1, h.2.2⟩, fun h => ⟨h.1, h.2, h.3⟩⟩

theorem Tagged.Proper.ofPart (h : p.Proper) : Tagged.ofPart (p.tag ++ '>' :: p.behind) = p := by
  have htag : ∀ c ∈ p.tag, decide (c ≠ '>') = true := by
    intro c hc
    refine decide_eq_true ?_
    rintro rfl
    exact h.close_notMem_tag hc
  rw [Tagged.ofPart, List.takeWhile_append_of_pos htag, List.dropWhile_append_of_pos htag,
    List.takeWhile_cons_of_neg (by decide), List.dropWhile_cons_of_neg (by decide),
    List.append_nil, List.drop_succ_cons, List.drop_zero]

theorem Tagged.Proper.open_notMem (h : p.Proper) : '<' ∉ p.tag ++ '>' :: p.behind := by
  rw [List.mem_append, List.mem_cons]
  rintro (htag | hbracket | hbehind)
  · exact h.open_notMem_tag htag
  · exact absurd hbracket (by decide)
  · exact h.open_notMem_behind hbehind

theorem splitOn_flatMap (h : ∀ p ∈ parts, p.Proper) {t : Text} (ht : '<' ∉ t) :
    (t ++ parts.flatMap Tagged.text).splitOn '<' =
      t :: parts.map fun p => p.tag ++ '>' :: p.behind := by
  have hnone {u : Text} (hu : '<' ∉ u) : ∀ c ∈ u, (c == '<') = false := by
    intro c hc
    refine beq_false_of_ne ?_
    rintro rfl
    exact hu hc
  induction parts generalizing t with
  | nil =>
    rw [List.flatMap_nil, List.append_nil, List.splitOn,
      List.splitOnP_eq_singleton (hnone ht), List.map_nil]
  | cons p parts ih =>
    rw [List.forall_mem_cons] at h
    rw [List.flatMap_cons, Tagged.text, List.cons_append, List.cons_append, List.splitOn,
      List.splitOnP_append_cons_of_forall_mem (hnone ht) '<' rfl, ← List.splitOn,
      ih h.2 h.1.open_notMem, List.map_cons]

/-- Tags that are written one after the other are read back. -/
theorem tagged_flatMap (h : ∀ p ∈ parts, p.Proper) :
    tagged (parts.flatMap Tagged.text) = parts := by
  have hsplit := splitOn_flatMap h (t := []) List.not_mem_nil
  rw [List.nil_append] at hsplit
  rw [tagged, hsplit, List.tail_cons, List.map_map]
  exact (List.map_congr_left fun p hp => (h p hp).ofPart).trans (List.map_id parts)

end Reading

section Outside

/-- The tags before the first row. -/
def headTags : List Text :=
  ["html", "head", "meta charset='utf-8'", "style", "/style", "/head", "body", "table"]

/-- The tags after the last row. -/
def tailTags : List Text := ["/table", "/body", "/html"]

/-- A text that is made of tags, none of which begins a row or a cell. -/
structure Outside (t : Text) (tags : List Text) : Prop where
  text_eq : (tagged t).flatMap Tagged.text = t
  tags_eq : (tagged t).map Tagged.tag = tags
  proper : ∀ p ∈ tagged t, p.Proper
  not_isRow : ∀ p ∈ tagged t, p.isRow = false
  no_cells : cellsOf (tagged t) = []

instance (t : Text) (tags : List Text) : Decidable (Outside t tags) :=
  decidable_of_iff ((tagged t).flatMap Tagged.text = t ∧ (tagged t).map Tagged.tag = tags ∧
      (∀ p ∈ tagged t, p.Proper) ∧ (∀ p ∈ tagged t, p.isRow = false) ∧ cellsOf (tagged t) = [])
    ⟨fun ⟨htext, htags, hproper, hrow, hcells⟩ => ⟨htext, htags, hproper, hrow, hcells⟩,
      fun ⟨htext, htags, hproper, hrow, hcells⟩ => ⟨htext, htags, hproper, hrow, hcells⟩⟩

theorem outside_head : Outside head headTags := by decide +kernel

theorem outside_tail : Outside tail tailTags := by decide +kernel

end Outside

section Writing

/-- The records of a table, each with the tag of its cells. -/
def records (header : List Text) (rows : List (List Text)) : List (Text × List Text) :=
  ("th", header) :: rows.map fun cells => ("td", cells)

def tagCell (tag cell : Text) : List Tagged := [⟨tag, cell.flatMap escape⟩, ⟨'/' :: tag, "\n"⟩]

/-- The tags of a row behind the one that begins it. -/
def tagCells (tag : Text) (cells : List Text) : List Tagged :=
  cells.flatMap (tagCell tag) ++ [⟨"/tr", "\n"⟩]

def tagRow (record : Text × List Text) : List Tagged :=
  ⟨"tr", "\n"⟩ :: tagCells record.1 record.2

/-- The tags of a written table. -/
def tagTable (header : List Text) (rows : List (List Text)) : List Tagged :=
  tagged head ++ (records header rows).flatMap tagRow ++ tagged tail

variable {tag : Text}

theorem text_tagCell (tag cell : Text) :
    (tagCell tag cell).flatMap Tagged.text = writeCell tag cell := by
  simp [tagCell, writeCell, Tagged.text]

theorem text_tagRow (tag : Text) (cells : List Text) :
    (tagRow (tag, cells)).flatMap Tagged.text = writeRow tag cells := by
  have hcells : (cells.flatMap (tagCell tag)).flatMap Tagged.text =
      cells.flatMap (writeCell tag) := by
    rw [List.flatMap_assoc]
    exact congrArg (cells.flatMap ·) (funext (text_tagCell tag))
  rw [tagRow, tagCells, List.flatMap_cons, List.flatMap_append, hcells]
  rfl

/-- A written table is its tags with the texts behind them. -/
theorem text_tagTable (header : List Text) (rows : List (List Text)) :
    (tagTable header rows).flatMap Tagged.text = write (header :: rows) := by
  have hrows : ((rows.map fun cells => (("td" : Text), cells)).flatMap tagRow).flatMap
      Tagged.text = rows.flatMap (writeRow "td") := by
    rw [List.flatMap_assoc, List.flatMap_map]
    exact congrArg (rows.flatMap ·) (funext (text_tagRow "td"))
  rw [tagTable, records, List.flatMap_append, List.flatMap_append, outside_head.text_eq,
    outside_tail.text_eq, List.flatMap_cons, List.flatMap_append, text_tagRow, hrows, write]
  simp only [List.append_assoc]

end Writing

section Proper

variable {tag : Text} {header : List Text} {rows : List (List Text)}

theorem tag_of_mem_records {record : Text × List Text} (h : record ∈ records header rows) :
    record.1 = "th" ∨ record.1 = "td" := by
  rcases List.mem_cons.1 h with rfl | hrow
  · exact .inl rfl
  · obtain ⟨cells, -, rfl⟩ := List.mem_map.1 hrow
    exact .inr rfl

theorem proper_of_mem_tagCells (htag : tag = "th" ∨ tag = "td") {cells : List Text} {p : Tagged}
    (h : p ∈ tagCells tag cells) : p.Proper := by
  have hopen : '<' ∉ tag := by rcases htag with rfl | rfl <;> decide
  have hclose : '>' ∉ tag := by rcases htag with rfl | rfl <;> decide
  rcases List.mem_append.1 h with hcells | hend
  · obtain ⟨cell, -, hcell⟩ := List.mem_flatMap.1 hcells
    simp only [tagCell, List.mem_cons, List.not_mem_nil, or_false] at hcell
    rcases hcell with rfl | rfl
    · exact ⟨hopen, hclose, open_notMem_flatMap_escape cell⟩
    · refine ⟨?_, ?_, show '<' ∉ "\n".toList by decide⟩
      · exact List.not_mem_cons_of_ne_of_not_mem (by decide) hopen
      · exact List.not_mem_cons_of_ne_of_not_mem (by decide) hclose
  · rw [List.mem_singleton.1 hend]
    decide

theorem proper_of_mem_tagTable {p : Tagged} (h : p ∈ tagTable header rows) : p.Proper := by
  rw [tagTable, List.mem_append, List.mem_append] at h
  rcases h with (hp | hp) | hp
  · exact outside_head.proper p hp
  · obtain ⟨record, hrecord, hp⟩ := List.mem_flatMap.1 hp
    rcases List.mem_cons.1 hp with rfl | hp
    · decide
    · exact proper_of_mem_tagCells (tag_of_mem_records hrecord) hp
  · exact outside_tail.proper p hp

theorem tagged_write (header : List Text) (rows : List (List Text)) :
    tagged (write (header :: rows)) = tagTable header rows := by
  rw [← text_tagTable]
  exact tagged_flatMap fun p => proper_of_mem_tagTable

end Proper

section Tags

/-- The tags of a row with so many cells. -/
def rowTags (tag : Text) (columns : Nat) : List Text :=
  "tr".toList :: (List.replicate columns [tag, '/' :: tag]).flatten ++ ["/tr".toList]

/-- The tags of a table with so many rows below its header. -/
def tableTags (rows columns : Nat) : List Text :=
  headTags ++ rowTags "th" columns ++ (List.replicate rows (rowTags "td" columns)).flatten ++
    tailTags

variable {columns : Nat} {header : List Text} {rows : List (List Text)}

theorem map_tag_tagRow (tag : Text) (cells : List Text) :
    (tagRow (tag, cells)).map Tagged.tag = rowTags tag cells.length := by
  have hcells : (cells.flatMap (tagCell tag)).map Tagged.tag =
      (List.replicate cells.length [tag, '/' :: tag]).flatten := by
    rw [List.map_flatMap, ← List.map_const', List.flatMap_def]
    rfl
  rw [tagRow, tagCells, rowTags, List.map_cons, List.map_append, hcells]
  rfl

/-- The tags of a table hang on its size alone. -/
theorem map_tag_tagTable (hheader : header.length = columns)
    (hrows : ∀ cells ∈ rows, cells.length = columns) :
    (tagTable header rows).map Tagged.tag = tableTags rows.length columns := by
  have hbody : ((rows.map fun cells => (("td" : Text), cells)).flatMap tagRow).map Tagged.tag =
      (List.replicate rows.length (rowTags "td" columns)).flatten := by
    rw [List.map_flatMap, List.flatMap_map, ← List.map_const', List.flatMap_def]
    congr 1
    apply List.map_congr_left
    intro cells hcells
    rw [map_tag_tagRow, hrows cells hcells]
  rw [tagTable, records, tableTags, List.map_append, List.map_append, List.flatMap_cons,
    List.map_append, outside_head.tags_eq, outside_tail.tags_eq, hbody, map_tag_tagRow, hheader]
  simp only [List.append_assoc]

end Tags

section Cells

variable {tag : Text} {front behind : List Tagged}

theorem cellsOf_append (parts others : List Tagged) :
    cellsOf (parts ++ others) = cellsOf parts ++ cellsOf others := by
  rw [cellsOf, List.filter_append, List.map_append]
  rfl

theorem cellsOf_tagCell (htag : tag = "th" ∨ tag = "td") (cell : Text) :
    cellsOf (tagCell tag cell) = [cell] := by
  have hcells : cellsOf (tagCell tag cell) = [unescape (cell.flatMap escape)] := by
    rcases htag with rfl | rfl <;> rfl
  rw [hcells, unescape_flatMap_escape]

/-- The cells of a row are read back. -/
theorem cellsOf_tagCells (htag : tag = "th" ∨ tag = "td") (cells : List Text) :
    cellsOf (tagCells tag cells) = cells := by
  induction cells with
  | nil => rfl
  | cons cell cells ih =>
    rw [tagCells] at ih ⊢
    rw [List.flatMap_cons, List.append_assoc, cellsOf_append, cellsOf_tagCell htag, ih]
    rfl

theorem not_isRow_of_mem_tagCells (htag : tag = "th" ∨ tag = "td") {cells : List Text}
    {p : Tagged} (h : p ∈ tagCells tag cells) : p.isRow = false := by
  rcases List.mem_append.1 h with hcells | hend
  · obtain ⟨cell, -, hcell⟩ := List.mem_flatMap.1 hcells
    simp only [tagCell, List.mem_cons, List.not_mem_nil, or_false] at hcell
    rcases htag with rfl | rfl <;> rcases hcell with rfl | rfl <;> rfl
  · rw [List.mem_singleton.1 hend]
    rfl

/-- Every row begins at its own tag and has its own cells. What stands in front of the rows has its
place before the first of them, and what stands behind adds nothing to the last. -/
theorem map_cellsOf_splitOnP (hfront : ∀ p ∈ front, p.isRow = false)
    (hbehind : ∀ p ∈ behind, p.isRow = false) (hnone : cellsOf behind = [])
    {records : List (Text × List Text)}
    (htags : ∀ record ∈ records, record.1 = "th" ∨ record.1 = "td") :
    ((front ++ records.flatMap tagRow ++ behind).splitOnP Tagged.isRow).map cellsOf =
      cellsOf front :: records.map Prod.snd := by
  induction records generalizing front with
  | nil =>
    have hall : ∀ p ∈ front ++ behind, p.isRow = false := by
      intro p hp
      rcases List.mem_append.1 hp with hp | hp
      · exact hfront p hp
      · exact hbehind p hp
    rw [List.flatMap_nil, List.append_nil, List.splitOnP_eq_singleton hall, List.map_singleton,
      cellsOf_append, hnone, List.append_nil, List.map_nil]
  | cons record records ih =>
    rw [List.forall_mem_cons] at htags
    have hcells : ∀ p ∈ tagCells record.1 record.2, p.isRow = false :=
      fun p hp => not_isRow_of_mem_tagCells htags.1 hp
    rw [List.flatMap_cons, tagRow, List.append_assoc, List.append_assoc, List.cons_append,
      List.splitOnP_append_cons_of_forall_mem hfront _ rfl, List.map_cons, ← List.append_assoc,
      ih hcells htags.2, cellsOf_tagCells htags.1, List.map_cons]

/-- A written table is read back, whatever its cells. -/
theorem read_write (header : List Text) (rows : List (List Text)) :
    read (write (header :: rows)) = header :: rows := by
  rw [read, tagged_write, tagTable, List.map_tail,
    map_cellsOf_splitOnP outside_head.not_isRow outside_tail.not_isRow outside_tail.no_cells
      fun record => tag_of_mem_records,
    List.tail_cons, records, List.map_cons, List.map_map]
  exact congrArg (header :: ·) (List.map_id rows)

end Cells

end Markup

/-- Entries are exported as a markup table exactly if their length limits can be written, and then
the grid of cells is read back exactly: the header and one row for every entry, each with as many
cells as there are columns. The tags of the table are those of its size, so no text in a cell adds,
ends or alters one. -/
theorem read_markup (kinds : Kinds) (entries : List Entry) (cultures : List Text) :
    ((∃ x, Export.markup kinds entries cultures = .ok x) ↔ ∀ e ∈ entries, e.LimitWritten) ∧
    ∀ x, Export.markup kinds entries cultures = .ok x →
      ∃ grid, (Flat.ofEntries kinds entries cultures).grid cultures = .ok grid ∧
        Markup.read x.content = grid ∧ grid.length = entries.length + 1 ∧
        (∀ record ∈ grid, record.length = (header cultures).length) ∧
        (Markup.tagged x.content).map Markup.Tagged.tag =
          Markup.tableTags entries.length (header cultures).length := by
  refine ⟨Export.exists_ofFlat_ofEntries_iff, fun x hx => ?_⟩
  let flat := Flat.ofEntries kinds entries cultures
  obtain ⟨hlimits, rfl⟩ := Export.ofFlat_eq_ok_iff.1 hx
  have hwidth : ∀ record ∈ flat.writtenGrid cultures, record.length = (header cultures).length := by
    have hheader : header cultures ∈ flat.writtenGrid cultures := List.mem_cons_self
    intro record hrecord
    rw [Flat.length_of_mem_grid hrecord, Flat.length_of_mem_grid hheader]
  have hrows : flat.rows.length = entries.length := List.length_map _
  have htagged : Markup.tagged (Markup.write (flat.writtenGrid cultures)) =
      Markup.tagTable (header cultures) (flat.writtenGrid cultures).tail :=
    Markup.tagged_write _ _
  refine ⟨flat.writtenGrid cultures, Flat.grid_of_limitWritten hlimits cultures,
    Markup.read_write _ _, ?_, hwidth, ?_⟩
  · exact congrArg (· + 1) ((List.length_map _).trans hrows)
  · change (Markup.tagged (Markup.write (flat.writtenGrid cultures))).map Markup.Tagged.tag = _
    rw [htagged, Markup.map_tag_tagTable rfl fun record h => hwidth record (List.mem_of_mem_tail h)]
    exact congrArg (Markup.tableTags · _) ((List.length_map _).trans hrows)

end Parlance.Table
