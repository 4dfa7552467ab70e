import Parlance.Proofs.Folder
import Parlance.Proofs.MapStore.Document
import Parlance.Proofs.Path
import Parlance.Proofs.Table.Characters
import Parlance.Table.Files
/-!
Tables in files. An export that succeeds writes a table and its placeholder maps and leaves every
other file (exists_of_exportFile), and entries that are exported to a file are then imported as if
the table had never been in a file (importFile_exportFile). Another table may be exported after it
without harm if the two have no file in common (importFile_of_disjoint); but two tables whose names
differ in their suffix alone have one map file (importFile_of_shared).
-/

namespace Parlance.Table

open Folder

variable {limit : Json.Limit} {folder folder' before between after : Folder} {p q : Path}
  {x y : Export}

/-- Where the files of a table stand: its own, and that of its placeholder maps. -/
def places (folder : Folder) (p : Path) : List (Except PathError Location) :=
  (p :: (mapPath? p).toList).map folder.resolve

theorem mapPath_eq_ok_iff {beside : Path} : mapPath p = .ok beside ↔ mapPath? p = some beside := by
  rw [mapPath]
  split <;> simp [*]

/-- Where a table and its placeholder maps stand. -/
structure Stands (folder : Folder) (p beside : Path) (table maps : Location) : Prop where
  mapPath?_eq : mapPath? p = some beside
  table_eq : folder.resolve p = .ok table
  maps_eq : folder.resolve beside = .ok maps

namespace Stands

variable {beside : Path} {table maps : Location} {content : Text} {store : MapStore}

theorem of_same (hsame : SameFolders folder folder') (h : Stands folder p beside table maps) :
    Stands folder' p beside table maps :=
  ⟨h.mapPath?_eq, hsame.resolve_eq_ok_iff.1 h.table_eq, hsame.resolve_eq_ok_iff.1 h.maps_eq⟩

theorem places_eq (h : Stands folder p beside table maps) :
    places folder p = [.ok table, .ok maps] := by
  rw [places, h.mapPath?_eq, Option.toList_some, List.map_cons, List.map_singleton, h.table_eq,
    h.maps_eq]

/-- The maps of a table never take its own place: the dots of the suffixes tell the names apart. -/
theorem table_ne_maps (h : Stands folder p beside table maps) : table ≠ maps := by
  intro hsame
  have hmaps := head?_of_resolve h.maps_eq
  rw [← hsame, head?_of_resolve h.table_eq] at hmaps
  exact Path.name?_ne_of_withSuffix? (by decide) h.mapPath?_eq hmaps.symm

/-- A table is imported from the contents of its two files. -/
theorem importFile_eq (h : Stands folder p beside table maps)
    (htable : folder.node? table = some (.file content))
    (hmaps : folder.node? maps = some (.file (store.toDocument mapLayout)))
    (targets? : Option (List Text)) :
    importFile limit folder p targets? =
      (importDelimited (delimiterOf p) (some store) targets? (evenLines content)).mapError
        .table := by
  have hpath : mapPath p = .ok beside := mapPath_eq_ok_iff.2 h.mapPath?_eq
  have hhas : (folder.has beside).mapError FileError.path = .ok true := by
    rw [has_of_node? h.maps_eq hmaps]
    rfl
  have hload : loadMaps limit folder beside = .ok store := by
    have hstore := MapStore.ofDocument_eq_ok (MapStore.loaded_toDocument limit store mapLayout)
    rw [loadMaps, readLines_of_node? h.maps_eq hmaps,
      evenLines_of_not_mem (MapStore.not_mem_toDocument store mapLayout)]
    simp only [Except.mapError, bind, Except.bind, hstore]
  have hcontent : (folder.readLines p).mapError FileError.path = .ok (evenLines content) := by
    rw [readLines_of_node? h.table_eq htable]
    rfl
  simp only [importFile, hpath, hhas, hload, hcontent, bind, Except.bind, if_true]
  rfl

/-- A table can be exported where its two paths lead to files. -/
theorem exists_exportFile (h : Stands folder p beside table maps) (x : Export) :
    ∃ folder', exportFile folder p x = (folder', .ok ()) := by
  obtain ⟨written, hwritten⟩ := exists_write h.table_eq x.content
  obtain ⟨-, -, hsame, -⟩ := exists_of_write hwritten
  obtain ⟨complete, hcomplete⟩ := exists_write (h.of_same hsame).maps_eq
    (x.maps.toDocument mapLayout)
  have hsave : (mapPath p >>= (saveMaps written · x.maps)) = .ok complete := by
    rw [mapPath_eq_ok_iff.2 h.mapPath?_eq]
    exact mapError_eq_ok_iff.2 hcomplete
  refine ⟨complete, ?_⟩
  rw [exportFile, hwritten]
  simp only [hsave]

end Stands

/-- An export that succeeds writes two files and leaves all else. -/
theorem exists_of_exportFile (h : exportFile folder p x = (folder', .ok ())) :
    ∃ beside table maps, Stands folder p beside table maps ∧ SameFolders folder folder' ∧
      ∀ l, folder'.node? l =
        if l = maps then some (.file (x.maps.toDocument mapLayout))
        else if l = table then some (.file x.content) else folder.node? l := by
  rw [exportFile] at h
  split at h
  · cases h
  · next written hwritten =>
    split at h
    · cases h
    · next complete hcomplete =>
      cases h
      obtain ⟨beside, hbeside, hsave⟩ := bind_eq_ok_iff.1 hcomplete
      obtain ⟨table, htable, hsame, hnode⟩ := exists_of_write hwritten
      obtain ⟨maps, hmaps, hsame', hnode'⟩ := exists_of_write (mapError_eq_ok_iff.1 hsave)
      have hmaps := hsame.resolve_eq_ok_iff.2 hmaps
      refine ⟨beside, table, maps, ⟨mapPath_eq_ok_iff.1 hbeside, htable, hmaps⟩,
        hsame.trans hsame', fun l => ?_⟩
      rw [hnode', hnode]

/-- Right after its export a table is imported with the maps that were made for it. -/
theorem importFile_of_exportFile (h : exportFile folder p x = (folder', .ok ()))
    (targets? : Option (List Text)) :
    importFile limit folder' p targets? =
      (importDelimited (delimiterOf p) (some x.maps) targets? (evenLines x.content)).mapError
        .table := by
  obtain ⟨beside, table, maps, hstands, hsame, hnode⟩ := exists_of_exportFile h
  apply (hstands.of_same hsame).importFile_eq
  · rw [hnode, if_neg hstands.table_ne_maps, if_pos rfl]
  · rw [hnode, if_pos rfl]

/-- Entries are exported to files as their table is. -/
theorem exportEntries_eq_ok_iff {kinds : Placeholder.Kinds} {format : Format} {entries : List Entry}
    {cultures : List Text} :
    exportEntries folder p kinds format entries cultures = (folder', .ok x) ↔
      Export.inFormat kinds format entries cultures = .ok x ∧
        exportFile folder p x = (folder', .ok ()) := by
  rw [exportEntries]
  cases Export.inFormat kinds format entries cultures with
  | error fault => simp
  | ok y =>
    have hdone : (exportFile folder p y).2.map (fun _ => y) = .ok x ↔
        (exportFile folder p y).2 = .ok () ∧ y = x := by
      cases (exportFile folder p y).2 <;> simp [Except.map]
    simp only [Prod.mk.injEq, hdone, Except.ok.injEq]
    constructor
    · rintro ⟨rfl, hwritten, rfl⟩
      exact ⟨rfl, Prod.ext rfl hwritten⟩
    · rintro ⟨rfl, hwritten⟩
      rw [hwritten]
      exact ⟨rfl, rfl, rfl⟩

/-- Entries that cannot be exported leave all files as they are. -/
theorem exportEntries_of_not_limitWritten {kinds : Placeholder.Kinds} {format : Format}
    {entries : List Entry} {cultures : List Text} {e : Entry} (he : e ∈ entries)
    (hlimit : ¬e.LimitWritten) :
    exportEntries folder p kinds format entries cultures =
      (folder, .error (.fault .oversizedNumeral)) := by
  have hexport : Export.inFormat kinds format entries cultures = .error .oversizedNumeral :=
    Export.inFormat_eq_error_iff.2 ⟨rfl, e, he, hlimit⟩
  rw [exportEntries, hexport]

/-- A greeting of someone, in German too. -/
def welcome (someone : Text) : Entry :=
  { space := "Menu".toList, key := "Welcome".toList, source := "Welcome, " ++ someone
    category := defaultCategory, context := none, comment := none
    localizations := .ofPairs [("de".toList, "Willkommen, " ++ someone)], maxLength := none }

/-- A menu with a greeting of someone, exported. -/
def menu (format : Format) (someone : Text) : Except Fault Export :=
  Export.inFormat .default format [welcome someone] ["de".toList]

theorem limitWritten_welcome (someone : Text) : ∀ e ∈ [welcome someone], e.LimitWritten := by
  intro e he n hn
  obtain rfl := List.mem_singleton.1 he
  cases hn

theorem exists_menu (format : Format) (someone : Text) : ∃ x, menu format someone = .ok x :=
  Export.exists_inFormat_iff.2 (limitWritten_welcome someone)

/-- The path of a menu in the working folder. -/
def menuFile (suffix : Text) : Path := .ofText ("menu" ++ suffix)

/-- Where the files of a menu stand in a folder that holds nothing else. -/
theorem stands_menu : ∀ suffix ∈ [".tsv".toList, ".csv".toList, ".CSV".toList],
    Stands ∅ (menuFile suffix) (menuFile ".map.json")
      ["menu" ++ suffix, "folder".toList] ["menu.map.json".toList, "folder".toList] := by
  intro suffix hsuffix
  simp only [List.mem_cons, List.not_mem_nil, or_false] at hsuffix
  rcases hsuffix with rfl | rfl | rfl <;> exact ⟨by cbv, by cbv, by cbv⟩

/-- A table of texts without carriage returns is imported from its file as it would be from its
content and its maps, if the suffix of the file goes with the format. -/
theorem importFile_exportFile {kinds : Placeholder.Kinds} {format : Format} {delimiter : Char}
    {entries : List Entry} {cultures : List Text}
    (hunbroken : Unbroken entries cultures) (hdelimiter : format.delimiter? = some delimiter)
    (hsuffix : format = .csv ↔ Text.toLower p.suffix = Format.csv.suffix)
    (hexport : exportEntries folder p kinds format entries cultures = (folder', .ok x))
    (targets? : Option (List Text)) :
    importFile limit folder' p targets? =
      (importDelimited delimiter (some x.maps) targets? x.content).mapError .table := by
  obtain ⟨hx, hwritten⟩ := exportEntries_eq_ok_iff.1 hexport
  have hcontent := evenLines_of_not_mem (not_mem_content hunbroken hdelimiter hx)
  have hsame : delimiterOf p = delimiter := by
    rw [delimiterOf]
    cases format with
    | csv =>
      rw [if_pos (hsuffix.1 rfl)]
      exact Option.some.inj hdelimiter
    | tsv =>
      rw [if_neg fun h => absurd (hsuffix.2 h) (by decide)]
      exact Option.some.inj hdelimiter
    | html => cases hdelimiter
  rw [importFile_of_exportFile hwritten, hcontent, hsame]

theorem importFile_exportFile_menu :
    ∃ folder x, Unbroken [welcome "{name}"] ["de".toList] ∧
      Format.csv.delimiter? = some ',' ∧
      (Format.csv = .csv ↔
        Text.toLower (menuFile ".CSV").suffix = Format.csv.suffix) ∧
      exportEntries ∅ (menuFile ".CSV") .default .csv [welcome "{name}"] ["de".toList] =
        (folder, .ok x) ∧
      ∀ limit, importFile limit folder (menuFile ".CSV") none =
        (importDelimited ',' (some x.maps) none x.content).mapError .table := by
  have hunbroken : Unbroken [welcome "{name}"] ["de".toList] := by
    constructor <;> decide
  have hsuffix : Format.csv = .csv ↔
      Text.toLower (menuFile ".CSV").suffix = Format.csv.suffix := by
    decide
  have hstands := stands_menu ".CSV" (by decide)
  obtain ⟨x, hx⟩ := exists_menu .csv "{name}"
  obtain ⟨folder, hwritten⟩ := hstands.exists_exportFile x
  have hexport : exportEntries ∅ (menuFile ".CSV") .default .csv [welcome "{name}"] ["de".toList] =
      (folder, .ok x) :=
    exportEntries_eq_ok_iff.2 ⟨hx, hwritten⟩
  exact ⟨folder, x, hunbroken, rfl, hsuffix, hexport,
    fun _ => importFile_exportFile hunbroken rfl hsuffix hexport none⟩

/-- Exporting another table changes nothing for a table if they have no file in common. -/
theorem importFile_of_disjoint (hfirst : exportFile before p x = (between, .ok ()))
    (hsecond : exportFile between q y = (after, .ok ()))
    (hdisjoint : (places before p).Disjoint (places before q)) (targets? : Option (List Text)) :
    importFile limit after p targets? = importFile limit between p targets? := by
  rw [importFile_of_exportFile hfirst]
  obtain ⟨beside, table, maps, hstands, hsame, hnode⟩ := exists_of_exportFile hfirst
  obtain ⟨beside', table', maps', hstands', hsame', hnode'⟩ := exists_of_exportFile hsecond
  rw [hstands.places_eq, (hstands'.of_same hsame.symm).places_eq] at hdisjoint
  have hkept : ∀ l, .ok l ∈ [(.ok table : Except PathError Location), .ok maps] →
      after.node? l = between.node? l := by
    intro l hl
    rw [hnode', if_neg, if_neg]
    · rintro rfl
      exact hdisjoint hl List.mem_cons_self
    · rintro rfl
      exact hdisjoint hl (List.mem_cons_of_mem _ List.mem_cons_self)
  apply (hstands.of_same (hsame.trans hsame')).importFile_eq
  · rw [hkept table List.mem_cons_self, hnode, if_neg hstands.table_ne_maps, if_pos rfl]
  · rw [hkept maps (List.mem_cons_of_mem _ List.mem_cons_self), hnode, if_pos rfl]

theorem importFile_of_disjoint_menu :
    ∃ x y between after, menu .tsv "{name}" = .ok x ∧ menu .tsv "{user}" = .ok y ∧
      exportFile ∅ (menuFile ".tsv") x = (between, .ok ()) ∧
      exportFile between (menuFile ".v2.tsv") y = (after, .ok ()) ∧
      (places ∅ (menuFile ".tsv")).Disjoint
        (places ∅ (menuFile ".v2.tsv")) ∧
      ∀ limit, importFile limit after (menuFile ".tsv") none =
        importFile limit between (menuFile ".tsv") none := by
  have hstands := stands_menu ".tsv" (by decide)
  have hstands' : Stands ∅ (menuFile ".v2.tsv") (menuFile ".v2.map.json")
      ["menu.v2.tsv".toList, "folder".toList] ["menu.v2.map.json".toList, "folder".toList] :=
    ⟨by cbv, by cbv, by cbv⟩
  obtain ⟨x, hx⟩ := exists_menu .tsv "{name}"
  obtain ⟨y, hy⟩ := exists_menu .tsv "{user}"
  obtain ⟨between, hfirst⟩ := hstands.exists_exportFile x
  obtain ⟨-, -, -, -, hsame, -⟩ := exists_of_exportFile hfirst
  obtain ⟨after, hsecond⟩ := (hstands'.of_same hsame).exists_exportFile y
  have hdisjoint : (places ∅ (menuFile ".tsv")).Disjoint
      (places ∅ (menuFile ".v2.tsv")) := by
    rw [hstands.places_eq, hstands'.places_eq, List.disjoint_left]
    decide
  exact ⟨x, y, between, after, hx, hy, hfirst, hsecond, hdisjoint,
    fun _ => importFile_of_disjoint hfirst hsecond hdisjoint none⟩

/-- Of two tables with one map file, the one that was exported first is read with the maps of the
other. -/
theorem importFile_of_shared (hfirst : exportFile before p x = (between, .ok ()))
    (hsecond : exportFile between q y = (after, .ok ())) (hshared : mapPath? p = mapPath? q)
    (htables : before.resolve p ≠ before.resolve q) (targets? : Option (List Text)) :
    importFile limit after p targets? =
      (importDelimited (delimiterOf p) (some y.maps) targets? (evenLines x.content)).mapError
        .table := by
  obtain ⟨beside, table, maps, hstands, hsame, hnode⟩ := exists_of_exportFile hfirst
  obtain ⟨beside', table', maps', hstands', hsame', hnode'⟩ := exists_of_exportFile hsecond
  have hstands' := hstands'.of_same hsame.symm
  obtain rfl : beside = beside' := by
    have hbeside := hstands.mapPath?_eq.symm.trans (hshared.trans hstands'.mapPath?_eq)
    exact Option.some.inj hbeside
  obtain rfl : maps = maps' := Except.ok.inj (hstands.maps_eq.symm.trans hstands'.maps_eq)
  have hother : table ≠ table' := by
    rintro rfl
    exact htables (hstands.table_eq.trans hstands'.table_eq.symm)
  apply (hstands.of_same (hsame.trans hsame')).importFile_eq
  · rw [hnode', if_neg hstands.table_ne_maps, if_neg hother, hnode,
      if_neg hstands.table_ne_maps, if_pos rfl]
  · rw [hnode', if_pos rfl]

/-- A menu greets whom the maps name that it is read with, in whatever format they were made. -/
theorem importDelimited_menu {format : Format} (hx : menu .tsv "{name}" = .ok x) {someone : Text}
    (hsomeone : someone ∈ ["{name}".toList, "{user}".toList]) (hy : menu format someone = .ok y) :
    importDelimited '\t' (some y.maps) none (evenLines x.content) =
      .ok [⟨"Menu".toList, "Welcome".toList, "de".toList, "Willkommen, " ++ someone⟩] := by
  have hx : Export.ofFlat (.ofEntries .default [welcome "{name}"] ["de".toList]) ["de".toList]
      (Delimited.write '\t') = .ok x :=
    hx
  obtain ⟨-, rfl⟩ := Export.ofFlat_eq_ok_iff.1 hx
  have hmaps : y.maps = (Flat.ofEntries .default [welcome someone] ["de".toList]).maps := by
    cases format <;> rw [(Export.ofFlat_eq_ok_iff.1 hy).2]
  rw [hmaps]
  simp only [List.mem_cons, List.not_mem_nil, or_false] at hsomeone
  rcases hsomeone with rfl | rfl <;> cbv

/-- Tables whose names differ in their suffix alone are distinct, and neither is the map file of the
other; but they have one map file, and exporting the second changes how the first is imported. -/
theorem importFile_ne_of_shared :
    ∃ x y between after, menu .tsv "{name}" = .ok x ∧ menu .csv "{user}" = .ok y ∧
      exportFile ∅ (menuFile ".tsv") x = (between, .ok ()) ∧
      exportFile between (menuFile ".csv") y = (after, .ok ()) ∧
      (∅ : Folder).resolve (menuFile ".tsv") ∉
        places ∅ (menuFile ".csv") ∧
      (∅ : Folder).resolve (menuFile ".csv") ∉
        places ∅ (menuFile ".tsv") ∧
      ∀ limit, importFile limit after (menuFile ".tsv") none ≠
        importFile limit between (menuFile ".tsv") none := by
  have hstands := stands_menu ".tsv" (by decide)
  have hstands' := stands_menu ".csv" (by decide)
  obtain ⟨x, hx⟩ := exists_menu .tsv "{name}"
  obtain ⟨y, hy⟩ := exists_menu .csv "{user}"
  obtain ⟨between, hfirst⟩ := hstands.exists_exportFile x
  obtain ⟨-, -, -, -, hsame, -⟩ := exists_of_exportFile hfirst
  obtain ⟨after, hsecond⟩ := (hstands'.of_same hsame).exists_exportFile y
  refine ⟨x, y, between, after, hx, hy, hfirst, hsecond, ?_, ?_, ?_⟩
  · rw [hstands.table_eq, hstands'.places_eq]
    decide
  · rw [hstands'.table_eq, hstands.places_eq]
    decide
  · have hshared := hstands.mapPath?_eq.trans hstands'.mapPath?_eq.symm
    have htables : (∅ : Folder).resolve (menuFile ".tsv") ≠
        (∅ : Folder).resolve (menuFile ".csv") := by
      rw [hstands.table_eq, hstands'.table_eq]
      decide
    have hdelimiter : delimiterOf (menuFile ".tsv") = '\t' := by decide
    intro limit
    rw [importFile_of_exportFile hfirst, importFile_of_shared hfirst hsecond hshared htables,
      hdelimiter, importDelimited_menu hx (by decide) hy, importDelimited_menu hx (by decide) hx]
    intro hsame
    exact absurd (Except.ok.inj hsame) (by decide)

end Parlance.Table
