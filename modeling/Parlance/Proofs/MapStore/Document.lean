import Mathlib.Data.List.Nodup
import Parlance.MapStore.Document
import Parlance.Proofs.Json.Writing
import Parlance.Proofs.Traverse
/-!
A store of placeholder maps is read back from its document, in every layout and with all keys in
their order (ofDocument_toDocument). Distinct keys are members of their own, so that no member
replaces another one, and no half of a pair is written.
-/

namespace Parlance

namespace Json.Letters

theorem ofText_injective : Function.Injective ofText :=
  List.map_injective_iff.2 fun _ _ h => Letter.character.inj h

theorem text?_ofText (t : Text) : (ofText t).text? = some t := by
  rw [text?, ofText, List.mapM_map]
  exact List.mapM_pure.trans (congrArg some t.map_id')

end Json.Letters

namespace MapStore

open Json

/-- A placeholder map as the object that its document spells. -/
def mapJson (map : PlaceholderMap) : Json :=
  .object (map.entries.map fun (key, t) => (.ofText key, .text (.ofText t)))

/-- A store as the object that its document spells. -/
def json (store : MapStore) : Json :=
  .object (store.entries.map fun (key, map) => (.ofText key, mapJson map))

section Reading

theorem reads_text (depth : Nat) (t : Text) :
    Reads (value depth) (quoted t) (.text (.ofText t)) := by
  cases depth with
  | zero => exact reads_quoted none t
  | succ depth => exact reads_quoted (some (value depth)) t

theorem reads_map (depth : Nat) (layout : Layout) (map : PlaceholderMap) :
    Reads (value (depth + 1))
      (writeObject layout 1 (map.entries.map fun (key, t) => (key, quoted t))) (mapJson map) := by
  apply reads_writeObject
  rw [List.forall₂_map_left_iff, List.forall₂_map_right_iff, List.forall₂_same]
  exact fun entry _ => ⟨rfl, reads_text depth entry.2⟩

theorem reads_toDocument (depth : Nat) (layout : Layout) (store : MapStore) :
    Reads (value (depth + 2)) (store.toDocument layout) store.json := by
  apply reads_writeObject
  rw [List.forall₂_map_left_iff, List.forall₂_map_right_iff, List.forall₂_same]
  exact fun entry _ => ⟨rfl, reads_map depth layout entry.2⟩

/-- The document of a store is a document of an object of objects of texts. -/
theorem ofText_toDocument (limit : Limit) (layout : Layout) (store : MapStore) :
    Json.ofText limit (store.toDocument layout) = .ok store.json := by
  obtain ⟨depth, hdepth⟩ := Nat.exists_eq_add_of_le' limit.two_le
  have hreads := reads_toDocument depth layout store
  rw [← hdepth] at hreads
  have hskip := skipBlank_of_solid hreads.solid []
  have hread := hreads.read_append []
  rw [List.append_nil] at hskip hread
  have hmark : (store.toDocument layout).head? ≠ some '\uFEFF' := by
    rw [toDocument, writeObject]
    split
    · decide
    · exact fun h => absurd (Option.some.inj h) (by decide)
  rw [Json.ofText, if_neg hmark, hskip, hread]
  rfl

end Reading

section Shape

variable {α β : Type}

/-- Entries that are spelled in letters keep their keys distinct. -/
theorem entries_ofPairs_letters (m : OrderedMap Text α) (f : α → β) :
    (OrderedMap.ofPairs (m.entries.map fun (key, a) => (Letters.ofText key, f a))).entries =
      m.entries.map fun (key, a) => (Letters.ofText key, f a) := by
  apply OrderedMap.entries_ofPairs
  have hkeys : (m.entries.map fun (key, a) => (Letters.ofText key, f a)).map Prod.fst =
      (m.entries.map Prod.fst).map Letters.ofText := by
    rw [List.map_map, List.map_map]
    rfl
  rw [hkeys]
  exact (List.nodup_map_iff Letters.ofText_injective).2 m.nodup

theorem ofPairs_entries (m : OrderedMap Text α) : OrderedMap.ofPairs m.entries = m :=
  OrderedMap.ext (OrderedMap.entries_ofPairs m.nodup)

/-- A map as it is loaded. -/
def loadedMap (map : PlaceholderMap) : OrderedMap Letters Letters :=
  .ofPairs (map.entries.map fun (key, t) => (.ofText key, .ofText t))

/-- A store as it is loaded. -/
def loaded (store : MapStore) : Loaded :=
  .ofPairs (store.entries.map fun (key, map) => (.ofText key, loadedMap map))

theorem map?_mapJson (map : PlaceholderMap) : Loaded.map? (mapJson map) = some (loadedMap map) := by
  rw [mapJson, Loaded.map?, entries_ofPairs_letters map fun t => Json.text (.ofText t)]
  refine Option.bind_eq_some_iff.2 ⟨_, mapM_eq_some_iff.2 ?_, rfl⟩
  rw [List.forall₂_map_left_iff, List.forall₂_map_right_iff, List.forall₂_same]
  exact fun entry _ => rfl

theorem ofJson_json (store : MapStore) : Loaded.ofJson store.json = .ok store.loaded := by
  rw [json, Loaded.ofJson, entries_ofPairs_letters]
  refine bind_eq_ok_iff.2 ⟨_, mapM_eq_ok_iff.2 ?_, rfl⟩
  rw [List.forall₂_map_left_iff, List.forall₂_map_right_iff, List.forall₂_same]
  exact fun entry _ => by simp only [map?_mapJson]

theorem plainMap?_loadedMap (map : PlaceholderMap) :
    Loaded.plainMap? (loadedMap map) = some map := by
  rw [loadedMap, Loaded.plainMap?, entries_ofPairs_letters]
  refine Option.bind_eq_some_iff.2 ⟨map.entries, mapM_eq_some_iff.2 ?_, ?_⟩
  · rw [List.forall₂_map_left_iff, List.forall₂_same]
    exact fun entry _ => by simp only [Letters.text?_ofText]; rfl
  · exact congrArg some (ofPairs_entries map)

theorem plain?_loaded (store : MapStore) : store.loaded.plain? = some store := by
  rw [loaded, Loaded.plain?, entries_ofPairs_letters]
  refine Option.bind_eq_some_iff.2 ⟨store.entries, mapM_eq_some_iff.2 ?_, ?_⟩
  · rw [List.forall₂_map_left_iff, List.forall₂_same]
    exact fun entry _ => by simp only [Letters.text?_ofText, plainMap?_loadedMap]; rfl
  · exact congrArg some (ofPairs_entries store)

end Shape

/-- A store is loaded from its document, letter by letter. -/
theorem loaded_toDocument (limit : Limit) (store : MapStore) (layout : Layout) :
    Loaded.ofDocument limit (store.toDocument layout) = .ok store.loaded := by
  rw [Loaded.ofDocument, ofText_toDocument]
  simp only [ofJson_json]
  rfl

/-- What is loaded as a store of texts is that store. -/
theorem ofDocument_eq_ok {limit : Limit} {document : Text} {store : MapStore}
    (h : Loaded.ofDocument limit document = .ok store.loaded) :
    ofDocument limit document = .ok store := by
  rw [ofDocument, h]
  simp only [bind, Except.bind, plain?_loaded]
  rfl

/-- A store is read back from its document. -/
theorem ofDocument_toDocument (limit : Limit) (store : MapStore) (layout : Layout) :
    ofDocument limit (store.toDocument layout) = .ok store :=
  ofDocument_eq_ok (loaded_toDocument limit store layout)

end MapStore

end Parlance
