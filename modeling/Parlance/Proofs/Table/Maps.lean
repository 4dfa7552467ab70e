import Mathlib.Data.List.Nodup
import Parlance.Proofs.OrderedMap
import Parlance.Proofs.Text.Run
import Parlance.Table.Flat
/-!
Which maps a flat table keeps. The key of a cell is namespace, key and culture with colons between
them, so two cells may have one key, and then the map of the later one stays for both (keeps_iff).
Where no namespace and no culture has a colon the keys tell the cells apart (key_inj).
-/

namespace Parlance

namespace MapStore

variable {space space' name name' culture culture' : Text}

/-- The word for a culture at the end of a key. -/
def cultureWord (culture : Text) : Text := if culture.isEmpty then sourceCulture else culture

/-- A colon ends a text that has none. -/
theorem append_colon_inj {s s' t t' : Text} (hs : ':' ∉ s) (hs' : ':' ∉ s')
    (h : s ++ ':' :: t = s' ++ ':' :: t') : s = s' ∧ t = t' := by
  have hall {u : Text} (hu : ':' ∉ u) : ∀ c ∈ u, (c != ':') = true := by
    intro c hc
    rw [bne_iff_ne]
    rintro rfl
    exact hu hc
  have hends (u : Text) : Text.Ends (· != ':') (':' :: u) := Text.ends_cons.2 (by decide)
  let a : Text.Run (· != ':') := ⟨s, hall hs⟩
  let a' : Text.Run (· != ':') := ⟨s', hall hs'⟩
  obtain ⟨hrun, hrest⟩ := Text.Run.append_inj (a := a) (b := a') (hends t) (hends t') h
  exact ⟨congrArg Text.Run.text hrun, (List.cons.inj hrest).2⟩

theorem colon_not_mem_cultureWord (h : ':' ∉ culture) : ':' ∉ cultureWord culture := by
  rw [cultureWord]
  split
  · decide
  · exact h

/-- Without colons in namespaces and cultures a key tells what it is put together from. -/
theorem key_inj (hspace : ':' ∉ space) (hspace' : ':' ∉ space')
    (hculture : ':' ∉ culture) (hculture' : ':' ∉ culture')
    (h : key space name culture = key space' name' culture') :
    space = space' ∧ name = name' ∧ cultureWord culture = cultureWord culture' := by
  rw [key, key, List.append_assoc, List.append_assoc, List.cons_append, List.cons_append] at h
  obtain ⟨rfl, hrest⟩ := append_colon_inj hspace hspace' h
  -- the name may hold colons, but the last colon is the one before the culture
  have hreverse : (cultureWord culture).reverse ++ ':' :: name.reverse =
      (cultureWord culture').reverse ++ ':' :: name'.reverse := by
    simpa [cultureWord] using congrArg List.reverse hrest
  have hword := mt List.mem_reverse.1 (colon_not_mem_cultureWord hculture)
  have hword' := mt List.mem_reverse.1 (colon_not_mem_cultureWord hculture')
  obtain ⟨hculture, hname⟩ := append_colon_inj hword hword' hreverse
  exact ⟨rfl, List.reverse_inj.1 hname, List.reverse_inj.1 hculture⟩

end MapStore

namespace Table

open Protection Placeholder

namespace Flat

/-- Every text that is not empty has its own map under its own key. -/
structure Keeps (kinds : Kinds) (entries : List Entry) (cultures : List Text) : Prop where
  source : ∀ e ∈ entries, (ofEntries kinds entries cultures).maps.get?
    (MapStore.key e.space e.key []) = some (protect kinds e.source).map
  localized : ∀ e ∈ entries, ∀ culture ∈ cultures, (e.localized culture).isEmpty = false →
    (ofEntries kinds entries cultures).maps.get? (MapStore.key e.space e.key culture) =
      some (protect kinds (e.localized culture)).map

/-- Entries and cultures whose keys are told apart by their colons. -/
structure Separate (entries : List Entry) (cultures : List Text) : Prop where
  distinct : (entries.map fun e => (e.space, e.key)).Nodup
  named : [] ∉ cultures
  not_source : MapStore.sourceCulture ∉ cultures
  spaces : ∀ e ∈ entries, ':' ∉ e.space
  cultures : ∀ culture ∈ cultures, ':' ∉ culture

section Cells

variable {kinds : Kinds} {entries : List Entry} {cultures : List Text}

theorem keeps_iff_forall_mem :
    Keeps kinds entries cultures ↔
      ∀ cell ∈ entries.flatMap (Entry.maps kinds cultures),
        (ofEntries kinds entries cultures).maps.get? cell.1 = some cell.2 := by
  simp only [List.mem_flatMap, Entry.maps, List.mem_cons, List.mem_map, List.mem_filter,
    Bool.not_eq_true']
  constructor
  · rintro h cell ⟨e, he, rfl | ⟨culture, ⟨hculture, hpresent⟩, rfl⟩⟩
    · exact h.source e he
    · exact h.localized e he culture hculture hpresent
  · intro h
    refine ⟨fun e he => h _ ⟨e, he, .inl rfl⟩, fun e he culture hculture hpresent => ?_⟩
    exact h _ ⟨e, he, .inr ⟨culture, ⟨hculture, hpresent⟩, rfl⟩⟩

/-- The text in the cell of a culture, or the source text for the empty culture. -/
def textOf (e : Entry) (culture : Text) : Text :=
  if culture.isEmpty then e.source else e.localized culture

theorem exists_culture_of_mem_maps {e : Entry} (hnamed : [] ∉ cultures)
    {cell : Text × PlaceholderMap} (h : cell ∈ e.maps kinds cultures) :
    ∃ culture ∈ [] :: cultures, cell =
      (MapStore.key e.space e.key culture, (protect kinds (textOf e culture)).map) := by
  rcases List.mem_cons.1 h with rfl | h
  · exact ⟨[], List.mem_cons_self, rfl⟩
  · obtain ⟨culture, hpresent, rfl⟩ := List.mem_map.1 h
    have hculture := (List.mem_filter.1 hpresent).1
    have hne : culture.isEmpty = false := by
      rw [List.isEmpty_eq_false_iff]
      rintro rfl
      exact hnamed hculture
    refine ⟨culture, List.mem_cons_of_mem _ hculture, ?_⟩
    rw [textOf, hne]
    rfl

/-- The word of no culture is that of another or that of source texts. -/
theorem Separate.culture_inj (h : Separate entries cultures) {culture other : Text}
    (hculture : culture ∈ [] :: cultures) (hother : other ∈ [] :: cultures)
    (hword : MapStore.cultureWord culture = MapStore.cultureWord other) : culture = other := by
  have hword_of_mem {culture : Text} (hculture : culture ∈ cultures) :
      MapStore.cultureWord culture = culture := by
    rw [MapStore.cultureWord, if_neg]
    intro hempty
    exact h.named (List.isEmpty_iff.1 hempty ▸ hculture)
  have hsource : MapStore.cultureWord [] = MapStore.sourceCulture := rfl
  rcases List.mem_cons.1 hculture with rfl | hculture <;>
    rcases List.mem_cons.1 hother with rfl | hother
  · rfl
  · rw [hsource, hword_of_mem hother] at hword
    exact absurd (hword ▸ hother) h.not_source
  · rw [hsource, hword_of_mem hculture] at hword
    exact absurd (hword ▸ hculture) h.not_source
  · rwa [hword_of_mem hculture, hword_of_mem hother] at hword

/-- Cells with one key are one cell. -/
theorem Separate.eq_of_key (h : Separate entries cultures) :
    ∀ cell ∈ entries.flatMap (Entry.maps kinds cultures),
      ∀ other ∈ entries.flatMap (Entry.maps kinds cultures),
        cell.1 = other.1 → cell.2 = other.2 := by
  have hcolon : ∀ culture ∈ [] :: cultures, ':' ∉ culture :=
    List.forall_mem_cons.2 ⟨List.not_mem_nil, h.cultures⟩
  intro cell hcell other hother hkey
  obtain ⟨e, he, hcell⟩ := List.mem_flatMap.1 hcell
  obtain ⟨e', he', hother⟩ := List.mem_flatMap.1 hother
  obtain ⟨culture, hculture, rfl⟩ := exists_culture_of_mem_maps h.named hcell
  obtain ⟨culture', hculture', rfl⟩ := exists_culture_of_mem_maps h.named hother
  obtain ⟨hspace, hname, hword⟩ := MapStore.key_inj (h.spaces e he) (h.spaces e' he')
    (hcolon culture hculture) (hcolon culture' hculture') hkey
  obtain rfl := List.inj_on_of_nodup_map h.distinct he he' (Prod.ext hspace hname)
  obtain rfl := h.culture_inj hculture hculture' hword
  rfl

end Cells

/-- A flat table keeps the maps of all its texts exactly if texts with one key have one map, as they
have where the keys are told apart by their colons. -/
theorem keeps_iff (kinds : Kinds) (entries : List Entry) (cultures : List Text) :
    (Keeps kinds entries cultures ↔
      ∀ cell ∈ entries.flatMap (Entry.maps kinds cultures),
        ∀ other ∈ entries.flatMap (Entry.maps kinds cultures),
          cell.1 = other.1 → cell.2 = other.2) ∧
    (Separate entries cultures → Keeps kinds entries cultures) := by
  have hiff : Keeps kinds entries cultures ↔ _ :=
    keeps_iff_forall_mem.trans OrderedMap.get?_ofPairs_iff
  exact ⟨hiff, fun h => hiff.2 h.eq_of_key⟩

/-- An entry with a source text and nothing else. -/
def sourceEntry (space key source : Text) : Entry :=
  { space, key, source, category := defaultCategory, context := none, comment := none
    localizations := ∅, maxLength := none }

/-- Two keys of one namespace, one of them with a colon. -/
theorem keeps_greetings :
    let entries := [sourceEntry "Game" "Menu:Hello" "Hello, \x7bname\x7d!",
      { sourceEntry "Game" "Bye" "Bye, \x7b0\x7d!" with
        localizations := .ofPairs [("de".toList, "\x7b0\x7d, auf Wiedersehen!".toList)] }]
    let cultures := ["de".toList, "fr".toList]
    Separate entries cultures ∧ Keeps .default entries cultures := by
  intro entries cultures
  have hseparate : Separate entries cultures :=
    ⟨by decide, by decide, by decide, by decide, by decide⟩
  exact ⟨hseparate, (keeps_iff .default entries cultures).2 hseparate⟩

/-- The colon of a key can be taken for that of a namespace; then the later source text takes the
place of the other. -/
theorem not_keeps_colliding :
    let entries := [sourceEntry "a:b" "c" "\x7bx\x7d", sourceEntry "a" "b:c" "\x7by\x7d"]
    (entries.map fun e => (e.space, e.key)).Nodup ∧ ¬Keeps .default entries [] := by
  intro entries
  refine ⟨by decide, fun h => ?_⟩
  have hfirst := h.source (sourceEntry "a:b" "c" "\x7bx\x7d") List.mem_cons_self
  have hsecond := h.source (sourceEntry "a" "b:c" "\x7by\x7d")
    (List.mem_cons_of_mem _ List.mem_cons_self)
  have hkey : MapStore.key "a:b" "c" [] = MapStore.key "a" "b:c" [] := by decide
  have hmaps : (protect .default "\x7bx\x7d").map.entries =
      (protect .default "\x7by\x7d").map.entries := by
    rw [sourceEntry] at hfirst hsecond
    simp only at hfirst hsecond
    rw [hkey, hsecond] at hfirst
    rw [Option.some.inj hfirst]
  have hdistinct : (protect .default "\x7bx\x7d").map.entries ≠
      (protect .default "\x7by\x7d").map.entries := by
    decide +kernel
  exact hdistinct hmaps

end Flat

end Table

end Parlance
