/-!
Finite maps that remember the order in which their keys were first inserted. Inserting a key again
replaces its value and leaves its place. The main statements say what an insertion does to the
order of the keys (keys_insert) and to look-up (get?_insert).
-/

namespace Parlance

/-- Entries in order of first insertion, each key once. -/
structure OrderedMap (κ : Type u) (α : Type v) where
  entries : List (κ × α)
  nodup : (entries.map Prod.fst).Nodup

namespace OrderedMap

variable {κ : Type u} {α : Type v}

@[ext] theorem ext {m n : OrderedMap κ α} (h : m.entries = n.entries) : m = n := by
  cases m; cases n; cases h; rfl

def empty : OrderedMap κ α := ⟨[], List.nodup_nil⟩

instance : EmptyCollection (OrderedMap κ α) := ⟨empty⟩

instance : Inhabited (OrderedMap κ α) := ⟨empty⟩

def keys (m : OrderedMap κ α) : List κ := m.entries.map Prod.fst

def size (m : OrderedMap κ α) : Nat := m.entries.length

def isEmpty (m : OrderedMap κ α) : Bool := m.entries.isEmpty

variable [DecidableEq κ]

def get? (m : OrderedMap κ α) (key : κ) : Option α := m.entries.lookup key

def contains (m : OrderedMap κ α) (key : κ) : Bool := (m.get? key).isSome

/-- Put a value in the place of the entry with the same key, or at the end. -/
def place (key : κ) (value : α) : List (κ × α) → List (κ × α)
  | [] => [(key, value)]
  | (k, v) :: rest => if key = k then (key, value) :: rest else (k, v) :: place key value rest

theorem map_fst_place (key : κ) (value : α) (entries : List (κ × α)) :
    (place key value entries).map Prod.fst =
      if key ∈ entries.map Prod.fst then entries.map Prod.fst
      else entries.map Prod.fst ++ [key] := by
  induction entries with
  | nil => simp [place]
  | cons entry rest ih =>
    obtain ⟨k, v⟩ := entry
    by_cases hk : key = k
    · simp [place, hk]
    · by_cases hm : key ∈ rest.map Prod.fst
      · rw [if_pos hm] at ih
        rw [if_pos (by simp only [List.map_cons, List.mem_cons]; exact Or.inr hm)]
        simp only [place, if_neg hk, List.map_cons, ih]
      · rw [if_neg hm] at ih
        rw [if_neg (by simp only [List.map_cons, List.mem_cons, not_or]; exact ⟨hk, hm⟩)]
        simp only [place, if_neg hk, List.map_cons, ih, List.cons_append]

theorem nodup_place (key : κ) (value : α) {entries : List (κ × α)}
    (h : (entries.map Prod.fst).Nodup) : ((place key value entries).map Prod.fst).Nodup := by
  rw [map_fst_place]
  split
  · exact h
  · next hm =>
    refine List.nodup_append.2 ⟨h, by simp, ?_⟩
    intro a ha b hb hab
    simp only [List.mem_singleton] at hb
    exact hm (hb ▸ hab ▸ ha)

def insert (m : OrderedMap κ α) (key : κ) (value : α) : OrderedMap κ α :=
  ⟨place key value m.entries, nodup_place key value m.nodup⟩

/-- Of two pairs with one key the later gives the value and the earlier the place. -/
def ofPairs (pairs : List (κ × α)) : OrderedMap κ α :=
  pairs.foldl (fun m pair => m.insert pair.1 pair.2) ∅

/-- A new key goes to the end; a known one keeps its place. -/
theorem keys_insert (m : OrderedMap κ α) (key : κ) (value : α) :
    (m.insert key value).keys = if key ∈ m.keys then m.keys else m.keys ++ [key] :=
  map_fst_place key value m.entries

theorem lookup_place (key key' : κ) (value : α) (entries : List (κ × α)) :
    (place key value entries).lookup key' =
      if key' = key then some value else entries.lookup key' := by
  induction entries with
  | nil =>
    by_cases h : key' = key
    · simp [place, h]
    · simp [place, List.lookup_cons, beq_false_of_ne h, h]
  | cons entry rest ih =>
    obtain ⟨k, v⟩ := entry
    by_cases hk : key = k
    · subst hk
      by_cases h : key' = key
      · simp [place, h]
      · simp [place, List.lookup_cons, beq_false_of_ne h, h]
    · by_cases h : key' = k
      · subst h
        simp [place, hk, Ne.symm hk]
      · simp [place, hk, List.lookup_cons, beq_false_of_ne h, ih]

theorem get?_insert (m : OrderedMap κ α) (key key' : κ) (value : α) :
    (m.insert key value).get? key' = if key' = key then some value else m.get? key' :=
  lookup_place key key' value m.entries

theorem isEmpty_insert (m : OrderedMap κ α) (key : κ) (value : α) :
    (m.insert key value).isEmpty = false := by
  change (place key value m.entries).isEmpty = false
  cases m.entries with
  | nil => rfl
  | cons entry rest =>
    rw [place]
    split <;> rfl

/-- A map that has an entry is not empty. -/
theorem isEmpty_eq_false_of_get? {m : OrderedMap κ α} {key : κ} {value : α}
    (h : m.get? key = some value) : m.isEmpty = false := by
  cases hempty : m.isEmpty with
  | false => rfl
  | true =>
    rw [get?, List.isEmpty_iff.1 hempty] at h
    cases h

theorem place_of_not_mem {key : κ} (value : α) {entries : List (κ × α)}
    (h : key ∉ entries.map Prod.fst) : place key value entries = entries ++ [(key, value)] := by
  induction entries with
  | nil => rfl
  | cons entry rest ih =>
    simp only [List.map_cons, List.mem_cons, not_or] at h
    rw [place, if_neg h.1, ih h.2, List.cons_append]

/-- Pairs with distinct keys are the entries of their map. -/
theorem entries_ofPairs {pairs : List (κ × α)} (h : (pairs.map Prod.fst).Nodup) :
    (ofPairs pairs).entries = pairs := by
  suffices hfold : ∀ (m : OrderedMap κ α) (rest : List (κ × α)),
      ((m.entries ++ rest).map Prod.fst).Nodup →
      (rest.foldl (fun m pair => m.insert pair.1 pair.2) m).entries = m.entries ++ rest from
    hfold ∅ pairs h
  intro m rest hrest
  induction rest generalizing m with
  | nil => exact (List.append_nil m.entries).symm
  | cons pair rest ih =>
    have hnew : pair.1 ∉ m.entries.map Prod.fst := by
      rw [List.map_append, List.map_cons] at hrest
      intro hmem
      exact (List.nodup_append.1 hrest).2.2 _ hmem _ List.mem_cons_self rfl
    have hentries : (m.insert pair.1 pair.2).entries = m.entries ++ [pair] :=
      place_of_not_mem pair.2 hnew
    rw [List.foldl_cons, ih _ (by simpa [hentries] using hrest), hentries, List.append_assoc]
    rfl

/-- Pairs made by a function of the key are looked up by it. -/
theorem get?_ofPairs_map (f : κ → α) {keys : List κ} {key : κ} (h : key ∈ keys) :
    (ofPairs (keys.map fun k => (k, f k))).get? key = some (f key) := by
  suffices hfold : ∀ m : OrderedMap κ α, key ∈ keys ∨ m.get? key = some (f key) →
      ((keys.map fun k => (k, f k)).foldl (fun m pair => m.insert pair.1 pair.2) m).get? key =
        some (f key) from
    hfold ∅ (Or.inl h)
  clear h
  induction keys with
  | nil =>
    intro m hm
    exact hm.resolve_left List.not_mem_nil
  | cons k rest ih =>
    intro m hm
    apply ih (m.insert k (f k))
    rw [get?_insert]
    by_cases hk : key = k
    · exact Or.inr (by rw [if_pos hk, hk])
    · rw [if_neg hk]
      exact hm.imp_left fun hmem => (List.mem_cons.1 hmem).resolve_left hk

theorem get?_eq_some_iff {m : OrderedMap κ α} {key : κ} {value : α} :
    m.get? key = some value ↔ (key, value) ∈ m.entries := by
  obtain ⟨entries, hnodup⟩ := m
  change entries.lookup key = some value ↔ (key, value) ∈ entries
  induction entries with
  | nil => simp
  | cons entry rest ih =>
    obtain ⟨k, v⟩ := entry
    simp only [List.map_cons, List.nodup_cons] at hnodup
    by_cases hk : key = k
    · subst hk
      have habsent : (key, value) ∉ rest :=
        fun hmem => hnodup.1 (List.mem_map_of_mem hmem)
      simp [habsent, eq_comm]
    · simp [List.lookup_cons, beq_false_of_ne hk, hk, ih hnodup.2]

theorem get?_eq_none_iff {m : OrderedMap κ α} {key : κ} : m.get? key = none ↔ key ∉ m.keys := by
  rw [Option.eq_none_iff_forall_not_mem]
  simp only [Option.mem_def, get?_eq_some_iff, keys, List.mem_map, not_exists, not_and]
  constructor
  · rintro h ⟨k, v⟩ hmem rfl
    exact h v hmem
  · intro h v hmem
    exact h (key, v) hmem rfl

/-- Maps with the same entries in any order, where values are compared by a relation. -/
def sameEntries (same : α → α → Bool) (m n : OrderedMap κ α) : Bool :=
  m.size == n.size && m.entries.all fun entry => (n.get? entry.1).any (same entry.2)

def erase (m : OrderedMap κ α) (key : κ) : OrderedMap κ α :=
  ⟨m.entries.filter fun entry => entry.1 ≠ key, m.nodup.sublist (List.filter_sublist.map _)⟩

end OrderedMap

end Parlance
