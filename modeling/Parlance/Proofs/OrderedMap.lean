import Mathlib.Data.List.Forall2
import Mathlib.Data.List.Induction
import Parlance.OrderedMap
/-!
Maps that are made from pairs. Of two pairs with one key the later gives the value
(get?_ofPairs), and keys stand in the order in which they occur first (pairwise_keys_ofPairs). Where
every value gives way to a related one the values that are looked up are related
(rel_get?_ofPairs).
-/

namespace Parlance

namespace OrderedMap

variable {κ : Type u} {α : Type v} [DecidableEq κ] {pairs : List (κ × α)} {key : κ}

theorem ofPairs_append_singleton (pairs : List (κ × α)) (pair : κ × α) :
    ofPairs (pairs ++ [pair]) = (ofPairs pairs).insert pair.1 pair.2 := by
  rw [ofPairs, List.foldl_append]
  rfl

theorem get?_ofPairs_append_singleton (pairs : List (κ × α)) (pair : κ × α) (key : κ) :
    (ofPairs (pairs ++ [pair])).get? key =
      if key = pair.1 then some pair.2 else (ofPairs pairs).get? key := by
  rw [ofPairs_append_singleton]
  exact get?_insert _ pair.1 key pair.2

/-- Of pairs with one key the last one counts. -/
def lastValue? (pairs : List (κ × α)) (key : κ) : Option α := pairs.reverse.lookup key

/-- Values that go by a key of their own. -/
theorem lookup_map_key (f : α → κ) (l : List α) (key : κ) :
    (l.map fun a => (f a, a)).lookup key = l.find? fun a => f a = key := by
  induction l with
  | nil => rfl
  | cons a l ih =>
    rw [List.map_cons, List.lookup_cons, List.find?_cons, ih]
    by_cases hkey : f a = key
    · rw [beq_iff_eq.2 hkey.symm, decide_eq_true hkey]
    · rw [beq_false_of_ne (Ne.symm hkey), decide_eq_false hkey]

theorem get?_ofPairs (pairs : List (κ × α)) (key : κ) :
    (ofPairs pairs).get? key = lastValue? pairs key := by
  induction pairs using List.reverseRecOn with
  | nil => rfl
  | append_singleton pairs last ih =>
    rw [get?_ofPairs_append_singleton, ih, lastValue?, lastValue?, List.reverse_append,
      List.reverse_singleton, List.singleton_append, List.lookup_cons]
    by_cases hkey : key = last.1
    · rw [if_pos hkey, beq_iff_eq.2 hkey]
    · rw [if_neg hkey, beq_false_of_ne hkey]

/-- What is looked up is the value of a pair with the key. -/
theorem exists_of_mem_ofPairs (h : key ∈ pairs.map Prod.fst) :
    ∃ pair ∈ pairs, pair.1 = key ∧ (ofPairs pairs).get? key = some pair.2 := by
  induction pairs using List.reverseRecOn with
  | nil => exact absurd h List.not_mem_nil
  | append_singleton pairs last ih =>
    rw [get?_ofPairs_append_singleton]
    by_cases hlast : key = last.1
    · exact ⟨last, List.mem_append_right _ List.mem_cons_self, hlast.symm, if_pos hlast⟩
    · rw [if_neg hlast]
      rw [List.map_append, List.mem_append] at h
      obtain ⟨pair, hpair, hkey⟩ := ih (h.resolve_right (by simpa using hlast))
      exact ⟨pair, List.mem_append_left _ hpair, hkey⟩

/-- All pairs are kept exactly if pairs with one key have one value. -/
theorem get?_ofPairs_iff :
    (∀ pair ∈ pairs, (ofPairs pairs).get? pair.1 = some pair.2) ↔
      ∀ pair ∈ pairs, ∀ other ∈ pairs, pair.1 = other.1 → pair.2 = other.2 := by
  constructor
  · intro h pair hpair other hother hkey
    have hsame := h other hother
    rw [← hkey, h pair hpair] at hsame
    exact Option.some.inj hsame
  · intro h pair hpair
    obtain ⟨other, hother, hkey, hget⟩ := exists_of_mem_ofPairs (List.mem_map_of_mem hpair)
    rw [hget, h other hother pair hpair hkey]

section Order

theorem mem_keys_ofPairs : key ∈ (ofPairs pairs).keys ↔ key ∈ pairs.map Prod.fst := by
  induction pairs using List.reverseRecOn with
  | nil => exact Iff.rfl
  | append_singleton pairs last ih =>
    rw [ofPairs_append_singleton, keys_insert, List.map_append, List.mem_append, List.map_singleton,
      List.mem_singleton]
    by_cases hlast : last.1 ∈ (ofPairs pairs).keys
    · rw [if_pos hlast, ih, iff_self_or]
      rintro rfl
      exact ih.1 hlast
    · rw [if_neg hlast, List.mem_append, ih, List.mem_singleton]

/-- Where a key occurs first. -/
def firstIndex (pairs : List (κ × α)) (key : κ) : Nat := pairs.findIdx fun pair => pair.1 = key

theorem firstIndex_lt_length_iff :
    firstIndex pairs key < pairs.length ↔ key ∈ pairs.map Prod.fst := by
  rw [firstIndex, List.findIdx_lt_length]
  simp

theorem firstIndex_append (pairs more : List (κ × α)) (key : κ) :
    firstIndex (pairs ++ more) key =
      if key ∈ pairs.map Prod.fst then firstIndex pairs key
      else firstIndex more key + pairs.length := by
  rw [firstIndex, List.findIdx_append]
  exact if_congr firstIndex_lt_length_iff rfl rfl

/-- Keys stand in the order in which they occur first. -/
theorem pairwise_keys_ofPairs (pairs : List (κ × α)) :
    (ofPairs pairs).keys.Pairwise fun k k' => firstIndex pairs k < firstIndex pairs k' := by
  induction pairs using List.reverseRecOn with
  | nil => exact List.Pairwise.nil
  | append_singleton pairs last ih =>
    -- Keys that are known already occur first where they did.
    have hknown {k : κ} (hk : k ∈ (ofPairs pairs).keys) :
        firstIndex (pairs ++ [last]) k = firstIndex pairs k := by
      rw [firstIndex_append, if_pos (mem_keys_ofPairs.1 hk)]
    have hold : (ofPairs pairs).keys.Pairwise fun k k' =>
        firstIndex (pairs ++ [last]) k < firstIndex (pairs ++ [last]) k' := by
      apply ih.imp_of_mem
      intro k k' hk hk' hlt
      rwa [hknown hk, hknown hk']
    rw [ofPairs_append_singleton, keys_insert]
    by_cases hlast : last.1 ∈ (ofPairs pairs).keys
    · rw [if_pos hlast]
      exact hold
    · rw [if_neg hlast]
      refine List.pairwise_append.2 ⟨hold, List.pairwise_singleton _ _, ?_⟩
      intro k hk k' hk'
      rw [List.mem_singleton] at hk'
      rw [hk', hknown hk, firstIndex_append, if_neg (mt mem_keys_ofPairs.2 hlast)]
      have hlt := firstIndex_lt_length_iff.2 (mem_keys_ofPairs.1 hk)
      omega

end Order

section Related

variable {β : Type w} {Related : α → β → Prop} {entries : List (κ × α)} {results : List (κ × β)}

/-- Of two related entries the keys are the same and the values are related. -/
def RelatedEntry (Related : α → β → Prop) (entry : κ × α) (result : κ × β) : Prop :=
  entry.1 = result.1 ∧ Related entry.2 result.2

omit [DecidableEq κ] in
theorem map_fst_of_related (h : List.Forall₂ (RelatedEntry Related) entries results) :
    entries.map Prod.fst = results.map Prod.fst := by
  induction h with
  | nil => rfl
  | cons hfirst _ ih => rw [List.map_cons, List.map_cons, hfirst.1, ih]

theorem rel_lookup (h : List.Forall₂ (RelatedEntry Related) entries results) (key : κ) :
    Option.Rel Related (entries.lookup key) (results.lookup key) := by
  induction h with
  | nil => exact .none
  | @cons entry result entries results hfirst _ ih =>
    rw [List.lookup_cons, List.lookup_cons, hfirst.1]
    cases key == result.1 with
    | true => exact .some hfirst.2
    | false => exact ih

/-- A map whose values give way to related ones, key by key, is looked up alike. -/
theorem rel_get?_ofPairs {m : OrderedMap κ α}
    (h : List.Forall₂ (RelatedEntry Related) m.entries results) (key : κ) :
    Option.Rel Related (m.get? key) ((ofPairs results).get? key) := by
  have hresults : (ofPairs results).entries = results :=
    entries_ofPairs (map_fst_of_related h ▸ m.nodup)
  rw [get?, get?, hresults]
  exact rel_lookup h key

end Related

end OrderedMap

end Parlance
