import Parlance.Proofs.OrderedMap
import Parlance.Proofs.Protection.Registration
/-!
What a registry of kinds keeps of the kinds that were registered in it. It holds the last kind of
every name (get?_ofList) and no name twice (nodup_names_ofList), and asks for its kinds in the order
in which their names came up first, those of message syntax before the others
(pairwise_inOrder_ofList).
-/

namespace Parlance.Placeholder

section History

variable {history : List Kind} {k k' : Kind}

/-- The kind that was registered last under a name. -/
def lastNamed? (history : List Kind) (name : Text) : Option Kind :=
  history.reverse.find? fun k => k.name = name

/-- When a name came up first. -/
def firstIndex (history : List Kind) (name : Text) : Nat := history.findIdx fun k => k.name = name

/-- Kinds of message syntax precede the others; of two that are alike in this, the one whose name
came up first precedes, whatever was registered under it then. -/
def Precedes (history : List Kind) (k k' : Kind) : Prop :=
  (k.icu = true ∧ k'.icu = false) ∨
    (k.icu = k'.icu ∧ firstIndex history k.name < firstIndex history k'.name)

theorem not_precedes_self (k : Kind) : ¬Precedes history k k := by
  rintro (⟨hicu, hother⟩ | ⟨-, hlt⟩)
  · rw [hicu] at hother
    contradiction
  · exact Nat.lt_irrefl _ hlt

/-- What registering the kinds of a history looks up. -/
theorem get?_ofList (history : List Kind) (name : Text) :
    (Kinds.ofList history).get? name = lastNamed? history name := by
  unfold Registry.get? Kinds.ofList Registry.ofPairs
  rw [OrderedMap.get?_ofPairs, OrderedMap.lastValue?, ← List.map_reverse,
    OrderedMap.lookup_map_key Kind.name, lastNamed?]

theorem name_of_mem_entries {entry : Text × Kind}
    (h : entry ∈ (Kinds.ofList history).entries.entries) : entry.1 = entry.2.name := by
  have hget : (Kinds.ofList history).get? entry.1 = some entry.2 := OrderedMap.get?_eq_some_iff.2 h
  rw [get?_ofList, lastNamed?] at hget
  have hname := List.find?_some (p := fun k : Kind => k.name = entry.1) hget
  exact (of_decide_eq_true hname).symm

theorem mem_inOrder_ofList_iff :
    k ∈ (Kinds.ofList history).inOrder ↔ lastNamed? history k.name = some k := by
  rw [Protection.mem_inOrder, ← get?_ofList, List.mem_map]
  constructor
  · rintro ⟨entry, hentry, rfl⟩
    rw [← name_of_mem_entries hentry]
    exact OrderedMap.get?_eq_some_iff.2 hentry
  · intro h
    exact ⟨(k.name, k), OrderedMap.get?_eq_some_iff.1 h, rfl⟩

theorem pairwise_entries_ofList (history : List Kind) :
    ((Kinds.ofList history).entries.entries.map Prod.snd).Pairwise fun k k' =>
      firstIndex history k.name < firstIndex history k'.name := by
  have hindex (name : Text) :
      OrderedMap.firstIndex (history.map fun k => (k.name, k)) name = firstIndex history name := by
    rw [OrderedMap.firstIndex, List.findIdx_map]
    rfl
  have hkeys := OrderedMap.pairwise_keys_ofPairs (history.map fun k => (k.name, k))
  rw [OrderedMap.keys, List.pairwise_map] at hkeys
  rw [List.pairwise_map]
  apply hkeys.imp_of_mem
  intro entry entry' hentry hentry' hlt
  rwa [hindex, hindex, name_of_mem_entries hentry, name_of_mem_entries hentry'] at hlt

theorem pairwise_inOrder_ofList (history : List Kind) :
    (Kinds.ofList history).inOrder.Pairwise (Precedes history) := by
  -- Among kinds that are alike only the order of their names counts.
  have hside {side : Kind → Bool} {icu : Bool} (hicu : ∀ k, side k = true → k.icu = icu) :
      (((Kinds.ofList history).entries.entries.map Prod.snd).filter side).Pairwise
        (Precedes history) := by
    apply ((pairwise_entries_ofList history).filter side).imp_of_mem
    intro k k' hk hk' hlt
    rw [List.mem_filter] at hk hk'
    exact .inr ⟨(hicu k hk.2).trans (hicu k' hk'.2).symm, hlt⟩
  apply List.pairwise_append.2
  refine ⟨hside fun k hk => hk, hside fun k hk => by rwa [Bool.not_eq_true'] at hk, ?_⟩
  intro k hk k' hk'
  rw [List.mem_filter] at hk hk'
  rw [Bool.not_eq_true'] at hk'
  exact .inl ⟨hk.2, hk'.2⟩

/-- Of two kinds with one name only one was registered last, so no name comes twice. -/
theorem nodup_names_ofList (history : List Kind) :
    ((Kinds.ofList history).inOrder.map Kind.name).Nodup := by
  apply List.pairwise_map.2
  apply (pairwise_inOrder_ofList history).imp_of_mem
  intro k k' hk hk' hprecedes hname
  rw [mem_inOrder_ofList_iff] at hk hk'
  rw [hname, hk', Option.some.injEq] at hk
  rw [hk] at hprecedes
  exact not_precedes_self _ hprecedes

end History

end Parlance.Placeholder
