import Parlance.Placeholder.Registries
import Parlance.Proofs.Placeholder.History
import Parlance.Proofs.Traverse
/-!
Registries that are made, filled, copied and frozen in any order. What an action can do is said once
(performed). From it follows that whatever was done, a registry is what registering its history anew
would give (run_eq_map_registry), where a copy takes over the history of its origin
(run_reflects_histories).
-/

namespace Parlance.Placeholder

namespace Registries

section Actions

variable {rs rs' : Registries} {r : Kinds} {a : Action} {answer : Except Refusal Unit}
  {number : Nat}

/-- The number of the registry that an action is about, if that has one before. -/
def Action.number? : Action → Option Nat
  | .create _ => none
  | .register number _ => some number
  | .copy number => some number
  | .freeze number => some number

/-- What an action can do. -/
inductive Performed (rs : Registries) : Action → Except Refusal Unit → Registries → Prop
  | created (kinds : List Kind) :
      Performed rs (.create kinds) (.ok ()) (rs ++ [.ofList kinds])
  | registered {number : Nat} {r : Kinds} (k : Kind) (hr : rs[number]? = some r)
      (hopen : r.frozen = false) :
      Performed rs (.register number k) (.ok ())
        (rs.set number { r with entries := r.entries.insert k.name k })
  | frozen {number : Nat} {r : Kinds} (k : Kind) (hr : rs[number]? = some r)
      (hfrozen : r.frozen = true) : Performed rs (.register number k) (.error .frozen) rs
  | copied {number : Nat} {r : Kinds} (hr : rs[number]? = some r) :
      Performed rs (.copy number) (.ok ()) (rs ++ [r.copy])
  | froze {number : Nat} {r : Kinds} (hr : rs[number]? = some r) :
      Performed rs (.freeze number) (.ok ()) (rs.set number r.freeze)
  | missing {a : Action} {number : Nat} (hnumber : a.number? = some number)
      (hr : rs[number]? = none) : Performed rs a (.error .missing) rs

theorem run_find_bind {α : Type} (rs : Registries) (number : Nat) (next : Kinds → Change α) :
    (find number >>= next).run.run rs =
      match rs[number]? with
      | some r => (next r).run.run rs
      | none => (.error .missing, rs) := by
  rw [find, bind_assoc, ExceptT.run_bind, StateT.run_bind]
  change ((match rs[number]? with
    | some r => (return r : Change Kinds)
    | none => throw Refusal.missing) >>= next).run.run rs = _
  cases rs[number]? <;> rfl

theorem perform_register (hr : rs[number]? = some r) (k : Kind) :
    rs.perform (.register number k) =
      if r.frozen then (.error .frozen, rs)
      else (.ok (), rs.set number { r with entries := r.entries.insert k.name k }) := by
  unfold perform change register
  rw [run_find_bind, hr]
  by_cases hfrozen : r.frozen = true
  · have hregister : r.register k.name k = .error .frozen := if_pos hfrozen
    rw [if_pos hfrozen]
    simp only [hregister]
    rfl
  · have hregister : r.register k.name k =
        .ok { r with entries := r.entries.insert k.name k } := if_neg hfrozen
    rw [if_neg hfrozen]
    simp only [hregister]
    rfl

theorem performed (rs : Registries) (a : Action) :
    Performed rs a (rs.perform a).1 (rs.perform a).2 := by
  cases a with
  | create kinds => exact .created kinds
  | register number k =>
    cases hr : rs[number]? with
    | none =>
      unfold perform change register
      rw [run_find_bind, hr]
      exact .missing rfl hr
    | some r =>
      rw [perform_register hr]
      by_cases hfrozen : r.frozen = true
      · rw [if_pos hfrozen]
        exact .frozen k hr hfrozen
      · rw [if_neg hfrozen]
        exact .registered k hr (Bool.eq_false_of_not_eq_true hfrozen)
  | copy number =>
    unfold perform change copy
    simp only [bind_assoc, run_find_bind]
    cases hr : rs[number]? with
    | none => exact .missing rfl hr
    | some r => exact .copied hr
  | freeze number =>
    unfold perform change freeze
    rw [run_find_bind]
    cases hr : rs[number]? with
    | none => exact .missing rfl hr
    | some r => exact .froze hr

/-- Only registering in a registry and freezing it change it. -/
theorem Performed.getElem?_eq (h : Performed rs a answer rs')
    (hregister : ∀ k, a ≠ .register number k) (hfreeze : a ≠ .freeze number)
    (hnumber : number < rs.length) : rs'[number]? = rs[number]? := by
  cases h with
  | created kinds => exact List.getElem?_append_left hnumber
  | registered k hr hopen =>
    apply List.getElem?_set_ne
    rintro rfl
    exact hregister k rfl
  | frozen k hr hfrozen => rfl
  | copied hr => exact List.getElem?_append_left hnumber
  | froze hr =>
    apply List.getElem?_set_ne
    rintro rfl
    exact hfreeze rfl
  | missing hnone hr => rfl

end Actions

section Lives

/-- What has become of a registry: the kinds that were registered in it, or in its origin before it
was copied, first to last, and whether it was frozen. -/
structure Life where
  history : List Kind
  frozen : Bool

namespace Life

/-- A frozen registry takes nothing. -/
def register (life : Life) (k : Kind) : Life :=
  if life.frozen then life else { life with history := life.history ++ [k] }

/-- A copy goes on from the same history and is not frozen. -/
def copy (life : Life) : Life := { life with frozen := false }

def freeze (life : Life) : Life := { life with frozen := true }

/-- The registry that registering the history anew would give. -/
def registry (life : Life) : Kinds := { Kinds.ofList life.history with frozen := life.frozen }

end Life

/-- Lives after an action. Only registering and freezing go on with a life, and with one only. -/
def livesAfter (lives : List Life) : Action → List Life
  | .create kinds => lives ++ [⟨kinds, false⟩]
  | .register number k => lives.modify number (·.register k)
  | .copy number => lives ++ (lives[number]?.map Life.copy).toList
  | .freeze number => lives.modify number Life.freeze

def livesOf (actions : List Action) : List Life := actions.foldl livesAfter []

variable {lives : List Life} {life : Life} {number : Nat}

theorem modify_of_getElem? (h : lives[number]? = some life) (f : Life → Life) :
    lives.modify number f = lives.set number (f life) := by
  rw [List.modify_eq_set_getElem?, h]
  rfl

theorem modify_of_none (h : lives[number]? = none) (f : Life → Life) :
    lives.modify number f = lives := by
  rw [List.modify_eq_set_getElem?, h]
  rfl

theorem exists_life_of_getElem? {r : Kinds} (h : (lives.map Life.registry)[number]? = some r) :
    ∃ life, lives[number]? = some life ∧ life.registry = r := by
  rwa [List.getElem?_map, Option.map_eq_some_iff] at h

theorem registry_register (hopen : life.frozen = false) (k : Kind) :
    (life.register k).registry =
      { life.registry with entries := life.registry.entries.insert k.name k } := by
  have hregister : life.register k = { life with history := life.history ++ [k] } :=
    if_neg (by rw [hopen]; exact Bool.false_ne_true)
  have hentries : (Kinds.ofList (life.history ++ [k])).entries =
      (Kinds.ofList life.history).entries.insert k.name k := by
    unfold Kinds.ofList Registry.ofPairs
    rw [List.map_append]
    exact OrderedMap.ofPairs_append_singleton _ (k.name, k)
  rw [hregister, Life.registry, hentries]
  rfl

/-- If registries are what registering their histories anew gives, then so they are after an
action. -/
theorem Performed.eq_map_registry {a : Action} {answer : Except Refusal Unit} {rs' : Registries}
    (h : Performed (lives.map Life.registry) a answer rs') :
    rs' = (livesAfter lives a).map Life.registry := by
  cases h with
  | created kinds =>
    rw [livesAfter, List.map_append]
    rfl
  | registered k hr hopen =>
    obtain ⟨life, hlife, rfl⟩ := exists_life_of_getElem? hr
    rw [livesAfter, modify_of_getElem? hlife, List.map_set, registry_register hopen]
  | frozen k hr hfrozen =>
    obtain ⟨life, hlife, rfl⟩ := exists_life_of_getElem? hr
    have hregister : life.register k = life := if_pos hfrozen
    obtain ⟨hlt, hget⟩ := List.getElem?_eq_some_iff.1 hlife
    rw [livesAfter, modify_of_getElem? hlife, hregister, ← hget, List.set_getElem_self]
  | copied hr =>
    obtain ⟨life, hlife, rfl⟩ := exists_life_of_getElem? hr
    rw [livesAfter, hlife, List.map_append]
    rfl
  | froze hr =>
    obtain ⟨life, hlife, rfl⟩ := exists_life_of_getElem? hr
    rw [livesAfter, modify_of_getElem? hlife, List.map_set]
    rfl
  | missing hnumber hnone =>
    rw [List.getElem?_map, Option.map_eq_none_iff] at hnone
    cases a with
    | create kinds => cases hnumber
    | register number k =>
      cases hnumber
      rw [livesAfter, modify_of_none hnone]
    | copy number =>
      cases hnumber
      rw [livesAfter, hnone, Option.map_none, Option.toList_none, List.append_nil]
    | freeze number =>
      cases hnumber
      rw [livesAfter, modify_of_none hnone]

theorem run_eq_map_registry (actions : List Action) :
    run actions = (livesOf actions).map Life.registry := by
  have hstep (lives : List Life) (a : Action) :
      after (lives.map Life.registry) a = (livesAfter lives a).map Life.registry :=
    (performed _ a).eq_map_registry
  change actions.foldl after (([] : List Life).map Life.registry) = _
  exact List.foldl_hom (List.map Life.registry) hstep

/-- A registry holds what its history says. -/
structure Reflects (life : Life) (r : Kinds) : Prop where
  frozen_eq : r.frozen = life.frozen
  get?_eq : ∀ name, r.get? name = lastNamed? life.history name
  mem_inOrder_iff : ∀ k, k ∈ r.inOrder ↔ lastNamed? life.history k.name = some k
  nodup_names : (r.inOrder.map Kind.name).Nodup
  pairwise_inOrder : r.inOrder.Pairwise (Precedes life.history)

theorem reflects_registry (life : Life) : Reflects life life.registry where
  frozen_eq := rfl
  get?_eq := get?_ofList life.history
  mem_inOrder_iff _ := mem_inOrder_ofList_iff
  nodup_names := nodup_names_ofList life.history
  pairwise_inOrder := pairwise_inOrder_ofList life.history

end Lives

section Matching

open Construct

variable {text : Text} {earlier : List Index.Question}

/-- An index finds the first kind of the list, whatever it was asked before. -/
theorem firstAccepted_matchAt (text : Text) (start stop : Int) (earlier : List Index.Question)
    (r : Kinds) :
    FirstAccepted
      (fun k => ((earlier.foldl Index.after (.ofPattern text)).ask (k.acceptsAt start stop)).1)
      r.inOrder ((earlier.foldl Index.after (.ofPattern text)).ask (r.matchAt start stop)).1 := by
  have hfaithful := (Index.faithful_ofPattern text).foldl_after earlier
  have haccepts (k : Kind) :
      ((earlier.foldl Index.after (.ofPattern text)).ask (k.acceptsAt start stop)).1 =
        Index.acceptsBetween (Brace.mark text) start stop k :=
    (Index.answers_acceptsAt start stop k _ hfaithful).1
  rw [funext haccepts, (Index.answers_matchAt r start stop _ hfaithful).1]
  exact firstAccepted_findM? _ _

/-- No kind has trouble with a part of the text. -/
theorem exists_matchAt {start stop : Nat} (hstart : start ≤ stop) (hstop : stop ≤ text.length)
    (earlier : List Index.Question) (r : Kinds) :
    ∃ k?, ((earlier.foldl Index.after (.ofPattern text)).ask (r.matchAt start stop)).1 =
      .ok k? := by
  cases hanswer : ((earlier.foldl Index.after (.ofPattern text)).ask (r.matchAt start stop)).1 with
  | ok k? => exact ⟨k?, rfl⟩
  | error e =>
    have hfirst := firstAccepted_matchAt text start stop earlier r
    obtain ⟨before, k, after, -, -, hk⟩ := (hfirst.error_iff e).1 hanswer
    rw [Protection.ask_acceptsAt hstart hstop] at hk
    contradiction

end Matching

/-- Whatever is done to registries, each holds one kind for every name, the one that was registered
last in its history, and asks for its kinds as their names came up in it, those of message syntax
before the others. A copy takes over the history of its origin. An index finds the first kind of the
list that accepts. A frozen registry refuses kinds, and nothing changes; one that is not frozen
takes them. Only registering in a registry and freezing it change it. -/
theorem run_reflects_histories (actions : List Action) :
    List.Forall₂ Reflects (livesOf actions) (run actions) ∧
    (∀ r ∈ run actions, ∀ (text : Text) (earlier : List Construct.Index.Question),
      let index := earlier.foldl Construct.Index.after (.ofPattern text)
      (∀ start stop : Int,
        FirstAccepted (fun k => (index.ask (k.acceptsAt start stop)).1) r.inOrder
          (index.ask (r.matchAt start stop)).1) ∧
      ∀ start stop : Nat, start ≤ stop → stop ≤ text.length →
        ∃ k?, (index.ask (r.matchAt start stop)).1 = .ok k?) ∧
    (∀ (number : Nat) (life : Life) (k : Kind), (livesOf actions)[number]? = some life →
      (life.frozen = true →
        (run actions).perform (.register number k) = (.error .frozen, run actions)) ∧
      (life.frozen = false → ((run actions).perform (.register number k)).1 = .ok ())) ∧
    ∀ (a : Action) (number : Nat), number < (run actions).length →
      (∀ k, a ≠ .register number k) → a ≠ .freeze number →
      ((run actions).after a)[number]? = (run actions)[number]? := by
  refine ⟨?_, ?_, ?_, ?_⟩
  · rw [run_eq_map_registry, List.forall₂_map_right_iff, List.forall₂_same]
    intro life hlife
    exact reflects_registry life
  · intro r hr text earlier
    exact ⟨fun start stop => firstAccepted_matchAt text start stop earlier r,
      fun start stop hstart hstop => exists_matchAt hstart hstop earlier r⟩
  · intro number life k hlife
    have hr : (run actions)[number]? = some life.registry := by
      rw [run_eq_map_registry, List.getElem?_map, hlife, Option.map_some]
    rw [perform_register hr]
    refine ⟨fun hfrozen => if_pos hfrozen, fun hopen => ?_⟩
    have hclosed : ¬life.registry.frozen = true := by
      rw [Life.registry, hopen]
      exact Bool.false_ne_true
    rw [if_neg hclosed]
  · intro a number hnumber hregister hfreeze
    exact (performed _ a).getElem?_eq hregister hfreeze hnumber

-- The copy changes the flag of a kind, which the origin does not see, and then takes no more.
example :
    let kind (name : Text) (icu : Bool) : Kind := ⟨name, .nothing, icu⟩
    (run [.create [kind ['a'] false, kind ['b'] false, kind ['c'] true], .copy 0,
      .register 1 (kind ['b'] true), .freeze 1, .register 1 (kind ['d'] true)]).map
        (fun r => r.inOrder.map Kind.name) =
      [[['c'], ['a'], ['b']], [['b'], ['c'], ['a']]] := by
  decide

end Registries

end Parlance.Placeholder
