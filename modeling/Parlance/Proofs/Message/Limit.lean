import Parlance.Proofs.Message.Demand
/-!
Limits and runs. As long as no branch is refused, a run is the same under every greater limit
(resolve_of_le): the limit counts only where a branch is refused.
-/

namespace Parlance

namespace Message

variable {L : Type} {ctx : Context L} {enter enter' : Enter} {limit : Int} {numeral : Option Text}
  {outcome : Outcome}

/-- What may be entered may be entered, and gives the same as long as nothing is refused in it. -/
def Extends (enter enter' : Enter) : Prop :=
  ∀ run, enter = some run → ∃ run', enter' = some run' ∧ ∀ numeral body outcome,
    run numeral body = .ok outcome → outcome.NoneRefused → run' numeral body = .ok outcome

theorem Demand.meet_of_extends {demand : Demand} {limit limit' : Int}
    (hextends : Extends enter enter')
    (h : demand.meet limit enter = .ok outcome) (hnone : outcome.NoneRefused) :
    demand.meet limit' enter' = .ok outcome := by
  cases demand with
  | settled result => exact h
  | branch source numeral body =>
    cases enter with
    | none =>
      -- the source is kept with a refusal
      obtain rfl := eq_kept_of_refused h
      exact absurd rfl (hnone _ (List.mem_singleton_self _))
    | some run =>
      obtain ⟨run', rfl, hrun⟩ := hextends run rfl
      exact hrun numeral body outcome h hnone

theorem resolveTokens_of_extends (hextends : Extends enter enter') {tokens : List Token}
    (h : resolveTokens ctx enter numeral tokens = .ok outcome) (hnone : outcome.NoneRefused) :
    resolveTokens { ctx with limit := limit } enter' numeral tokens = .ok outcome := by
  induction tokens generalizing outcome with
  | nil => exact h
  | cons token tokens ih =>
    rw [resolveTokens_cons, Outcome.beside_eq_ok_iff] at h ⊢
    obtain ⟨first, others, hfirst, hothers, rfl⟩ := h
    rw [Outcome.noneRefused_append] at hnone
    refine ⟨first, others, ?_, ih hothers hnone.2, rfl⟩
    rw [← Demand.meet_ofToken] at hfirst ⊢
    rw [Demand.ofToken_limit]
    exact Demand.meet_of_extends hextends hfirst hnone.1

/-- As long as no branch is refused, neither the limit nor a greater budget makes a difference. -/
theorem resolve_of_le {budget budget' : Nat} (hle : budget ≤ budget') {pattern : Text}
    (h : resolve ctx budget numeral pattern = .ok outcome) (hnone : outcome.NoneRefused) :
    resolve { ctx with limit := limit } budget' numeral pattern = .ok outcome := by
  induction budget generalizing budget' numeral pattern outcome with
  | zero =>
    obtain ⟨enter', henter'⟩ := exists_resolve_eq { ctx with limit := limit } budget'
    rw [henter', resolveWith_eq_resolveTokens]
    rw [resolve, resolveWith_eq_resolveTokens] at h
    exact resolveTokens_of_extends (by rintro run ⟨⟩) h hnone
  | succ budget ih =>
    obtain ⟨rest, rfl⟩ : ∃ rest, budget' = rest + 1 := Nat.exists_eq_succ_of_ne_zero (by omega)
    rw [resolve, resolveWith_eq_resolveTokens] at h ⊢
    refine resolveTokens_of_extends ?_ h hnone
    rintro run ⟨⟩
    exact ⟨_, rfl, fun numeral body outcome => ih (Nat.le_of_succ_le_succ hle)⟩

end Message

end Parlance
