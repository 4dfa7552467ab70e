import Parlance.Proofs.Message.Guarded
/-!
How deep a run goes. A run under a guard comes to what the run with a budget of levels comes to,
leaves the guard as it was, and never has more branches open than the guard lets in; a branch is
refused only in a pattern with enough opening braces (Orderly, keeps_resolveGuarded). The main
statement says what the limit of a resolver does to a run (resolve_depth).
-/

namespace Parlance

namespace Depth

theorem clamp_mono {d d' : Int} (h : d ≤ d') (frames reserve : Int) :
    clamp frames d reserve ≤ clamp frames d' reserve := by
  rw [clamp, clamp]
  omega

theorem clamp_nonneg {d : Int} (h : 0 ≤ d) (frames reserve : Int) : 0 ≤ clamp frames d reserve := by
  rw [clamp, greatest]
  omega

namespace Guard

variable {g : Guard}

/-- How many more levels the guard lets in. -/
def levels (g : Guard) : Nat := (g.limit - g.current).toNat

theorem enter_of_le (h : g.limit ≤ g.current) :
    g.enter = .error <$> refusal g.limit := by
  rw [enter, isExceeded, decide_eq_true h, if_pos rfl]

theorem enter_of_lt (h : g.current < g.limit) :
    g.enter = .ok (.ok { g with current := g.current + 1 }) := by
  rw [enter, isExceeded, decide_eq_false (Int.not_le.2 h), if_neg Bool.false_ne_true]

theorem leave_enter (g : Guard) : ({ g with current := g.current + 1 } : Guard).leave = g := by
  rw [leave, Int.add_sub_cancel]

end Guard

end Depth

namespace Message

variable {L : Type}

/-- What holds of the events of a run with so many levels left, on a pattern with so many opening
braces. -/
structure Orderly (levels braces : Nat) (result : Except Fault Outcome) (events : List Event) :
    Prop where
  count_opened : events.count .opened = events.count .closed
  opened_le : ∀ p, p <+: events → p.count .opened ≤ p.count .closed + levels
  le_braces : .refused ∈ events → 2 * (levels + 1) ≤ braces
  unrefused : .refused ∉ events → Outcome.Unrefused result

namespace Orderly

variable {levels braces : Nat} {result other : Except Fault Outcome} {events more : List Event}

theorem nil (h : Outcome.Unrefused result) : Orderly levels braces result [] := by
  refine ⟨rfl, ?_, nofun, fun _ => h⟩
  intro p hp
  rw [List.prefix_nil.1 hp]
  exact Nat.zero_le _

theorem refused (hbraces : 2 ≤ braces) : Orderly 0 braces result [.refused] := by
  refine ⟨rfl, ?_, fun _ => hbraces, fun h => absurd (List.mem_singleton_self _) h⟩
  intro p hp
  have hcount : p.count .opened ≤ 0 := hp.sublist.count_le Event.opened
  omega

/-- One level more around a run. -/
theorem within {inside : Nat} (h : Orderly levels inside result events)
    (hbraces : inside + 2 ≤ braces) :
    Orderly (levels + 1) braces result (.opened :: (events ++ [.closed])) := by
  have hopen (p : List Event) : (Event.opened :: p).count .opened = p.count .opened + 1 :=
    List.count_cons_self
  have hclose (p : List Event) : (Event.opened :: p).count .closed = p.count .closed :=
    List.count_cons_of_ne (by decide)
  have hends (event : Event) :
      (events ++ [Event.closed]).count event = events.count event + [Event.closed].count event :=
    List.count_append
  have hlast : [Event.closed].count .opened = 0 ∧ [Event.closed].count .closed = 1 := by decide
  constructor
  case count_opened =>
    rw [hopen, hclose, hends, hends, hlast.1, hlast.2, h.count_opened]
  case opened_le =>
    intro p hp
    rcases List.prefix_cons_iff.1 hp with rfl | ⟨q, rfl, hq⟩
    · exact Nat.zero_le _
    · have hinside : q.count .opened ≤ q.count .closed + levels := by
        rcases List.prefix_concat_iff.1 hq with rfl | hq
        · rw [hends, hends, hlast.1, hlast.2, h.count_opened]
          omega
        · exact h.opened_le q hq
      rw [hopen, hclose]
      omega
  case le_braces =>
    intro hmem
    have := h.le_braces (by simpa using hmem)
    omega
  case unrefused =>
    intro hmem
    exact h.unrefused (by simpa using hmem)

/-- Runs side by side. -/
theorem append (h : Orderly levels braces result events)
    (hother : Orderly levels braces other more) :
    Orderly levels braces (Outcome.beside result other) (events ++ more) := by
  have hcount (event : Event) (p : List Event) :
      (events ++ p).count event = events.count event + p.count event := List.count_append
  constructor
  case count_opened => rw [hcount, hcount, h.count_opened, hother.count_opened]
  case opened_le =>
    refine Brace.forall_prefix_append.2 ⟨h.opened_le, fun p hp => ?_⟩
    have := hother.opened_le p hp
    rw [hcount, hcount, h.count_opened]
    omega
  case le_braces =>
    intro hmem
    exact (List.mem_append.1 hmem).elim h.le_braces hother.le_braces
  case unrefused =>
    intro hmem
    rw [List.mem_append, not_or] at hmem
    exact (h.unrefused hmem.1).beside (hother.unrefused hmem.2)

end Orderly

/-- A run that comes to a result, leaves the guard as it was, and goes through orderly events. -/
def Guarded.Keeps (run : Guarded Outcome) (guard : Depth.Guard) (levels braces : Nat)
    (result : Except Fault Outcome) : Prop :=
  ∀ before, ∃ events, run.answer ⟨guard, before⟩ = (result, ⟨guard, before ++ events⟩) ∧
    Orderly levels braces result events

namespace Guarded

variable {run other : Guarded Outcome} {guard : Depth.Guard} {levels braces : Nat}
  {result otherResult : Except Fault Outcome}

theorem keeps_ofExcept (h : Outcome.Unrefused result) :
    Keeps (ofExcept result) guard levels braces result := by
  intro before
  refine ⟨[], ?_, .nil h⟩
  rw [answer_ofExcept, List.append_nil]

theorem Keeps.beside (hrun : Keeps run guard levels braces result)
    (hother : Keeps other guard levels braces otherResult) :
    Keeps (do let first ← run; let others ← other; return first ++ others) guard levels braces
      (Outcome.beside result otherResult) := by
  intro before
  obtain ⟨events, hanswer, horderly⟩ := hrun before
  cases result with
  | error fault =>
    -- the second run is not reached
    refine ⟨events, ?_, horderly⟩
    rw [answer_bind, hanswer]
    rfl
  | ok first =>
    obtain ⟨more, hmore, hothers⟩ := hother (before ++ events)
    refine ⟨events ++ more, ?_, horderly.append hothers⟩
    simp only [answer_bind, hanswer, hmore, ← List.append_assoc]
    cases otherResult <;> rfl

variable {source : Text}

theorem keeps_enterBranch_of_refused (h : guard.limit ≤ guard.current) (hbraces : 2 ≤ braces) :
    Keeps (enterBranch source run) guard 0 braces (refused guard.limit source) := by
  intro before
  rw [answer_enterBranch, Depth.Guard.enter_of_le h, refused]
  cases Depth.refusal guard.limit with
  | ok issue => exact ⟨[.refused], rfl, .refused hbraces⟩
  | error fault =>
    refine ⟨[], ?_, .nil (Outcome.unrefused_error fault)⟩
    rw [List.append_nil]
    rfl

theorem keeps_enterBranch_of_opened {inside : Nat} (h : guard.current < guard.limit)
    (hrun : Keeps run { guard with current := guard.current + 1 } levels inside result)
    (hbraces : inside + 2 ≤ braces) :
    Keeps (enterBranch source run) guard (levels + 1) braces result := by
  intro before
  obtain ⟨events, hanswer, horderly⟩ := hrun (before ++ [.opened])
  refine ⟨.opened :: (events ++ [.closed]), ?_, horderly.within hbraces⟩
  rw [answer_enterBranch, Depth.Guard.enter_of_lt h]
  simp only [answer_within, hanswer, Depth.Guard.leave_enter, List.append_assoc, List.cons_append,
    List.nil_append]

end Guarded

section Runs

variable {ctx : Context L} {numeral : Option Text} {guard : Depth.Guard} {budget : Nat}

theorem keeps_resolveTokensGuarded {enter : Enter} {braces : Nat} {tokens : List Token}
    (h : ∀ token ∈ tokens,
      Guarded.Keeps (Guarded.meet (resolveGuarded ctx) (Demand.ofToken ctx numeral token)) guard
        budget braces (resolveToken ctx enter numeral token)) :
    Guarded.Keeps (resolveTokensGuarded ctx numeral tokens) guard budget braces
      (resolveTokens ctx enter numeral tokens) := by
  induction tokens with
  | nil =>
    change Guarded.Keeps (ofExcept (.ok (.plain []))) guard budget braces (.ok (.plain []))
    exact Guarded.keeps_ofExcept (Outcome.noneRefused_plain []).unrefused
  | cons token tokens ih =>
    rw [List.forall_mem_cons] at h
    rw [resolveTokensGuarded_cons, resolveTokens_cons]
    exact h.1.beside (ih h.2)

/-- Only the branches count. -/
theorem keeps_resolveGuarded_of_branches {enter : Enter} {pattern : Text}
    (h : ∀ token ∈ Token.ofPattern pattern, ∀ source inner body,
      Demand.ofToken ctx numeral token = .branch source inner body →
      Guarded.Keeps (Guarded.enterBranch source (resolveGuarded ctx inner body)) guard budget
        (pattern.count '{') ((Demand.branch source inner body).meet ctx.limit enter)) :
    Guarded.Keeps (resolveGuarded ctx numeral pattern) guard budget (pattern.count '{')
      (resolveWith ctx enter numeral pattern) := by
  rw [resolveGuarded_eq, resolveWith_eq_resolveTokens]
  refine keeps_resolveTokensGuarded fun token htoken => ?_
  rw [← Demand.meet_ofToken]
  cases hdemand : Demand.ofToken ctx numeral token with
  | settled result => exact Guarded.keeps_ofExcept (Demand.settles_of_settled hdemand).unrefused
  | branch source inner body => exact h token htoken source inner body hdemand

/-- Resolving under a guard is resolving with a budget of the levels that the guard has left. -/
theorem keeps_resolveGuarded (numeral : Option Text) (pattern : Text)
    (hlimit : guard.limit = ctx.limit) (hbudget : guard.levels = budget) :
    Guarded.Keeps (resolveGuarded ctx numeral pattern) guard budget (pattern.count '{')
      (resolve ctx budget numeral pattern) := by
  -- a body has one level less, and at least two opening braces less than the pattern around it
  rw [Depth.Guard.levels] at hbudget
  induction budget generalizing numeral pattern guard with
  | zero =>
    refine keeps_resolveGuarded_of_branches fun token htoken source inner body hdemand => ?_
    have hbraces := Demand.count_body_add_two_le htoken hdemand
    rw [Demand.meet, ← hlimit]
    exact Guarded.keeps_enterBranch_of_refused (by omega) (by omega)
  | succ budget ih =>
    refine keeps_resolveGuarded_of_branches fun token htoken source inner body hdemand => ?_
    have hbody := @ih { guard with current := guard.current + 1 } inner body hlimit
      (by simp only; omega)
    have hbraces := Demand.count_body_add_two_le htoken hdemand
    exact Guarded.keeps_enterBranch_of_opened (by omega) hbody hbraces

end Runs

end Message

namespace Resolver

variable {L : Type}

open Message

/-- Resolve a pattern under a guard that counts the open branches, and see what happens at each. -/
def watched (r : Resolver L) (arguments : Arguments) (pattern : Text) :
    Except Fault Outcome × Watch :=
  let before : Watch := ⟨.ofLimit r.host.frames r.maxDepth, []⟩
  if arguments.isEmpty then (.ok (.plain pattern), before)
  else (resolveGuarded (r.context arguments) none pattern).answer before

theorem exists_watched_eq (r : Resolver L) (arguments : Arguments) (pattern : Text) :
    ∃ events, r.watched arguments pattern =
        (r.resolve arguments pattern, ⟨.ofLimit r.host.frames r.maxDepth, events⟩) ∧
      Orderly (Depth.clamp r.host.frames r.maxDepth Depth.defaultReserve).toNat (pattern.count '{')
        (r.resolve arguments pattern) events := by
  cases hempty : arguments.isEmpty with
  | true =>
    have hplain : r.resolve arguments pattern = .ok (.plain pattern) := by
      rw [resolve, if_pos hempty]
    refine ⟨[], by rw [watched, if_pos hempty, hplain], .nil ?_⟩
    rw [hplain]
    exact (Outcome.noneRefused_plain pattern).unrefused
  | false =>
    have hlevels : (Depth.Guard.ofLimit r.host.frames r.maxDepth).levels =
        (Depth.clamp r.host.frames r.maxDepth Depth.defaultReserve).toNat :=
      congrArg Int.toNat (Int.sub_zero _)
    have hlimit : (Depth.Guard.ofLimit r.host.frames r.maxDepth).limit =
        (r.context arguments).limit := rfl
    obtain ⟨events, hanswer, horderly⟩ := keeps_resolveGuarded none pattern hlimit hlevels []
    rw [resolve_of_isEmpty_eq_false hempty]
    refine ⟨events, ?_, horderly⟩
    rw [watched, hempty]
    exact hanswer

theorem resolve_of_le_maxDepth {host : Host L} {code : Text} {formatters : Formatters L}
    {arguments : Arguments} {pattern : Text} {d d' : Int} {outcome : Outcome} (hle : d ≤ d')
    (h : (⟨host, code, formatters, d⟩ : Resolver L).resolve arguments pattern = .ok outcome)
    (hnone : outcome.NoneRefused) :
    (⟨host, code, formatters, d'⟩ : Resolver L).resolve arguments pattern = .ok outcome := by
  cases hempty : arguments.isEmpty with
  | true =>
    rw [resolve, if_pos hempty] at h ⊢
    exact h
  | false =>
    rw [resolve_of_isEmpty_eq_false hempty] at h ⊢
    exact resolve_of_le (Int.toNat_le_toNat (Depth.clamp_mono hle _ _)) h hnone

/-- A run in which no branch is refused is the same under every greater limit. A branch is refused
only in a pattern with two opening braces for every level of the limit and two more. A guard that is
threaded through the run gives the same result: it is back at its start afterwards, and there are
never more branches open than the limit allows. -/
theorem resolve_depth (host : Host L) (code : Text) (formatters : Formatters L)
    (arguments : Arguments) (pattern : Text) :
    (∀ (d d' : Int) (outcome : Outcome), d ≤ d' →
      (⟨host, code, formatters, d⟩ : Resolver L).resolve arguments pattern = .ok outcome →
      outcome.NoneRefused →
      (⟨host, code, formatters, d'⟩ : Resolver L).resolve arguments pattern = .ok outcome) ∧
    (∀ d : Int, 0 ≤ d →
      (pattern.count '{' : Int) < 2 * (Depth.clamp host.frames d Depth.defaultReserve + 1) →
      .refused ∉ ((⟨host, code, formatters, d⟩ : Resolver L).watched arguments pattern).2.events ∧
        ∀ outcome,
          (⟨host, code, formatters, d⟩ : Resolver L).resolve arguments pattern = .ok outcome →
            outcome.NoneRefused) ∧
    ∀ d : Int, ∃ events,
      (⟨host, code, formatters, d⟩ : Resolver L).watched arguments pattern =
        ((⟨host, code, formatters, d⟩ : Resolver L).resolve arguments pattern,
          ⟨⟨Depth.clamp host.frames d Depth.defaultReserve, 0⟩, events⟩) ∧
      ∀ p, p <+: events → (p.count .opened : Int) - p.count .closed ≤
        max (Depth.clamp host.frames d Depth.defaultReserve) 0 := by
  refine ⟨fun d d' outcome => resolve_of_le_maxDepth, fun d hd hbraces => ?_, fun d => ?_⟩
  · obtain ⟨events, hwatched, horderly⟩ :=
      exists_watched_eq ⟨host, code, formatters, d⟩ arguments pattern
    have hclamp := Depth.clamp_nonneg hd host.frames Depth.defaultReserve
    have hnone : .refused ∉ events := by
      intro hmem
      have := horderly.le_braces hmem
      simp only at this
      omega
    rw [hwatched]
    exact ⟨hnone, horderly.unrefused hnone⟩
  · obtain ⟨events, hwatched, horderly⟩ :=
      exists_watched_eq ⟨host, code, formatters, d⟩ arguments pattern
    refine ⟨events, hwatched, fun p hp => ?_⟩
    have := horderly.opened_le p hp
    simp only at this
    omega

end Resolver

end Parlance
