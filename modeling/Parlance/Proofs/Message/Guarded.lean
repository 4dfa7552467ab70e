import Parlance.Proofs.Message.Limit
/-!
Resolving under a guard that all branches share. A guard is threaded through the run, entered before
the body of a branch and left behind it however that ends, and every such event is noted
(resolveGuarded). What a run comes to is told together with the guard and the events afterwards, one
equation for each form of a run.
-/

namespace Parlance

namespace Message

variable {L : Type}

/-- What happens at the branches of a run. -/
inductive Event where
  | opened
  | closed
  | refused
  deriving DecidableEq

/-- The guard of a run, and what has happened so far. -/
structure Watch where
  guard : Depth.Guard
  events : List Event

abbrev Guarded := ExceptT Fault (StateM Watch)

namespace Guarded

/-- The guard changes with an event. -/
def becomes (guard : Depth.Guard → Depth.Guard) (event : Event) : Guarded Unit :=
  modify fun w => ⟨guard w.guard, w.events ++ [event]⟩

/-- Run with one more branch open. The guard is left however the run ends. -/
def within (opened : Depth.Guard) (run : Guarded Outcome) : Guarded Outcome := do
  becomes (fun _ => opened) .opened
  try run finally becomes Depth.Guard.leave .closed

/-- Enter a branch, or keep its source if the guard refuses. -/
def enterBranch (source : Text) (run : Guarded Outcome) : Guarded Outcome := do
  let entered ← ofExcept (← get).guard.enter
  match entered with
  | .ok opened => within opened run
  | .error issue =>
    becomes id .refused
    return .kept source issue

/-- Meet a demand under a guard. -/
def meet (resolve : Option Text → Text → Guarded Outcome) : Demand → Guarded Outcome
  | .settled result => ofExcept result
  | .branch source numeral body => enterBranch source (resolve numeral body)

end Guarded

section Bodies

variable {ctx : Context L} {numeral inner : Option Text} {pattern source body : Text}
  {token : Token}

theorem Demand.length_body_lt (htoken : token ∈ Token.ofPattern pattern)
    (h : ofToken ctx numeral token = .branch source inner body) :
    body.length < pattern.length := by
  obtain ⟨before, between, after, rfl⟩ := exists_body_inside htoken h
  simp only [List.length_append, List.length_cons]
  omega

theorem Demand.count_body_add_two_le (htoken : token ∈ Token.ofPattern pattern)
    (h : ofToken ctx numeral token = .branch source inner body) :
    body.count '{' + 2 ≤ pattern.count '{' := by
  obtain ⟨before, between, after, rfl⟩ := exists_body_inside htoken h
  simp only [List.count_append, List.count_cons_self]
  omega

end Bodies

section Runs

variable (ctx : Context L) (numeral : Option Text)

/-- Resolve a pattern under a guard that all branches share. -/
def resolveGuarded (numeral : Option Text) (pattern : Text) : Guarded Outcome := do
  let outcomes ← (Token.ofPattern pattern).attach.mapM fun ⟨token, htoken⟩ =>
    match hdemand : Demand.ofToken ctx numeral token with
    | .settled result => ofExcept result
    | .branch source inner body =>
      have := Demand.length_body_lt htoken hdemand
      Guarded.enterBranch source (resolveGuarded inner body)
  return .join outcomes
termination_by pattern.length

/-- Resolve tokens one after the other under a guard. -/
def resolveTokensGuarded (tokens : List Token) : Guarded Outcome := do
  let outcomes ← tokens.mapM fun token =>
    Guarded.meet (resolveGuarded ctx) (Demand.ofToken ctx numeral token)
  return .join outcomes

theorem resolveGuarded_eq (pattern : Text) :
    resolveGuarded ctx numeral pattern =
      resolveTokensGuarded ctx numeral (Token.ofPattern pattern) := by
  rw [resolveGuarded, resolveTokensGuarded, List.mapM_subtype (g := fun token =>
    Guarded.meet (resolveGuarded ctx) (Demand.ofToken ctx numeral token)), List.unattach_attach]
  intro token htoken
  dsimp only
  split
  · next result hdemand => rw [hdemand, Guarded.meet]
  · next source inner body hdemand => rw [hdemand, Guarded.meet]

theorem resolveTokensGuarded_cons (token : Token) (tokens : List Token) :
    resolveTokensGuarded ctx numeral (token :: tokens) = (do
      let first ← Guarded.meet (resolveGuarded ctx) (Demand.ofToken ctx numeral token)
      let others ← resolveTokensGuarded ctx numeral tokens
      return first ++ others) := by
  simp only [resolveTokensGuarded, List.mapM_cons, bind_assoc, pure_bind]
  rfl

end Runs

namespace Guarded

variable {α β σ ε : Type}

/-- What a run comes to, with the guard and the events afterwards. -/
def answer (run : Guarded α) (w : Watch) : Except Fault α × Watch := run.run.run w

theorem answer_bind (run : Guarded α) (next : α → Guarded β) (w : Watch) :
    (run >>= next).answer w = match run.answer w with
      | (.ok a, w') => (next a).answer w'
      | (.error fault, w') => (.error fault, w') := by
  change (ExceptT.run run >>= ExceptT.bindCont next : StateM Watch (Except Fault β)).run w = _
  rw [StateT.run_bind]
  change (match run.answer w with | (a, w') => (ExceptT.bindCont next a).run w') = _
  obtain ⟨_ | _, w'⟩ := run.answer w <;> rfl

theorem answer_ofExcept (result : Except Fault α) (w : Watch) :
    (ofExcept result : Guarded α).answer w = (result, w) := by
  cases result <;> rfl

/-- What is done at last is done after a result and after an error alike. -/
theorem run_tryFinally (run : ExceptT ε (StateM σ) α) (change : σ → σ) (s : σ) :
    (tryFinally run (modify change)).run.run s = ((run.run.run s).1, change (run.run.run s).2) := by
  simp only [tryFinally, tryFinally', StateT.run, ExceptT.run, ExceptT.mk, Functor.map,
    ExceptT.map, bind, StateT.bind]
  obtain ⟨_ | _, s'⟩ := run s <;> rfl

theorem answer_within (opened : Depth.Guard) (run : Guarded Outcome) (w : Watch) :
    (within opened run).answer w =
      let ended := run.answer ⟨opened, w.events ++ [.opened]⟩
      (ended.1, ⟨ended.2.guard.leave, ended.2.events ++ [.closed]⟩) :=
  run_tryFinally run _ _

theorem answer_enterBranch (source : Text) (run : Guarded Outcome) (w : Watch) :
    (enterBranch source run).answer w = match w.guard.enter with
      | .ok (.ok opened) => (within opened run).answer w
      | .ok (.error issue) => (.ok (.kept source issue), ⟨w.guard, w.events ++ [.refused]⟩)
      | .error fault => (.error fault, w) := by
  change (ofExcept w.guard.enter >>= fun entered => match entered with
    | .ok opened => within opened run
    | .error issue => _ : Guarded Outcome).answer w = _
  rw [answer_bind, answer_ofExcept]
  rcases w.guard.enter with _ | _ | _ <;> rfl

end Guarded

end Message

end Parlance
