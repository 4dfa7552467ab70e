import Parlance.Proofs.Message.Guarded
/-!
Branches at every level of nesting. The braces of a body pair up, and it is shorter than its
construct. So a run that enters every branch it asks for comes to an end (resolveUnlimited), and a
run with a budget for all levels comes to the same (resolve_eq_resolveUnlimited). That a brace never
closes is said of braces that stand outside of all branches, and of no others (traced_resolve).
-/

namespace Parlance

open Brace

/-- An issue about a brace that never closes. -/
def Issue.Unbalanced (issue : Issue) : Prop :=
  issue.diagnostic?.map (·.code) = some .unbalancedBrace

namespace Message

variable {L : Type}

section Bodies

variable {pattern : Text} {c : Construct}

/-- A construct at any level is a token of some text. -/
theorem Nested.exists_level (h : Nested pattern c) :
    ∃ level, .construct c ∈ Token.ofPattern level := by
  induction h with
  | @token level c hc => exact ⟨level, hc⟩
  | body _ _ _ ih => exact ih

theorem not_unbalanced_of_balanced {body : Text} (h : Balanced body) (position : Nat) :
    .junk .unbalanced position ∉ Token.ofPattern body :=
  Token.not_unbalanced_of_closed h.closed position

end Bodies

section Runs

variable (ctx : Context L)

/-- Resolve a pattern, and the body of every branch that is asked for, with no limit. A body is
shorter than the text around it. -/
def resolveUnlimited (numeral : Option Text) (pattern : Text) : Except Fault Outcome := do
  let outcomes ← (Token.ofPattern pattern).attach.mapM fun ⟨token, htoken⟩ =>
    match hdemand : Demand.ofToken ctx numeral token with
    | .settled result => result
    | .branch source inner body =>
      have := Demand.length_body_lt htoken hdemand
      resolveUnlimited inner body
  return .join outcomes
termination_by pattern.length

/-- It is what resolving would be if branches were always entered. -/
theorem resolveUnlimited_eq (numeral : Option Text) (pattern : Text) :
    resolveUnlimited ctx numeral pattern =
      resolveWith ctx (some (resolveUnlimited ctx)) numeral pattern := by
  rw [resolveUnlimited, resolveWith, List.mapM_subtype
    (g := resolveToken ctx (some (resolveUnlimited ctx)) numeral), List.unattach_attach]
  intro token htoken
  rw [← Demand.meet_ofToken]
  dsimp only
  split
  · next result hdemand => rw [hdemand, Demand.meet]
  · next source inner body hdemand => rw [hdemand, Demand.meet]

variable {ctx} {enter enter' : Enter} {numeral : Option Text} {pattern : Text}

/-- Two ways of entering branches make a difference only in a branch that is asked for. -/
theorem resolveWith_congr
    (h : ∀ token ∈ Token.ofPattern pattern, ∀ source inner body,
      Demand.ofToken ctx numeral token = .branch source inner body →
      (Demand.branch source inner body).meet ctx.limit enter =
        (Demand.branch source inner body).meet ctx.limit enter') :
    resolveWith ctx enter numeral pattern = resolveWith ctx enter' numeral pattern := by
  rw [resolveWith_eq_resolveTokens, resolveWith_eq_resolveTokens]
  refine resolveTokens_congr fun token htoken => ?_
  rw [← Demand.meet_ofToken, ← Demand.meet_ofToken]
  cases hdemand : Demand.ofToken ctx numeral token with
  | settled result => rfl
  | branch source inner body => exact h token htoken source inner body hdemand

/-- A budget that reaches the deepest branch is as good as none. -/
theorem resolve_eq_resolveUnlimited {budget : Nat}
    (hbraces : pattern.count '{' < 2 * (budget + 1)) :
    resolve ctx budget numeral pattern = resolveUnlimited ctx numeral pattern := by
  -- every level takes two opening braces at least
  induction budget generalizing numeral pattern with
  | zero =>
    rw [resolve, resolveUnlimited_eq]
    refine resolveWith_congr fun token htoken source inner body hdemand => ?_
    have := Demand.count_body_add_two_le htoken hdemand
    omega
  | succ budget ih =>
    rw [resolve, resolveUnlimited_eq]
    refine resolveWith_congr fun token htoken source inner body hdemand => ?_
    have := Demand.count_body_add_two_le htoken hdemand
    exact ih (by omega)

end Runs

/-- In a run over tokens it is said only of wrong braces among them that they never close. -/
def Traced (tokens : List Token) (result : Except Fault Outcome) : Prop :=
  ∀ outcome, result = .ok outcome → ∀ issue ∈ outcome.issues, issue.Unbalanced →
    ∃ position : Nat, .junk .unbalanced position ∈ tokens ∧
      issue = .grammar (.unbalancedBrace position)

section Tracing

variable {ctx : Context L} {enter : Enter} {numeral : Option Text} {tokens : List Token}
  {token : Token} {result other : Except Fault Outcome}

theorem traced_kept {issue : Issue} (h : ¬issue.Unbalanced) (t : Text) :
    Traced tokens (.ok (.kept t issue)) := by
  rintro outcome ⟨⟩ issue hissue hunbalanced
  rw [List.mem_singleton.1 hissue] at hunbalanced
  exact absurd hunbalanced h

theorem traced_refused (limit : Int) (source : Text) : Traced tokens (refused limit source) := by
  intro outcome h
  obtain rfl := eq_kept_of_refused h
  exact traced_kept (by rintro ⟨⟩) source _ rfl

theorem Demand.Settles.traced (h : Settles token result) : Traced [token] result := by
  cases h with
  | fault fault => rintro outcome ⟨⟩
  | plain t => rintro outcome ⟨⟩ issue ⟨⟩
  | junk problem position t =>
    cases problem with
    | malformed excerpt => exact traced_kept (by rintro ⟨⟩) t
    | unbalanced =>
      rintro outcome ⟨⟩ issue hissue -
      exact ⟨position, List.mem_singleton_self _, List.mem_singleton.1 hissue⟩
  | notProvided | notNumeric | noFormatter | failed => exact traced_kept (by rintro ⟨⟩) _

theorem Traced.cons (hfirst : Traced [token] result) (hothers : Traced tokens other) :
    Traced (token :: tokens) (Outcome.beside result other) := by
  intro outcome houtcome issue hissue hunbalanced
  obtain ⟨first, others, rfl, rfl, rfl⟩ := Outcome.beside_eq_ok_iff.1 houtcome
  rcases List.mem_append.1 hissue with hmem | hmem
  · obtain ⟨position, hposition, rfl⟩ := hfirst first rfl issue hmem hunbalanced
    rw [List.mem_singleton] at hposition
    exact ⟨position, hposition ▸ List.mem_cons_self, rfl⟩
  · obtain ⟨position, hposition, rfl⟩ := hothers others rfl issue hmem hunbalanced
    exact ⟨position, List.mem_cons_of_mem _ hposition, rfl⟩

/-- Among the tokens of a body there is no such brace, so in its run it is said of none. -/
theorem Traced.of_balanced {body : Text} (hbody : Balanced body)
    (h : Traced (Token.ofPattern body) result) : Traced tokens result := by
  intro outcome houtcome issue hissue hunbalanced
  obtain ⟨position, hposition, -⟩ := h outcome houtcome issue hissue hunbalanced
  exact absurd hposition (not_unbalanced_of_balanced hbody position)

/-- In the run of a branch it is said only of wrong braces among the tokens of its body. -/
def Tracing (enter : Enter) : Prop :=
  ∀ run, enter = some run → ∀ numeral body, Traced (Token.ofPattern body) (run numeral body)

theorem traced_resolveToken (henter : Tracing enter) {pattern : Text}
    (htoken : token ∈ Token.ofPattern pattern) :
    Traced [token] (resolveToken ctx enter numeral token) := by
  rw [← Demand.meet_ofToken]
  cases hdemand : Demand.ofToken ctx numeral token with
  | settled result => exact (Demand.settles_of_settled hdemand).traced
  | branch source inner body =>
    cases enter with
    | none => exact traced_refused ctx.limit source
    | some run =>
      obtain ⟨c, rfl, b, hb, rfl⟩ := Demand.exists_branch_of_eq hdemand
      exact (henter run rfl inner b.body).of_balanced (Token.balanced_body htoken hb)

theorem traced_resolveTokens
    (h : ∀ token ∈ tokens, Traced [token] (resolveToken ctx enter numeral token)) :
    Traced tokens (resolveTokens ctx enter numeral tokens) := by
  induction tokens with
  | nil => rintro outcome ⟨⟩ issue ⟨⟩
  | cons token tokens ih =>
    rw [List.forall_mem_cons] at h
    rw [resolveTokens_cons]
    exact h.1.cons (ih h.2)

theorem traced_resolveWith (henter : Tracing enter) (pattern : Text) :
    Traced (Token.ofPattern pattern) (resolveWith ctx enter numeral pattern) := by
  rw [resolveWith_eq_resolveTokens]
  exact traced_resolveTokens fun token htoken => traced_resolveToken henter htoken

/-- By induction on the budget: in a branch there is one level less. -/
theorem traced_resolve (budget : Nat) (pattern : Text) :
    Traced (Token.ofPattern pattern) (resolve ctx budget numeral pattern) := by
  induction budget generalizing numeral pattern with
  | zero => exact traced_resolveWith (by rintro run ⟨⟩) pattern
  | succ budget ih =>
    refine traced_resolveWith ?_ pattern
    rintro run ⟨⟩ inner body
    exact ih body

end Tracing

/-- In every branch at every level of a pattern the braces pair up, the body is shorter than its
construct, and of no brace in it the tokens say that it never closes. So resolving that enters every
branch it asks for ends without a limit, and a budget of half the opening braces is enough for the
same result. Whatever a resolver says about a brace that never closes is said of one among the
tokens of the whole pattern, and with its position there. -/
theorem nested_branches (pattern : Text) :
    (∀ c, Nested pattern c → ∀ b ∈ c.branches,
      Balanced b.body ∧ b.body.length < c.source.length ∧
        ∀ position, .junk .unbalanced position ∉ Token.ofPattern b.body) ∧
    (∀ (ctx : Context L) numeral,
      resolveUnlimited ctx numeral pattern =
          resolveWith ctx (some (resolveUnlimited ctx)) numeral pattern ∧
        ∀ budget, pattern.count '{' < 2 * (budget + 1) →
          resolve ctx budget numeral pattern = resolveUnlimited ctx numeral pattern) ∧
    ∀ (r : Resolver L) (arguments : Arguments) (outcome : Outcome),
      r.resolve arguments pattern = .ok outcome → ∀ issue ∈ outcome.issues, issue.Unbalanced →
        ∃ position : Nat, .junk .unbalanced position ∈ Token.ofPattern pattern ∧
          issue = .grammar (.unbalancedBrace position) := by
  refine ⟨fun c hc b hb => ?_, fun ctx numeral => ?_, fun r arguments outcome h => ?_⟩
  · obtain ⟨level, hlevel⟩ := hc.exists_level
    have hbalanced : Balanced b.body := Token.balanced_body hlevel hb
    exact ⟨hbalanced, Token.length_body_lt_source hlevel hb, not_unbalanced_of_balanced hbalanced⟩
  · exact ⟨resolveUnlimited_eq ctx numeral pattern, fun budget => resolve_eq_resolveUnlimited⟩
  · cases hempty : arguments.isEmpty with
    | true =>
      rw [Resolver.resolve, if_pos hempty] at h
      cases h
      rintro issue ⟨⟩
    | false =>
      rw [Resolver.resolve_of_isEmpty_eq_false hempty] at h
      exact traced_resolve _ pattern outcome h

end Message

end Parlance
