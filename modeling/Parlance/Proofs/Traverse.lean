import Mathlib.Data.List.Forall2
/-!
Going through a list with a step that may fail: the whole succeeds exactly if every step does
(mapM_eq_ok_iff), and the first failure is that of the whole. Steps that give lists can be joined
(joinM). A search ends at the first that is not refused (firstAccepted_findM?).
-/

namespace Parlance

variable {ε : Type u} {α β : Type v} {f : α → Except ε β}

theorem bind_eq_ok_iff {r : Except ε α} {b : β} :
    r >>= f = .ok b ↔ ∃ a, r = .ok a ∧ f a = .ok b := by
  cases r <;> simp [bind, Except.bind]

theorem mapError_eq_ok_iff {ε' : Type w} {r : Except ε α} {convert : ε → ε'} {a : α} :
    r.mapError convert = .ok a ↔ r = .ok a := by
  cases r <;> simp [Except.mapError]

theorem mapError_eq_error_iff {ε' : Type w} {r : Except ε α} {convert : ε → ε'} {e : ε'} :
    r.mapError convert = .error e ↔ ∃ cause, r = .error cause ∧ convert cause = e := by
  cases r <;> simp [Except.mapError]

theorem of_bind_eq_error {r : Except ε α} {e : ε} (h : r >>= f = .error e) :
    r = .error e ∨ ∃ a, r = .ok a ∧ f a = .error e := by
  cases r with
  | error e' => exact Or.inl (congrArg Except.error (Except.error.inj h))
  | ok a => exact Or.inr ⟨a, rfl, h⟩

theorem bind_pure_eq_error_iff {r : Except ε α} {g : α → β} {e : ε} :
    (r >>= fun a => pure (g a)) = .error e ↔ r = .error e := by
  cases r <;> simp [bind, Except.bind, pure, Except.pure]

theorem map_eq_error_iff {r : Except ε α} {g : α → β} {e : ε} :
    r.map g = .error e ↔ r = .error e := by
  cases r <;> simp [Except.map]

theorem mapM_eq_ok_iff {l : List α} {results : List β} :
    l.mapM f = .ok results ↔ List.Forall₂ (fun a b => f a = .ok b) l results := by
  induction l generalizing results with
  | nil => cases results <;> simp [pure, Except.pure]
  | cons a l ih =>
    rw [List.mapM_cons, List.forall₂_cons_left_iff]
    cases hstep : f a with
    | error e => simp [bind, Except.bind]
    | ok b =>
      cases hrest : l.mapM f with
      | error e =>
        have hnone : ∀ bs, ¬List.Forall₂ (fun a b => f a = .ok b) l bs := by
          intro bs hbs
          rw [ih.2 hbs] at hrest
          contradiction
        simp [bind, Except.bind, hnone]
      | ok bs =>
        simp only [bind, Except.bind, pure, Except.pure, Except.ok.injEq]
        constructor
        · rintro rfl
          exact ⟨b, bs, rfl, ih.1 hrest, rfl⟩
        · rintro ⟨c, cs, rfl, hcs, rfl⟩
          rw [ih.2 hcs, Except.ok.injEq] at hrest
          rw [hrest]

theorem exists_forall₂ {γ : Type w} {R : α → γ → Prop} {l : List α} (h : ∀ a ∈ l, ∃ c, R a c) :
    ∃ cs, List.Forall₂ R l cs := by
  induction l with
  | nil => exact ⟨[], .nil⟩
  | cons a l ih =>
    obtain ⟨c, hc⟩ := h a List.mem_cons_self
    obtain ⟨cs, hcs⟩ := ih fun a ha => h a (List.mem_cons_of_mem _ ha)
    exact ⟨c :: cs, .cons hc hcs⟩

theorem exists_mapM_eq_ok {l : List α} (h : ∀ a ∈ l, ∃ b, f a = .ok b) :
    ∃ results, l.mapM f = .ok results := by
  simp only [mapM_eq_ok_iff]
  exact exists_forall₂ h

theorem exists_mapM_eq_ok_iff {l : List α} :
    (∃ results, l.mapM f = .ok results) ↔ ∀ a ∈ l, ∃ b, f a = .ok b := by
  refine ⟨?_, exists_mapM_eq_ok⟩
  rintro ⟨results, h⟩
  rw [mapM_eq_ok_iff] at h
  induction h with
  | nil => rintro a ⟨⟩
  | cons hstep _ ih => exact List.forall_mem_cons.2 ⟨⟨_, hstep⟩, ih⟩

/-- The whole fails with the failure of a step. -/
theorem exists_of_mapM_eq_error {l : List α} {e : ε} (h : l.mapM f = .error e) :
    ∃ a ∈ l, f a = .error e := by
  induction l with
  | nil => cases h
  | cons a l ih =>
    rw [List.mapM_cons] at h
    cases hstep : f a with
    | error e' =>
      rw [hstep] at h
      cases h
      exact ⟨a, List.mem_cons_self, hstep⟩
    | ok b =>
      cases hrest : l.mapM f with
      | ok bs => rw [hstep, hrest] at h; cases h
      | error e' =>
        rw [hstep, hrest] at h
        cases h
        obtain ⟨c, hc, hfail⟩ := ih hrest
        exact ⟨c, List.mem_cons_of_mem a hc, hfail⟩

/-- Where all failures are the same, a step that fails fails the whole with it. -/
theorem mapM_eq_error {l : List α} {e : ε} (hsame : ∀ a ∈ l, ∀ e', f a = .error e' → e' = e)
    {a : α} (ha : a ∈ l) (hfail : f a = .error e) : l.mapM f = .error e := by
  induction l with
  | nil => exact absurd ha List.not_mem_nil
  | cons b l ih =>
    rw [List.mapM_cons]
    cases hstep : f b with
    | error e' =>
      rw [hsame b List.mem_cons_self e' hstep]
      rfl
    | ok c =>
      rcases List.mem_cons.1 ha with rfl | hmem
      · rw [hfail] at hstep
        contradiction
      · rw [ih (fun a ha => hsame a (List.mem_cons_of_mem _ ha)) hmem]
        rfl

/-- Where a step fails with one failure or not at all, so does the whole. -/
theorem mapM_eq_error_iff {l : List α} {e : ε} {fails : α → Prop}
    (hstep : ∀ a ∈ l, ∀ e', f a = .error e' ↔ e' = e ∧ fails a) (e' : ε) :
    l.mapM f = .error e' ↔ e' = e ∧ ∃ a ∈ l, fails a := by
  constructor
  · intro h
    obtain ⟨a, ha, hfail⟩ := exists_of_mapM_eq_error h
    obtain ⟨rfl, hfails⟩ := (hstep a ha e').1 hfail
    exact ⟨rfl, a, ha, hfails⟩
  · rintro ⟨rfl, a, ha, hfails⟩
    refine mapM_eq_error ?_ ha ((hstep a ha e').2 ⟨rfl, hfails⟩)
    exact fun b hb e'' h => ((hstep b hb e'').1 h).1

/-- Steps that give the same lists as going through parts of the list do so as a whole. -/
theorem exists_mapM_flatMap {γ δ : Type v} {f : α → Except ε (List δ)} {parts : α → List γ}
    {g : γ → Except ε δ} {l : List α}
    (h : ∀ a ∈ l, ∃ ds, f a = .ok ds ∧ (parts a).mapM g = .ok ds) :
    ∃ dss, l.mapM f = .ok dss ∧ (l.flatMap parts).mapM g = .ok dss.flatten := by
  induction l with
  | nil => exact ⟨[], rfl, rfl⟩
  | cons a l ih =>
    obtain ⟨ds, hf, hg⟩ := h a List.mem_cons_self
    obtain ⟨dss, hfs, hgs⟩ := ih fun a ha => h a (List.mem_cons_of_mem _ ha)
    refine ⟨ds :: dss, ?_, ?_⟩
    · rw [List.mapM_cons, hf, hfs]
      rfl
    · rw [List.flatMap_cons, List.mapM_append, hg, hgs]
      rfl

/-- Steps that pass over what does not count give the same list as going through what counts. -/
theorem exists_mapM_filter {γ δ : Type v} {f : γ → Except ε (Option δ)} {g : γ → Except ε δ}
    {counts : γ → Bool} {l : List γ}
    (h : ∀ a ∈ l, if counts a then ∃ d, f a = .ok (some d) ∧ g a = .ok d else f a = .ok none) :
    ∃ ds, l.mapM f = .ok ds ∧ (l.filter counts).mapM g = .ok (ds.filterMap id) := by
  induction l with
  | nil => exact ⟨[], rfl, rfl⟩
  | cons a l ih =>
    have ha := h a List.mem_cons_self
    obtain ⟨ds, hfs, hgs⟩ := ih fun a ha => h a (List.mem_cons_of_mem _ ha)
    cases hcounts : counts a with
    | true =>
      rw [hcounts, if_pos rfl] at ha
      obtain ⟨d, hf, hg⟩ := ha
      refine ⟨some d :: ds, ?_, ?_⟩
      · rw [List.mapM_cons, hf, hfs]
        rfl
      · rw [List.filter_cons_of_pos hcounts, List.mapM_cons, hg, hgs]
        rfl
    | false =>
      rw [hcounts, if_neg (by simp)] at ha
      refine ⟨none :: ds, ?_, ?_⟩
      · rw [List.mapM_cons, ha, hfs]
        rfl
      · rw [List.filter_cons_of_neg (by simp [hcounts]), hgs]
        rfl

section Option

variable {β : Type v} {f : α → Option β}

theorem mapM_eq_some_iff {l : List α} {results : List β} :
    l.mapM f = some results ↔ List.Forall₂ (fun a b => f a = some b) l results := by
  induction l generalizing results with
  | nil => cases results <;> simp
  | cons a l ih =>
    rw [List.mapM_cons, List.forall₂_cons_left_iff]
    simp only [Option.bind_eq_bind, Option.bind_eq_some_iff, Option.pure_def, Option.some.injEq, ih]
    constructor
    · rintro ⟨b, hb, bs, hbs, rfl⟩
      exact ⟨b, bs, hb, hbs, rfl⟩
    · rintro ⟨b, bs, hb, hbs, rfl⟩
      exact ⟨b, hb, bs, hbs, rfl⟩

theorem exists_mapM_eq_some {l : List α} (h : ∀ a ∈ l, ∃ b, f a = some b) :
    ∃ results, l.mapM f = some results := by
  simp only [mapM_eq_some_iff]
  exact exists_forall₂ h

end Option

section Join

variable {γ : Type v} {f : α → Except ε (List γ)}

/-- The lists that the steps give, joined. -/
def joinM (f : α → Except ε (List γ)) (l : List α) : Except ε (List γ) :=
  (l.mapM f).map List.flatten

theorem joinM_nil : joinM f [] = .ok [] := rfl

theorem joinM_cons_of_ok {a : α} {first : List γ} (h : f a = .ok first) (l : List α) :
    joinM f (a :: l) = (joinM f l).map (first ++ ·) := by
  rw [joinM, joinM, List.mapM_cons, h]
  cases l.mapM f <;> rfl

theorem joinM_cons_of_error {a : α} {e : ε} (h : f a = .error e) (l : List α) :
    joinM f (a :: l) = .error e := by
  rw [joinM, List.mapM_cons, h]
  rfl

theorem joinM_singleton (a : α) : joinM f [a] = f a := by
  cases h : f a with
  | error e => exact joinM_cons_of_error h []
  | ok first =>
    rw [joinM_cons_of_ok h, joinM_nil]
    exact congrArg Except.ok (List.append_nil first)

theorem joinM_map {δ : Type v} (g : δ → α) (l : List δ) :
    joinM f (l.map g) = joinM (fun d => f (g d)) l := by
  rw [joinM, joinM, List.mapM_map]
  rfl

theorem joinM_of_ok {g : α → List γ} {l : List α} (h : ∀ a ∈ l, f a = .ok (g a)) :
    joinM f l = .ok (l.flatMap g) := by
  induction l with
  | nil => rfl
  | cons a l ih =>
    rw [joinM_cons_of_ok (h a List.mem_cons_self), ih fun a ha => h a (List.mem_cons_of_mem _ ha)]
    rfl

end Join

section Find

variable {α : Type} {accepts : α → Except ε Bool} {l : List α}

/-- The answer is the first of a list that is accepted, or the failure that comes before it. -/
structure FirstAccepted (accepts : α → Except ε Bool) (l : List α)
    (answer : Except ε (Option α)) : Prop where
  some_iff : ∀ a, answer = .ok (some a) ↔
    ∃ before after, l = before ++ a :: after ∧ (∀ b ∈ before, accepts b = .ok false) ∧
      accepts a = .ok true
  none_iff : answer = .ok none ↔ ∀ a ∈ l, accepts a = .ok false
  error_iff : ∀ e, answer = .error e ↔
    ∃ before a after, l = before ++ a :: after ∧ (∀ b ∈ before, accepts b = .ok false) ∧
      accepts a = .error e

theorem findM?_append_of_refused {before : List α} (h : ∀ a ∈ before, accepts a = .ok false)
    (l : List α) : (before ++ l).findM? accepts = l.findM? accepts := by
  induction before with
  | nil => rfl
  | cons a before ih =>
    rw [List.cons_append, List.findM?, h a List.mem_cons_self]
    exact ih fun b hb => h b (List.mem_cons_of_mem a hb)

theorem findM?_of_refused (h : ∀ a ∈ l, accepts a = .ok false) : l.findM? accepts = .ok none := by
  have hsearch := findM?_append_of_refused h []
  rwa [List.append_nil] at hsearch

/-- What is said of the first that is not refused decides the search. -/
theorem findM?_of_split {before after : List α} {a : α} (h : ∀ b ∈ before, accepts b = .ok false)
    (ha : accepts a ≠ .ok false) :
    (before ++ a :: after).findM? accepts = (accepts a).map fun _ => some a := by
  rw [findM?_append_of_refused h, List.findM?]
  cases haccepts : accepts a with
  | error e => rfl
  | ok accepted =>
    cases accepted with
    | true => rfl
    | false => exact absurd haccepts ha

theorem refused_or_exists_split (accepts : α → Except ε Bool) (l : List α) :
    (∀ a ∈ l, accepts a = .ok false) ∨
      ∃ before a after, l = before ++ a :: after ∧ (∀ b ∈ before, accepts b = .ok false) ∧
        accepts a ≠ .ok false := by
  induction l with
  | nil => exact .inl fun a ha => absurd ha List.not_mem_nil
  | cons a l ih =>
    by_cases ha : accepts a = .ok false
    · rcases ih with hl | ⟨before, b, after, rfl, hbefore, hb⟩
      · exact .inl (List.forall_mem_cons.2 ⟨ha, hl⟩)
      · exact .inr ⟨a :: before, b, after, rfl, List.forall_mem_cons.2 ⟨ha, hbefore⟩, hb⟩
    · exact .inr ⟨[], a, l, rfl, fun b hb => absurd hb List.not_mem_nil, ha⟩

/-- A search that gives anything but none gives what is said of the first that is not refused. -/
theorem exists_split_of_findM?_ne (h : l.findM? accepts ≠ .ok none) :
    ∃ before a after, l = before ++ a :: after ∧ (∀ b ∈ before, accepts b = .ok false) ∧
      accepts a ≠ .ok false ∧ l.findM? accepts = (accepts a).map fun _ => some a := by
  rcases refused_or_exists_split accepts l with hl | ⟨before, a, after, rfl, hbefore, ha⟩
  · exact absurd (findM?_of_refused hl) h
  · exact ⟨before, a, after, rfl, hbefore, ha, findM?_of_split hbefore ha⟩

theorem firstAccepted_findM? (accepts : α → Except ε Bool) (l : List α) :
    FirstAccepted accepts l (l.findM? accepts) where
  some_iff a := by
    constructor
    · intro h
      have hne : l.findM? accepts ≠ .ok none := by
        rw [h]
        simp
      obtain ⟨before, b, after, rfl, hbefore, hb, hsearch⟩ := exists_split_of_findM?_ne hne
      rw [h] at hsearch
      cases haccepts : accepts b with
      | error e => rw [haccepts] at hsearch; cases hsearch
      | ok accepted =>
        rw [haccepts] at hsearch hb
        cases hsearch
        cases accepted with
        | true => exact ⟨before, after, rfl, hbefore, haccepts⟩
        | false => exact absurd rfl hb
    · rintro ⟨before, after, rfl, hbefore, ha⟩
      rw [findM?_of_split hbefore (by simp [ha]), ha]
      rfl
  none_iff := by
    constructor
    · intro h
      rcases refused_or_exists_split accepts l with hl | ⟨before, a, after, rfl, hbefore, ha⟩
      · exact hl
      · rw [findM?_of_split hbefore ha] at h
        cases haccepts : accepts a <;> rw [haccepts] at h <;> cases h
    · exact findM?_of_refused
  error_iff e := by
    constructor
    · intro h
      have hne : l.findM? accepts ≠ .ok none := by
        rw [h]
        simp
      obtain ⟨before, b, after, rfl, hbefore, -, hsearch⟩ := exists_split_of_findM?_ne hne
      exact ⟨before, b, after, rfl, hbefore, map_eq_error_iff.1 (hsearch.symm.trans h)⟩
    · rintro ⟨before, a, after, rfl, hbefore, ha⟩
      rw [findM?_of_split hbefore (by simp [ha]), ha]
      rfl

end Find

end Parlance
