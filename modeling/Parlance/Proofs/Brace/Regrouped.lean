import Parlance.Proofs.Brace.Balanced
/-!
Texts that differ inside balanced groups only (Regrouped). Counting does not see the difference: a
group closes in both texts or in neither, and what it holds is again related, and so is what follows
it (Regrouped.exists_close).
-/

namespace Parlance.Brace

section Fronts

variable {opened : Nat} {c : Char} {s t body rest : Text}

/-- The first character of a text decides how many braces are open behind it. -/
theorem BalancedFrom.exists_behind (h : BalancedFrom opened (c :: t)) :
    ∃ n, BalancedFrom n t ∧ ∀ u, BalancedFrom n u → BalancedFrom opened (c :: u) := by
  by_cases hopen : c = '{'
  · subst hopen
    exact ⟨opened + 1, balancedFrom_open.1 h, fun u hu => balancedFrom_open.2 hu⟩
  · by_cases hclose : c = '}'
    · subst hclose
      obtain ⟨before, rfl, hbefore⟩ := balancedFrom_close.1 h
      exact ⟨before, hbefore, fun u hu => balancedFrom_close.2 ⟨before, rfl, hu⟩⟩
    · exact ⟨opened, (balancedFrom_other hopen hclose).1 h,
        fun u hu => (balancedFrom_other hopen hclose).2 hu⟩

/-- A balanced text in front may be taken away. -/
theorem Balanced.of_append (hs : Balanced s) (h : BalancedFrom opened (s ++ t)) :
    BalancedFrom opened t := by
  have hcount (brace : Char) (p : Text) : (s ++ p).count brace = s.count brace + p.count brace :=
    List.count_append
  have htotal := hs.total
  have hwhole := h.total
  rw [hcount, hcount] at hwhole
  refine ⟨by omega, fun p hp => ?_⟩
  have hwithin := h.within (s ++ p) ((List.prefix_append_right_inj s).2 hp)
  rw [hcount, hcount] at hwithin
  omega

/-- The brace that closes stands behind every balanced text at the front. -/
theorem Balanced.exists_behind (hs : Balanced s) (hbody : BalancedFrom opened body)
    (h : s ++ t = body ++ '}' :: rest) :
    ∃ inner, body = s ++ inner ∧ BalancedFrom opened inner ∧ t = inner ++ '}' :: rest := by
  rcases List.append_eq_append_iff.1 h with ⟨inner, rfl, ht⟩ | ⟨beyond, rfl, hrest⟩
  · exact ⟨inner, rfl, hs.of_append hbody, ht⟩
  · cases beyond with
    | nil =>
      rw [List.append_nil] at hs
      refine ⟨[], by simp, hs.of_append (by rwa [List.append_nil]), hrest.symm⟩
    | cons c beyond =>
      -- the brace would be one too many within the balanced text
      obtain ⟨rfl, -⟩ := List.cons.inj hrest
      have hwithin := hs.within (body ++ ['}']) ⟨beyond, by simp⟩
      have htotal := hbody.total
      simp [List.count_append] at hwithin
      omega

end Fronts

/-- The texts have the same characters, except that a balanced group may hold other balanced text
in one than in the other. -/
inductive Regrouped : Text → Text → Prop where
  | nil : Regrouped [] []
  | char (c : Char) {t t' : Text} (rest : Regrouped t t') : Regrouped (c :: t) (c :: t')
  | group {body body' t t' : Text} (balanced : Balanced body) (balanced' : Balanced body')
      (rest : Regrouped t t') :
      Regrouped ('{' :: (body ++ '}' :: t)) ('{' :: (body' ++ '}' :: t'))

namespace Regrouped

variable {opened : Nat} {t t' w body rest : Text}

theorem symm (h : Regrouped t t') : Regrouped t' t := by
  induction h with
  | nil => exact .nil
  | char c _ ih => exact .char c ih
  | group hbody hbody' _ ih => exact .group hbody' hbody ih

/-- Text without an opening brace at the front is the same in both. -/
theorem exists_behind (hw : '{' ∉ w) (h : Regrouped (w ++ t) t') :
    ∃ u, t' = w ++ u ∧ Regrouped t u := by
  induction w generalizing t' with
  | nil => exact ⟨t', rfl, h⟩
  | cons c w ih =>
    simp only [List.mem_cons, not_or] at hw
    generalize hwhole : c :: w ++ t = whole at h
    cases h with
    | nil => cases hwhole
    | char d hrest =>
      obtain ⟨rfl, rfl⟩ := List.cons.inj hwhole
      obtain ⟨u, rfl, hu⟩ := ih hw.2 hrest
      exact ⟨u, rfl, hu⟩
    | group _ _ _ => exact absurd (List.cons.inj hwhole).1.symm hw.1

theorem eq_of_no_open (ht : '{' ∉ t) (h : Regrouped t t') : t' = t := by
  obtain ⟨u, rfl, hu⟩ := exists_behind ht (by rwa [List.append_nil])
  cases hu
  exact List.append_nil t

/-- Where braces are open, both texts close them at the same place. -/
theorem exists_close (h : Regrouped (body ++ '}' :: rest) t') (hbody : BalancedFrom opened body) :
    ∃ body' rest', t' = body' ++ '}' :: rest' ∧ BalancedFrom opened body' ∧
      Regrouped body body' ∧ Regrouped rest rest' := by
  generalize ht : body ++ '}' :: rest = t at h
  induction h generalizing opened body with
  | nil => simp at ht
  | @char c t t' hrest ih =>
    cases body with
    | nil =>
      obtain ⟨rfl, rfl⟩ := List.cons.inj ht
      exact ⟨[], t', rfl, hbody, .nil, hrest⟩
    | cons d body =>
      obtain ⟨rfl, htail⟩ := List.cons.inj ht
      obtain ⟨n, hinner, hcons⟩ := hbody.exists_behind
      obtain ⟨body', rest', rfl, hbody', hsame, hbehind⟩ := ih hinner htail
      exact ⟨d :: body', rest', rfl, hcons body' hbody', .char d hsame, hbehind⟩
  | @group inner inner' t t' hinner hinner' hrest ih =>
    have hgroup : Balanced ('{' :: (inner ++ ['}'])) := hinner.group (balancedFrom_nil.2 rfl)
    have hfront : '{' :: (inner ++ ['}']) ++ t = body ++ '}' :: rest := by simp [ht]
    obtain ⟨behind, rfl, hbehind, htail⟩ := hgroup.exists_behind hbody hfront
    obtain ⟨body', rest', rfl, hbody', hsame, hlast⟩ := ih hbehind htail.symm
    refine ⟨'{' :: (inner' ++ '}' :: body'), rest', by simp, ?_, ?_, hlast⟩
    · exact balancedFrom_open.2 (hinner'.append (balancedFrom_close.2 ⟨opened, rfl, hbody'⟩))
    · simpa using Regrouped.group hinner hinner' hsame

/-- A group of one text is a group of the other. -/
theorem exists_group (h : Regrouped ('{' :: (body ++ '}' :: rest)) t') (hbody : Balanced body) :
    ∃ body' rest', t' = '{' :: (body' ++ '}' :: rest') ∧ Balanced body' ∧ Regrouped rest rest' := by
  generalize ht : '{' :: (body ++ '}' :: rest) = t at h
  cases h with
  | nil => cases ht
  | @char c t t' hrest =>
    obtain ⟨rfl, rfl⟩ := List.cons.inj ht
    obtain ⟨body', rest', rfl, hbody', -, hbehind⟩ := hrest.exists_close hbody
    exact ⟨body', rest', rfl, hbody', hbehind⟩
  | @group inner inner' t t' hinner hinner' hrest =>
    obtain ⟨rfl, rfl⟩ := hbody.append_close_inj hinner (List.cons.inj ht).2
    exact ⟨inner', t', rfl, hinner', hrest⟩

end Regrouped

end Parlance.Brace
