import Parlance.Construct
import Parlance.Plural
/-!
The bodies of branches. Each is shorter than the text that it was read from (length_body_le), so
reading bodies as patterns comes to an end. Looking up the forms of a construct gives the body of
the first branch with the label (lookup_forms).
-/

namespace Parlance.Construct

open Brace

theorem length_readBranch_body {pos : Nat} {ms rest : Marks} {b : PlacedBranch}
    (h : readBranch pos ms = .ok (b, rest)) : b.body.length ≤ ms.length := by
  simp only [readBranch] at h
  split at h
  · contradiction
  · have hlabel := length_dropWhile_le (fun m : Mark => isLabel m.char) ms
    have hskip := length_dropWhile_le (fun m : Mark => Text.isBlank m.char)
      (ms.dropWhile (isLabel ·.char))
    split at h
    · contradiction
    · next brace inside hgroup =>
      split at h
      · contradiction
      · split at h
        · simp only [Except.ok.injEq, Prod.mk.injEq] at h
          have hgrouplength := congrArg List.length hgroup
          rw [← h.1]
          simp only [Marks.text, Marks.skipBlank, List.length_map, List.length_take,
            List.length_cons] at hgrouplength ⊢
          omega
        · contradiction

theorem length_body_of_readBranches {pos : Nat} {ms : Marks} {bs : List PlacedBranch}
    (h : readBranches pos ms = .ok bs) : ∀ b ∈ bs, b.body.length ≤ ms.length := by
  fun_induction readBranches pos ms generalizing bs with
  | case1 pos ms hblank =>
    cases h
    intro b hb
    contradiction
  | case2 pos ms hblank e hbranch => contradiction
  | case3 pos ms hblank b rest hbranch hshorter e hrest ih => contradiction
  | case4 pos ms hblank b rest hbranch hshorter bs hrest ih =>
    cases h
    have hskip : ms.skipBlank.length ≤ ms.length := length_dropWhile_le _ ms
    intro b' hb'
    rcases List.mem_cons.1 hb' with rfl | hb'
    · exact Nat.le_trans (length_readBranch_body hbranch) hskip
    · have hbody := ih hrest b' hb'
      omega

theorem length_rest_le {inner : Marks} {header : Header} (h : Header.read? inner = some header) :
    header.rest.length ≤ inner.length := by
  have hskip (ms : Marks) : ms.skipBlank.length ≤ ms.length := length_dropWhile_le _ ms
  have hword (ms : Marks) : (spanWord ms).2.length ≤ ms.length := length_dropWhile_le _ ms
  simp only [Header.read?] at h
  split at h
  · contradiction
  · next comma afterComma hcomma =>
    have hargument := Nat.le_trans (hskip _) (Nat.le_trans (hword inner.skipBlank) (hskip inner))
    have hkeyword := Nat.le_trans (hskip _)
      (Nat.le_trans (hword (Marks.skipBlank afterComma)) (hskip afterComma))
    rw [hcomma, List.length_cons] at hargument
    split at h
    · contradiction
    · split at h
      · cases h
        exact Nat.zero_le _
      · split at h
        · obtain rfl := Option.some.inj h
          exact Nat.le_trans hkeyword (by omega)
        · contradiction

theorem length_body_le {inner : Marks} {argument : Text} {choice : Choice} {branches : List Branch}
    (h : ofInterior? inner = some (argument, .choice choice branches)) :
    ∀ b ∈ branches, b.body.length ≤ inner.length := by
  simp only [ofInterior?, Option.bind_eq_bind, Option.bind_eq_some_iff] at h
  obtain ⟨header, hheader, kind, -, content, hcontent, hpair⟩ := h
  cases hpair
  have hrest := length_rest_le hheader
  cases kind with
  | field f => cases hcontent
  | choice c =>
    cases hlist : header.rest with
    | nil => simp [contentOf?, hlist] at hcontent
    | cons comma list =>
      simp only [contentOf?, hlist, Option.map_eq_some_iff] at hcontent
      obtain ⟨bs, hbs, hbranches⟩ := hcontent
      cases hbranches
      have hread : readBranches 0 list = .ok bs := by
        rw [branchList?] at hbs
        split at hbs
        · next hread =>
          cases hbs
          exact hread
        · contradiction
      intro b hb
      obtain ⟨placed, hplaced, rfl⟩ := List.mem_map.1 hb
      have hbody := length_body_of_readBranches hread placed hplaced
      rw [hlist, List.length_cons] at hrest
      omega

/-- Of branches with one label the first gives the form. -/
theorem lookup_forms (c : Construct) (label : Text) :
    c.forms.lookup label = (c.branches.find? (·.label = label)).map (·.body) := by
  let step := fun (forms : List (Text × Text)) (b : Branch) =>
    if forms.any (·.1 == b.label) then forms else forms ++ [(b.label, b.body)]
  suffices hfold : ∀ (branches : List Branch) (forms : List (Text × Text)),
      (branches.foldl step forms).lookup label =
        (forms.lookup label).or ((branches.find? (·.label = label)).map (·.body)) from
    hfold c.branches []
  intro branches
  induction branches with
  | nil =>
    intro forms
    exact (Option.or_none).symm
  | cons b rest ih =>
    intro forms
    have hstep : (step forms b).lookup label =
        (forms.lookup label).or (if b.label = label then some b.body else none) := by
      -- a label that is known keeps its form, and a new one is looked up behind the others
      by_cases hknown : forms.any (·.1 == b.label)
      · rw [show step forms b = forms from if_pos hknown]
        split
        · next hlabel =>
          have hsome : (forms.lookup label).isSome := by
            rw [List.lookup_isSome_iff]
            obtain ⟨pair, hpair, hsame⟩ := List.any_eq_true.1 hknown
            rw [beq_iff_eq] at hsame
            exact ⟨pair, hpair, beq_iff_eq.2 (hsame.trans hlabel).symm⟩
          exact (Option.or_of_isSome hsome).symm
        · exact Option.or_none.symm
      · rw [show step forms b = forms ++ [(b.label, b.body)] from if_neg hknown, List.lookup_append,
          List.lookup_singleton]
        by_cases hlabel : b.label = label
        · rw [if_pos hlabel, if_pos (beq_iff_eq.2 hlabel.symm)]
        · rw [if_neg hlabel, if_neg fun h => hlabel (beq_iff_eq.1 h).symm]
    rw [List.foldl_cons, ih, hstep, List.find?_cons, Option.or_assoc]
    by_cases hlabel : b.label = label <;> simp [hlabel]

/-- A form that is selected is the body of a branch. -/
theorem exists_branch_of_select {c : Construct} {label body : Text}
    (h : Plural.select c.forms label = some body) : ∃ b ∈ c.branches, b.body = body := by
  rw [Plural.select, lookup_forms, lookup_forms, Option.or_eq_some_iff] at h
  have hmem : ∀ {label : Text}, (c.branches.find? (·.label = label)).map (·.body) = some body →
      ∃ b ∈ c.branches, b.body = body := by
    intro label hfind
    obtain ⟨b, hb, hbody⟩ := Option.map_eq_some_iff.1 hfind
    exact ⟨b, List.mem_of_find?_eq_some hb, hbody⟩
  rcases h with hlabel | ⟨-, hother⟩
  · exact hmem hlabel
  · exact hmem hother

end Parlance.Construct
