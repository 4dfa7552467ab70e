import Parlance.Proofs.Construct.Reading
import Parlance.Proofs.Token.Composition
/-!
Constructs among the tokens of a pattern are written forms that stand in the pattern, so the body of
a branch stands there too, behind the opening brace of its construct and its own
(exists_body_inside), at a place that the form tells (Form.exists_around). A choice that is written
alone is one token (Form.ofPattern_text).
-/

namespace Parlance

open Brace

namespace Construct

/-- The body of a written branch stands at its place, between braces. -/
theorem BranchForm.exists_around {pos : Nat} {forms : List BranchForm} {b : PlacedBranch}
    (h : b ∈ placed pos forms) :
    ∃ before after, forms.flatMap text = before ++ '{' :: (b.body ++ '}' :: after) ∧
      b.start = pos + before.length + 1 := by
  induction forms generalizing pos with
  | nil => cases h
  | cons first forms ih =>
    rw [List.flatMap_cons]
    rcases List.mem_cons.1 h with rfl | hrest
    · refine ⟨first.label.text ++ first.gap.text,
        first.trail.text ++ forms.flatMap text, ?_, ?_⟩
      · simp [BranchForm.text, BranchForm.branch]
      · rw [List.length_append]
    · obtain ⟨before, after, htext, hstart⟩ := ih hrest
      refine ⟨first.text ++ before, after, by rw [htext, List.append_assoc], ?_⟩
      rw [hstart, List.length_append]
      omega

namespace Form

variable {form : Form}

/-- The branches of a construct that is written at a position, each with the place of its body. -/
def placedBranches (form : Form) (pos : Nat) : List PlacedBranch :=
  match form.tail with
  | .choice _ list =>
    BranchForm.placed (pos + (form.opening.text.length + list.lead.text.length + 2)) list.forms
  | .field _ _ => []

theorem map_placedBranches (form : Form) (pos : Nat) :
    (form.placedBranches pos).map (·.toBranch) = (form.construct pos).branches := by
  rw [placedBranches, Construct.branches, construct]
  cases form.tail with
  | choice how list => exact BranchForm.map_placed _ list.forms
  | field f style => cases style <;> rfl

/-- The body of a branch stands in its construct at its place, behind two opening braces. -/
theorem exists_around {pos : Nat} {b : PlacedBranch} (h : b ∈ form.placedBranches pos) :
    ∃ between after, form.text = '{' :: (between ++ '{' :: (b.body ++ '}' :: after)) ∧
      b.start = pos + (between.length + 2) := by
  rw [placedBranches] at h
  cases htail : form.tail with
  | field f style =>
    rw [htail] at h
    cases h
  | choice how list =>
    rw [htail] at h
    obtain ⟨before, after, htext, hstart⟩ := BranchForm.exists_around h
    refine ⟨form.opening.text ++ ',' :: (list.lead.text ++ before), after ++ ['}'], ?_, ?_⟩
    · rw [text, interior, htail, Tail.text, ListForm.text, htext]
      simp
    · rw [hstart]
      simp only [List.length_append, List.length_cons]
      omega

theorem exists_body {pos : Nat} {b : Branch} (h : b ∈ (form.construct pos).branches) :
    ∃ between after, form.text = '{' :: (between ++ '{' :: (b.body ++ '}' :: after)) := by
  rw [← map_placedBranches] at h
  obtain ⟨placed, hplaced, rfl⟩ := List.mem_map.1 h
  obtain ⟨between, after, htext, -⟩ := exists_around hplaced
  exact ⟨between, after, htext⟩

theorem balanced_body {pos : Nat} {b : Branch} (h : b ∈ (form.construct pos).branches) :
    Balanced b.body := by
  rw [construct] at h
  cases htail : form.tail with
  | field f style =>
    rw [htail] at h
    cases style <;> cases h
  | choice how list =>
    rw [htail] at h
    obtain ⟨written, -, rfl⟩ := List.mem_map.1 h
    exact written.balanced

/-- A form whose braces pair up is one token. -/
theorem ofPattern_text (h : Balanced form.interior) :
    Token.ofPattern form.text = [.construct (form.construct 0)] := by
  have hlength : form.text.length = form.interior.length + 2 :=
    Brace.length_group form.interior
  have hclose : close? form.text 0 = some form.text.length := by
    rw [hlength]
    exact (close?_group_iff []).2 h
  have hread : parse? form.text 0 = .ok (some (form.construct 0)) := by
    rw [← ofGroup?_form]
    exact parse?_eq_ofGroup? form.text 0
  have hpattern := Token.Part.ofPattern_pattern [.construct form.text _ hclose hread]
  rwa [Token.Part.pattern, List.flatMap_singleton] at hpattern

end Form

end Construct

namespace Token

open Construct

variable {pattern : Text} {token : Token} {c : Construct}

theorem source_infix (h : token ∈ ofPattern pattern) : token.source <:+: pattern := by
  obtain ⟨before, after, htokens⟩ := List.append_of_mem h
  refine ⟨before.flatMap source, after.flatMap source, ?_⟩
  rw [← flatMap_source_ofPattern pattern, htokens]
  simp

/-- A construct of a pattern has a written form. -/
theorem exists_form_of_mem (h : .construct c ∈ ofPattern pattern) :
    ∃ (form : Form) (pos : Nat), c = form.construct pos := by
  obtain ⟨pos, t, n, hfound⟩ := Part.exists_found_of_mem h rfl
  cases hfound with
  | @construct body rest argument content ht hclose hread =>
    rw [ht, ofInterior?_take_mark] at hread
    obtain ⟨form, rfl⟩ := exists_form_of_ofInterior? hread
    rw [ofInterior?_mark] at hread
    cases hread
    refine ⟨form, pos, ?_⟩
    rw [Form.construct, Form.text, Brace.length_group]

/-- The braces of a branch pair up. -/
theorem balanced_body {b : Branch} (hc : .construct c ∈ ofPattern pattern) (hb : b ∈ c.branches) :
    Balanced b.body := by
  obtain ⟨form, pos, rfl⟩ := exists_form_of_mem hc
  exact form.balanced_body hb

theorem length_body_lt_source {b : Branch} (hc : .construct c ∈ ofPattern pattern)
    (hb : b ∈ c.branches) : b.body.length < c.source.length := by
  obtain ⟨form, pos, rfl⟩ := exists_form_of_mem hc
  obtain ⟨between, after, htext⟩ := Form.exists_body hb
  rw [Form.construct, htext]
  simp only [List.length_cons, List.length_append]
  omega

/-- The body of a branch stands in the pattern behind two opening braces of the construct. -/
theorem exists_body_inside {b : Branch} (hc : .construct c ∈ ofPattern pattern)
    (hb : b ∈ c.branches) :
    ∃ before between after,
      pattern = before ++ '{' :: (between ++ '{' :: (b.body ++ '}' :: after)) := by
  obtain ⟨before, behind, hpattern⟩ := source_infix hc
  obtain ⟨form, pos, rfl⟩ := exists_form_of_mem hc
  obtain ⟨between, after, htext⟩ := Form.exists_body hb
  refine ⟨before, between, after ++ behind, ?_⟩
  rw [← hpattern, source, Form.construct, htext]
  simp

end Token

end Parlance
