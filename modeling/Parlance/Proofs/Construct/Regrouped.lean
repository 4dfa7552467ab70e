import Parlance.Proofs.Brace.Regrouped
import Parlance.Proofs.Construct.Reading
/-!
Written forms do not hang on what their groups hold: with other balanced text in the groups a list
of branches stays one, and the inside of a construct stays the inside of a construct
(isSome_ofInterior?_of_regrouped).
-/

namespace Parlance.Construct

open Brace Text

section Characters

theorem open_notMem_blanks (a : Blanks) : '{' ∉ a.text :=
  fun hmem => absurd (a.all _ hmem) (by decide)

theorem open_notMem_word (word : Word) : '{' ∉ word.text :=
  fun hmem => absurd (word.all _ hmem) (by decide +kernel)

theorem open_notMem_label (label : FilledRun isLabel) : '{' ∉ label.text :=
  fun hmem => absurd (label.all _ hmem) (by decide)

theorem Opening.open_notMem (o : Opening) : '{' ∉ o.text := by
  simp [Opening.text, open_notMem_blanks, open_notMem_word]

end Characters

section Forms

variable {t : Text}

/-- Branches whose groups hold other text are branches. -/
theorem exists_forms_of_regrouped (forms : List BranchForm)
    (h : Regrouped (forms.flatMap BranchForm.text) t) :
    ∃ forms' : List BranchForm,
      forms'.flatMap BranchForm.text = t ∧ forms'.length = forms.length := by
  induction forms generalizing t with
  | nil => exact ⟨[], (h.eq_of_no_open List.not_mem_nil).symm, rfl⟩
  | cons b forms ih =>
    have hfront : '{' ∉ b.label.text ++ b.gap.text := by
      simp [open_notMem_label, open_notMem_blanks]
    have htext : (b :: forms).flatMap BranchForm.text = b.label.text ++ b.gap.text ++
        '{' :: (b.body ++ '}' :: (b.trail.text ++ forms.flatMap BranchForm.text)) := by
      simp [BranchForm.text]
    rw [htext] at h
    obtain ⟨u, rfl, hgroup⟩ := h.exists_behind hfront
    obtain ⟨body, rest, rfl, hbody, hrest⟩ := hgroup.exists_group b.balanced
    obtain ⟨v, rfl, hforms⟩ := hrest.exists_behind (open_notMem_blanks b.trail)
    obtain ⟨forms', rfl, hlength⟩ := ih hforms
    refine ⟨⟨b.label, b.gap, body, hbody, b.trail⟩ :: forms', ?_, congrArg (· + 1) hlength⟩
    simp [BranchForm.text]

theorem ListForm.exists_of_regrouped (l : ListForm) (h : Regrouped l.text t) :
    ∃ l' : ListForm, l'.text = t := by
  obtain ⟨u, rfl, hforms⟩ := h.exists_behind (open_notMem_blanks l.lead)
  obtain ⟨forms, rfl, hlength⟩ := exists_forms_of_regrouped l.forms hforms
  have hne : forms ≠ [] := by
    rw [← List.length_pos_iff, hlength, List.length_pos_iff]
    exact l.forms_ne_nil
  exact ⟨⟨l.lead, forms, hne⟩, rfl⟩

theorem Tail.exists_of_regrouped (tail : Tail) (h : Regrouped tail.text t) :
    ∃ tail' : Tail, tail'.text = t ∧ tail'.kind = tail.kind := by
  match tail with
  | .choice c list =>
    obtain ⟨u, rfl, hlist⟩ := Regrouped.exists_behind (w := [',']) (by decide) h
    obtain ⟨list', rfl⟩ := list.exists_of_regrouped hlist
    exact ⟨.choice c list', rfl, rfl⟩
  | .field f none => exact ⟨.field f none, (h.eq_of_no_open List.not_mem_nil).symm, rfl⟩
  | .field f (some style) =>
    -- a style may be any text
    obtain ⟨u, rfl, -⟩ := Regrouped.exists_behind (w := [',']) (by decide) h
    exact ⟨.field f (some u), rfl, rfl⟩

theorem Form.exists_of_regrouped (form : Form) (h : Regrouped form.interior t) :
    ∃ form' : Form, form'.interior = t := by
  obtain ⟨u, rfl, htail⟩ := h.exists_behind form.opening.open_notMem
  obtain ⟨tail, rfl, hkind⟩ := form.tail.exists_of_regrouped htail
  exact ⟨⟨form.opening, tail, by rw [form.keyword_eq, hkind]⟩, rfl⟩

end Forms

/-- Whether a text is the inside of a construct does not hang on what its groups hold. -/
theorem isSome_ofInterior?_of_regrouped {t t' : Text} (h : Regrouped t t') :
    (ofInterior? (mark t')).isSome = (ofInterior? (mark t)).isSome := by
  have hkeeps {t t' : Text} (h : Regrouped t t') (hsome : (ofInterior? (mark t)).isSome) :
      (ofInterior? (mark t')).isSome := by
    obtain ⟨said, hsaid⟩ := Option.isSome_iff_exists.1 hsome
    obtain ⟨form, rfl⟩ := exists_form_of_ofInterior? hsaid
    obtain ⟨form', rfl⟩ := form.exists_of_regrouped h
    rw [ofInterior?_mark, Option.isSome_some]
  rw [Bool.eq_iff_iff]
  exact ⟨hkeeps h.symm, hkeeps h⟩

end Parlance.Construct
