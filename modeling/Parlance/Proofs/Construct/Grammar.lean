import Parlance.Construct
import Parlance.Proofs.Brace.Balanced
import Parlance.Proofs.Text.Run
/-!
The written form of constructs. A list of branches is written as labels and balanced bodies with
blanks around them, a construct as an argument, a keyword and, behind a second comma, such a list or
a style. A text has at most one written form (ListForm.text_injective, Form.text_injective).
-/

namespace Parlance.Construct

open Brace Text

/-- A branch as it is written, with the blanks behind its label and behind its body. -/
@[ext]
structure BranchForm where
  label : FilledRun isLabel
  gap : Blanks
  body : Text
  balanced : Balanced body
  trail : Blanks

def BranchForm.text (b : BranchForm) : Text :=
  b.label.text ++ (b.gap.text ++ '{' :: (b.body ++ '}' :: b.trail.text))

def BranchForm.branch (b : BranchForm) : Branch := ⟨b.label.text, b.body⟩

/-- A list of branches as it is written, with the blanks in front of it. -/
@[ext]
structure ListForm where
  lead : Blanks
  forms : List BranchForm
  forms_ne_nil : forms ≠ []

def ListForm.text (l : ListForm) : Text := l.lead.text ++ l.forms.flatMap BranchForm.text

/-- The branches that are written at a position, each with the place of its body. -/
def BranchForm.placed : Nat → List BranchForm → List PlacedBranch
  | _, [] => []
  | pos, b :: forms =>
    ⟨b.branch, pos + (b.label.text.length + b.gap.text.length) + 1⟩ ::
      placed (pos + b.text.length) forms

theorem BranchForm.map_placed (pos : Nat) (forms : List BranchForm) :
    (placed pos forms).map (·.toBranch) = forms.map branch := by
  induction forms generalizing pos with
  | nil => rfl
  | cons b forms ih => rw [placed, List.map_cons, List.map_cons, ih]

def ListForm.branches (l : ListForm) : List Branch := l.forms.map BranchForm.branch

/-- An argument and a keyword as they are written, each between blanks, with a comma between
them. -/
@[ext]
structure Opening where
  lead : Blanks
  argument : Word
  gap : Blanks
  beforeKeyword : Blanks
  keyword : Word
  trail : Blanks

def Opening.text (o : Opening) : Text :=
  o.lead.text ++ (o.argument.text ++ (o.gap.text ++ ',' ::
    (o.beforeKeyword.text ++ (o.keyword.text ++ o.trail.text))))

/-- What stands behind the keyword of a construct and its blanks. -/
inductive Tail where
  | choice (c : Choice) (list : ListForm)
  | field (f : Field) (style : Option Text)

def Tail.kind : Tail → Kind
  | .choice c _ => .choice c
  | .field f _ => .field f

def Tail.text : Tail → Text
  | .choice _ list => ',' :: list.text
  | .field _ none => []
  | .field _ (some style) => ',' :: style

/-- What a tail says: the branches of a list, and a style without the blanks around it, unless there
is nothing else. -/
def Tail.content : Tail → Content
  | .choice c list => .choice c list.branches
  | .field f none => .field f none
  | .field f (some style) => .field f (if style.trim.isEmpty then none else some style.trim)

/-- A construct as it is written between its braces. -/
structure Form where
  opening : Opening
  tail : Tail
  keyword_eq : opening.keyword.text = tail.kind.keyword.toList

namespace Form

def interior (form : Form) : Text := form.opening.text ++ form.tail.text

def text (form : Form) : Text := '{' :: (form.interior ++ ['}'])

/-- The construct that a written form stands for, at a position. -/
def construct (form : Form) (start : Nat) : Construct :=
  ⟨form.opening.argument.text, form.tail.content, form.text, Span.ofLength start form.text.length⟩

end Form

section Boundaries

variable {c : Char} {t : Text}

theorem not_isBlank_of_isLabel (h : isLabel c) : isBlank c = false := by
  simp only [isLabel, Bool.and_eq_true, Bool.not_eq_true'] at h
  exact h.1.1.1

theorem not_isLabel_of_isBlank (h : isBlank c) : isLabel c = false := by
  rw [isLabel, h]
  rfl

/-- Behind a label come blanks and a brace. -/
theorem ends_label (gap : Blanks) (t : Text) : Ends isLabel (gap.text ++ '{' :: t) :=
  gap.ends_append (fun _ => not_isLabel_of_isBlank) (ends_cons.2 (by decide))

theorem ends_gap (t : Text) : Ends isBlank ('{' :: t) := ends_cons.2 (by decide)

/-- Branches begin with a label, so blanks in front of them end there. -/
theorem ends_flatMap (forms : List BranchForm) : Ends isBlank (forms.flatMap BranchForm.text) := by
  cases forms with
  | nil => exact ends_nil
  | cons b forms =>
    rw [List.flatMap_cons, BranchForm.text, List.append_assoc]
    exact b.label.ends_append (fun _ => not_isBlank_of_isLabel) _

/-- Behind a keyword and its blanks comes nothing or a comma. -/
def FollowsKeyword (t : Text) : Prop := t = [] ∨ ∃ rest, t = ',' :: rest

theorem Tail.followsKeyword (tail : Tail) : FollowsKeyword tail.text := by
  match tail with
  | .choice _ list => exact .inr ⟨list.text, rfl⟩
  | .field _ none => exact .inl rfl
  | .field _ (some style) => exact .inr ⟨style, rfl⟩

/-- What follows a keyword ends every class that has no comma. -/
theorem FollowsKeyword.ends {p : Char → Bool} (hcomma : p ',' = false) (h : FollowsKeyword t) :
    Ends p t := by
  rcases h with rfl | ⟨rest, rfl⟩
  · exact ends_nil
  · exact ends_cons.2 hcomma

theorem ends_word (word : Word) (t : Text) : Ends isBlank (word.text ++ t) :=
  word.ends_append (fun _ => not_isBlank_of_isWord) t

theorem not_isWord_comma : isWord ',' = false := by decide +kernel

theorem ends_comma : Ends isBlank (',' :: t) := ends_cons.2 (by decide)

/-- Behind an argument come blanks and a comma. -/
theorem ends_argument (gap : Blanks) (t : Text) : Ends isWord (gap.text ++ ',' :: t) :=
  gap.ends_append (fun _ => not_isWord_of_isBlank) (ends_cons.2 not_isWord_comma)

theorem FollowsKeyword.ends_blanks (h : FollowsKeyword t) : Ends isBlank t := h.ends (by decide)

theorem FollowsKeyword.ends_keyword (h : FollowsKeyword t) (trail : Blanks) :
    Ends isWord (trail.text ++ t) :=
  trail.ends_append (fun _ => not_isWord_of_isBlank) (h.ends not_isWord_comma)

end Boundaries

/-- Of a branch in front of a text that begins with no blank it is seen where it ends. -/
theorem BranchForm.append_inj {b b' : BranchForm} {t t' : Text} (ht : Ends isBlank t)
    (ht' : Ends isBlank t') (hsame : b.text ++ t = b'.text ++ t') : b = b' ∧ t = t' := by
  simp only [BranchForm.text, List.append_assoc, List.cons_append] at hsame
  obtain ⟨hlabel, hsame⟩ := FilledRun.append_inj (ends_label _ _) (ends_label _ _) hsame
  obtain ⟨hgap, hsame⟩ := Run.append_inj (ends_gap _) (ends_gap _) hsame
  obtain ⟨hbody, hsame⟩ := b.balanced.append_close_inj b'.balanced (List.cons.inj hsame).2
  obtain ⟨htrail, hrest⟩ := Run.append_inj ht ht' hsame
  exact ⟨BranchForm.ext hlabel hgap hbody htrail, hrest⟩

theorem BranchForm.flatMap_text_injective :
    Function.Injective (List.flatMap BranchForm.text) := by
  have hne (b : BranchForm) (t : Text) : b.text ++ t ≠ [] := by
    simp [BranchForm.text]
  intro forms
  induction forms with
  | nil =>
    rintro (_ | ⟨b', forms'⟩) hsame
    · rfl
    · exact absurd hsame.symm (hne b' _)
  | cons b forms ih =>
    rintro (_ | ⟨b', forms'⟩) hsame
    · exact absurd hsame (hne b _)
    · rw [List.flatMap_cons, List.flatMap_cons] at hsame
      obtain ⟨rfl, hrest⟩ := BranchForm.append_inj (ends_flatMap _) (ends_flatMap _) hsame
      rw [ih hrest]

theorem ListForm.text_injective : Function.Injective ListForm.text := by
  intro l l' hsame
  obtain ⟨hlead, hforms⟩ := Run.append_inj (ends_flatMap _) (ends_flatMap _) hsame
  exact ListForm.ext hlead (BranchForm.flatMap_text_injective hforms)

theorem Opening.text_append (o : Opening) (t : Text) :
    o.text ++ t = o.lead.text ++ (o.argument.text ++ (o.gap.text ++ ',' ::
      (o.beforeKeyword.text ++ (o.keyword.text ++ (o.trail.text ++ t))))) := by
  simp only [Opening.text, List.append_assoc, List.cons_append]

theorem Opening.append_inj {o o' : Opening} {t t' : Text} (ht : FollowsKeyword t)
    (ht' : FollowsKeyword t') (hsame : o.text ++ t = o'.text ++ t') : o = o' ∧ t = t' := by
  rw [Opening.text_append, Opening.text_append] at hsame
  obtain ⟨hlead, hsame⟩ := Run.append_inj (ends_word _ _) (ends_word _ _) hsame
  obtain ⟨hargument, hsame⟩ := FilledRun.append_inj (ends_argument _ _) (ends_argument _ _) hsame
  obtain ⟨hgap, hsame⟩ := Run.append_inj ends_comma ends_comma hsame
  obtain ⟨hbefore, hsame⟩ :=
    Run.append_inj (ends_word _ _) (ends_word _ _) (List.cons.inj hsame).2
  obtain ⟨hkeyword, hsame⟩ :=
    FilledRun.append_inj (ht.ends_keyword _) (ht'.ends_keyword _) hsame
  obtain ⟨htrail, hrest⟩ := Run.append_inj ht.ends_blanks ht'.ends_blanks hsame
  exact ⟨Opening.ext hlead hargument hgap hbefore hkeyword htrail, hrest⟩

theorem Tail.eq_of_text {tail tail' : Tail} (hkind : tail.kind = tail'.kind)
    (htext : tail.text = tail'.text) : tail = tail' := by
  cases tail with
  | choice c list =>
    cases tail' with
    | choice c' list' =>
      rw [ListForm.text_injective (List.cons.inj htext).2, Kind.choice.inj hkind]
    | field f' style' => cases hkind
  | field f style =>
    cases tail' with
    | choice c' list' => cases hkind
    | field f' style' =>
      have hstyle : style = style' := by
        cases style <;> cases style' <;> simp_all [Tail.text]
      rw [hstyle, Kind.field.inj hkind]

theorem Kind.keyword_injective : Function.Injective Kind.keyword := by
  rintro (⟨_ | _ | _⟩ | ⟨_ | _ | _⟩) (⟨_ | _ | _⟩ | ⟨_ | _ | _⟩) <;> decide

theorem Kind.ofKeyword?_eq_some_iff {keyword : Text} {kind : Kind} :
    ofKeyword? keyword = some kind ↔ keyword = kind.keyword.toList := by
  constructor
  · intro h
    rw [ofKeyword?] at h
    have hkeyword := List.find?_some h
    exact (of_decide_eq_true hkeyword).symm
  · rintro rfl
    revert kind
    rintro (⟨_ | _ | _⟩ | ⟨_ | _ | _⟩) <;> decide

/-- A text is written as a construct in one way at most. -/
theorem Form.text_injective : Function.Injective Form.text := by
  intro form form' hsame
  have hinterior : form.interior = form'.interior :=
    List.append_cancel_right (List.cons.inj hsame).2
  obtain ⟨hopening, htail⟩ :=
    Opening.append_inj form.tail.followsKeyword form'.tail.followsKeyword hinterior
  have hkind : form.tail.kind = form'.tail.kind := by
    apply Kind.keyword_injective
    apply String.toList_injective
    rw [← form.keyword_eq, ← form'.keyword_eq, hopening]
  cases form
  cases form'
  cases hopening
  cases Tail.eq_of_text hkind htail
  rfl

end Parlance.Construct
