import Parlance.Message
import Parlance.Proofs.Construct.Bodies
import Parlance.Proofs.Token.Form
/-!
Building is the inverse of reading for choices that can be written: the argument is a word, there
are forms, each label is a label, and the braces of each body pair up (Buildable). A text built from
such is one token and is read as what it was built from, and a text built from anything else is not
(parse?_build_iff).
-/

namespace Parlance.Construct

open Brace Text

section Braces

/-- A run of a class without braces. -/
theorem balanced_run {p : Char → Bool} (a : Run p) (hopen : p '{' = false)
    (hclose : p '}' = false) : Balanced a.text := by
  have hnone {c : Char} (hc : p c = false) : c ∉ a.text := by
    intro hmem
    rw [a.all c hmem] at hc
    cases hc
  exact balanced_of_no_brace (hnone hopen) (hnone hclose)

theorem balanced_blanks (a : Blanks) : Balanced a.text := balanced_run a (by decide) (by decide)

theorem balanced_word (a : Word) : Balanced a.text :=
  balanced_run a.toRun (by decide +kernel) (by decide +kernel)

theorem BranchForm.balanced_text (b : BranchForm) : Balanced b.text := by
  have hlabel : Balanced b.label.text := balanced_run b.label.toRun (by decide) (by decide)
  exact hlabel.append ((balanced_blanks b.gap).append (b.balanced.group (balanced_blanks b.trail)))

theorem BranchForm.balanced_flatMap (forms : List BranchForm) : Balanced (forms.flatMap text) := by
  induction forms with
  | nil => exact balancedFrom_nil.2 rfl
  | cons b forms ih => exact b.balanced_text.append ih

theorem Opening.balanced_text (o : Opening) : Balanced o.text := by
  have hkeyword : Balanced (',' :: (o.beforeKeyword.text ++ (o.keyword.text ++ o.trail.text))) :=
    (balancedFrom_other (by decide) (by decide)).2
      ((balanced_blanks o.beforeKeyword).append
        ((balanced_word o.keyword).append (balanced_blanks o.trail)))
  exact (balanced_blanks o.lead).append
    ((balanced_word o.argument).append ((balanced_blanks o.gap).append hkeyword))

/-- All braces of a choice pair up; those in the style of a field need not. -/
theorem Form.balanced_interior {form : Form} {how : Choice} {list : ListForm}
    (h : form.tail = .choice how list) : Balanced form.interior := by
  rw [Form.interior, h, Tail.text, ListForm.text]
  have hlist := (balanced_blanks list.lead).append (BranchForm.balanced_flatMap list.forms)
  exact form.opening.balanced_text.append ((balancedFrom_other (by decide) (by decide)).2 hlist)

end Braces

section Building

variable {how : Choice} {argument : Text} {forms : List (Text × Text)}

/-- What a choice can be built from. -/
structure Buildable (argument : Text) (forms : List (Text × Text)) : Prop where
  argument_ne_nil : argument ≠ []
  argument_all : ∀ c ∈ argument, isWord c
  forms_ne_nil : forms ≠ []
  label_ne_nil : ∀ form ∈ forms, form.1 ≠ []
  label_all : ∀ form ∈ forms, ∀ c ∈ form.1, isLabel c
  balanced : ∀ form ∈ forms, Balanced form.2

def noBlanks : Blanks := ⟨[], List.forall_mem_nil _⟩

def oneBlank : Blanks := ⟨[' '], List.forall_mem_singleton.2 (by decide)⟩

/-- The branches that forms stand for. -/
def branchesOf (forms : List (Text × Text)) : List Branch := forms.map fun form => ⟨form.1, form.2⟩

/-- The construct that a built text stands for. -/
def built (how : Choice) (argument : Text) (forms : List (Text × Text)) : Construct :=
  let source := Message.build argument how.keyword.toList forms
  ⟨argument, .choice how (branchesOf forms), source, Span.ofLength 0 source.length⟩

/-- Forms are written side by side, with a blank behind each but the last. -/
theorem exists_branchForms (hne : ∀ form ∈ forms, form.1 ≠ [])
    (hall : ∀ form ∈ forms, ∀ c ∈ form.1, isLabel c) (hbalanced : ∀ form ∈ forms, Balanced form.2) :
    ∃ written : List BranchForm, written.map BranchForm.branch = branchesOf forms ∧
      written.flatMap BranchForm.text =
        [' '].intercalate (forms.map fun (label, body) => label ++ "\x7b" ++ body ++ "\x7d") := by
  induction forms with
  | nil => exact ⟨[], rfl, rfl⟩
  | cons form rest ih =>
    simp only [List.forall_mem_cons] at hne hall hbalanced
    obtain ⟨written, hbranches, htext⟩ := ih hne.2 hall.2 hbalanced.2
    let label : FilledRun isLabel := ⟨⟨form.1, hall.1⟩, hne.1⟩
    cases rest with
    | nil =>
      let last : BranchForm := ⟨label, noBlanks, form.2, hbalanced.1, noBlanks⟩
      refine ⟨[last], rfl, ?_⟩
      simp [last, label, noBlanks, BranchForm.text]
    | cons next rest =>
      let first : BranchForm := ⟨label, noBlanks, form.2, hbalanced.1, oneBlank⟩
      refine ⟨first :: written, ?_, ?_⟩
      · rw [List.map_cons, hbranches]
        rfl
      · rw [List.flatMap_cons, htext]
        simp [first, label, noBlanks, oneBlank, BranchForm.text]

/-- What can be built is written as a construct whose braces pair up. -/
theorem exists_form_of_buildable (how : Choice) (h : Buildable argument forms) :
    ∃ form : Form, form.text = Message.build argument how.keyword.toList forms ∧
      form.construct 0 = built how argument forms ∧ Balanced form.interior := by
  obtain ⟨written, hbranches, hwritten⟩ := exists_branchForms h.label_ne_nil h.label_all h.balanced
  have hkeyword : how.keyword.toList.all isWord := by cases how <;> decide +kernel
  have hkeyword_ne_nil : how.keyword.toList ≠ [] := by cases how <;> decide
  have hwritten_ne_nil : written ≠ [] := by
    rintro rfl
    exact h.forms_ne_nil (List.map_eq_nil_iff.1 hbranches.symm)
  let argumentWord : Word := ⟨⟨argument, h.argument_all⟩, h.argument_ne_nil⟩
  let keywordWord : Word := ⟨⟨how.keyword.toList, List.all_eq_true.1 hkeyword⟩, hkeyword_ne_nil⟩
  let opening : Opening := ⟨noBlanks, argumentWord, noBlanks, oneBlank, keywordWord, noBlanks⟩
  let form : Form := ⟨opening, .choice how ⟨oneBlank, written, hwritten_ne_nil⟩, rfl⟩
  have htext : form.text = Message.build argument how.keyword.toList forms := by
    simp [form, opening, argumentWord, keywordWord, noBlanks, oneBlank, hwritten, Form.text,
      Form.interior, Opening.text, Tail.text, ListForm.text, Message.build]
  refine ⟨form, htext, ?_, Form.balanced_interior rfl⟩
  rw [Form.construct, htext]
  change (⟨argument, .choice how (written.map BranchForm.branch), _, _⟩ : Construct) = _
  rw [hbranches]
  rfl

/-- What is written as a construct with the branches of forms can be built from these. -/
theorem buildable_of_form {form : Form}
    (hcontent : form.tail.content = .choice how (branchesOf forms)) :
    Buildable form.opening.argument.text forms := by
  cases htail : form.tail with
  | field f style =>
    rw [htail] at hcontent
    cases style <;> cases hcontent
  | choice c list =>
    rw [htail] at hcontent
    have hbranches : list.forms.map BranchForm.branch = branchesOf forms :=
      (Content.choice.inj hcontent).2
    have hwritten : ∀ pair ∈ forms, ∃ b : BranchForm, b.label.text = pair.1 ∧ b.body = pair.2 := by
      intro pair hpair
      have hbranch : (⟨pair.1, pair.2⟩ : Branch) ∈ list.forms.map BranchForm.branch :=
        hbranches ▸ List.mem_map_of_mem hpair
      obtain ⟨b, -, hsame⟩ := List.mem_map.1 hbranch
      exact ⟨b, congrArg Branch.label hsame, congrArg Branch.body hsame⟩
    constructor
    case argument_ne_nil => exact form.opening.argument.text_ne_nil
    case argument_all => exact form.opening.argument.all
    case forms_ne_nil =>
      rintro rfl
      exact list.forms_ne_nil (List.map_eq_nil_iff.1 hbranches)
    case label_ne_nil =>
      intro pair hpair
      obtain ⟨b, hlabel, -⟩ := hwritten pair hpair
      exact hlabel ▸ b.label.text_ne_nil
    case label_all =>
      intro pair hpair
      obtain ⟨b, hlabel, -⟩ := hwritten pair hpair
      exact hlabel ▸ b.label.all
    case balanced =>
      intro pair hpair
      obtain ⟨b, -, hbody⟩ := hwritten pair hpair
      exact hbody ▸ b.balanced

/-- A built text is one token. -/
theorem ofPattern_build (how : Choice) (h : Buildable argument forms) :
    Token.ofPattern (Message.build argument how.keyword.toList forms) =
      [.construct (built how argument forms)] := by
  obtain ⟨form, htext, hconstruct, hbalanced⟩ := exists_form_of_buildable how h
  rw [← htext, form.ofPattern_text hbalanced, hconstruct]

/-- The text of a construct that is read in it as a whole. -/
theorem parse?_eq_some_iff {t : Text} {c : Construct} :
    parse? t 0 = .ok (some c) ↔ ∃ form : Form, form.text = t ∧ form.construct 0 = c := by
  have hparse : parse? t 0 = .ok (ofGroup? 0 (mark t)) := parse?_eq_ofGroup? t 0
  rw [hparse, Except.ok.injEq, ofGroup?_eq_some_iff]

theorem content_eq_of_branches {c : Construct} {branches : List Branch}
    (hkind : c.kind = .choice how) (hbranches : c.branches = branches) :
    c.content = .choice how branches := by
  obtain ⟨_, content, _, _⟩ := c
  cases content with
  | field f style => cases hkind
  | choice other bs =>
    cases hkind
    cases hbranches
    rfl

theorem find?_branchesOf (label : Text) (forms : List (Text × Text)) :
    ((branchesOf forms).find? (·.label = label)).map (·.body) = forms.lookup label := by
  induction forms with
  | nil => rfl
  | cons form rest ih =>
    have hcons : branchesOf (form :: rest) = ⟨form.1, form.2⟩ :: branchesOf rest := rfl
    rw [hcons, List.find?_cons, List.lookup_cons]
    by_cases hlabel : form.1 = label
    · simp [hlabel]
    · have hother : (label == form.1) = false := beq_eq_false_iff_ne.2 (Ne.symm hlabel)
      simp [hlabel, hother, ih]

/-- A label selects in a built construct what it selects among the forms. -/
theorem select_forms_built (how : Choice) (argument label : Text)
    (forms : List (Text × Text)) :
    Plural.select (built how argument forms).forms label = Plural.select forms label := by
  have hlookup (label : Text) :
      (built how argument forms).forms.lookup label = forms.lookup label :=
    (lookup_forms _ label).trans (find?_branchesOf label forms)
  rw [Plural.select, Plural.select, hlookup, hlookup]

/-- A text that is built from an argument and forms is read as the construct of that argument and
those branches, in their order, exactly if the argument is a word, there are forms, the labels are
labels, and the braces of each body pair up. Then and only then is the whole text the one token
of the construct. -/
theorem parse?_build_iff (how : Choice) (argument : Text) (forms : List (Text × Text)) :
    ((∃ c, parse? (Message.build argument how.keyword.toList forms) 0 = .ok (some c) ∧
        c.argument = argument ∧ c.kind = .choice how ∧ c.branches = branchesOf forms) ↔
      Buildable argument forms) ∧
    (Token.ofPattern (Message.build argument how.keyword.toList forms) =
        [.construct (built how argument forms)] ↔
      Buildable argument forms) := by
  refine ⟨⟨?_, fun h => ?_⟩, fun h => ?_, ofPattern_build how⟩
  · rintro ⟨c, hread, rfl, hkind, hbranches⟩
    obtain ⟨form, -, rfl⟩ := parse?_eq_some_iff.1 hread
    exact buildable_of_form (content_eq_of_branches hkind hbranches)
  · obtain ⟨form, htext, hconstruct, -⟩ := exists_form_of_buildable how h
    exact ⟨built how argument forms, parse?_eq_some_iff.2 ⟨form, htext, hconstruct⟩, rfl, rfl, rfl⟩
  · have hmem : .construct (built how argument forms) ∈
        Token.ofPattern (Message.build argument how.keyword.toList forms) := by
      rw [h]
      exact List.mem_singleton_self _
    obtain ⟨form, pos, hform⟩ := Token.exists_form_of_mem hmem
    have hargument : argument = form.opening.argument.text := congrArg Construct.argument hform
    rw [hargument]
    exact buildable_of_form (congrArg Construct.content hform).symm

end Building

end Parlance.Construct
