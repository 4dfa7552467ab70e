import Parlance.Proofs.Construct.Cut
import Parlance.Proofs.Construct.Grammar
import Parlance.Proofs.Construct.Group
/-!
Reading is the inverse of writing. Each reader takes exactly the texts that have its written form,
one lemma to read a written form and one to find the written form of what was read.
-/

namespace Parlance.Construct

open Brace Text

section Branches

variable {pos : Nat} {t : Text}

theorem text_take_mark_body (body t : Text) :
    Marks.text ((mark (body ++ '}' :: t)).take body.length) = body := by
  rw [text_take_mark, List.take_left]

theorem drop_mark_group (body t : Text) :
    (mark ('{' :: (body ++ '}' :: t))).drop (body.length + 2) = mark t := by
  rw [mark_drop, List.drop_succ_cons, List.drop_length_add_append]
  rfl

theorem length_group_le (body t : Text) :
    body.length + 2 ≤ (mark (body ++ '}' :: t)).length + 1 := by
  rw [length_mark]
  simp

/-- A written branch is read, up to the blanks behind it. -/
theorem readBranch_mark (pos : Nat) (b : BranchForm) (t : Text) :
    readBranch pos (mark (b.text ++ t)) =
      .ok (⟨b.branch, pos + (b.label.text.length + b.gap.text.length) + 1⟩,
        mark (b.trail.text ++ t)) := by
  have htext : b.text ++ t =
      b.label.text ++ (b.gap.text ++ '{' :: (b.body ++ '}' :: (b.trail.text ++ t))) := by
    simp [BranchForm.text]
  have hlabel : Marks.text ((mark (b.text ++ t)).takeWhile (isLabel ·.char)) = b.label.text := by
    rw [Marks.text_takeWhile, text_mark, htext, b.label.takeWhile_append (ends_label _ _)]
  have hne : ((mark (b.text ++ t)).takeWhile (isLabel ·.char)).isEmpty = false := by
    rw [← Marks.isEmpty_text, hlabel]
    exact List.isEmpty_eq_false_iff.2 b.label.text_ne_nil
  have hgroup : Marks.skipBlank ((mark (b.text ++ t)).dropWhile (isLabel ·.char)) =
      mark ('{' :: (b.body ++ '}' :: (b.trail.text ++ t))) := by
    rw [dropWhile_mark, skipBlank_mark, htext, b.label.dropWhile_append (ends_label _ _),
      b.gap.dropWhile_append (ends_gap _)]
  have hstart : (mark (b.text ++ t)).length -
      ((mark (b.body ++ '}' :: (b.trail.text ++ t))).length + 1) =
        b.label.text.length + b.gap.text.length := by
    rw [length_mark, length_mark, htext]
    simp only [List.length_append, List.length_cons]
    omega
  have hrest := drop_mark_group b.body (b.trail.text ++ t)
  rw [mark_open, (close?_group_iff (b.trail.text ++ t)).2 b.balanced] at hgroup hrest
  simp only [readBranch, hlabel, hne, hgroup, hrest, List.length_cons, length_group_le, hstart,
    Nat.add_sub_cancel, text_take_mark_body, and_self, if_true]
  rfl

/-- What is read as a branch is written as one, up to the blanks behind it. -/
theorem exists_form_of_readBranch {b : PlacedBranch} {rest : Marks}
    (h : readBranch pos (mark t) = .ok (b, rest)) :
    ∃ (label : FilledRun isLabel) (gap : Blanks) (body t' : Text), Balanced body ∧
      t = label.text ++ (gap.text ++ '{' :: (body ++ '}' :: t')) ∧ rest = mark t' := by
  simp only [readBranch, dropWhile_mark, skipBlank_mark] at h
  rw [← Marks.isEmpty_text, Marks.text_takeWhile, text_mark] at h
  split at h
  · contradiction
  · next hlabel =>
    rw [List.isEmpty_iff] at hlabel
    cases hgroup : (t.dropWhile isLabel).dropWhile isBlank with
    | nil =>
      rw [hgroup] at h
      cases h
    | cons c u =>
      rw [hgroup, mark_cons] at h
      simp only at h
      split at h
      · contradiction
      · next n hreach =>
        obtain ⟨rfl, hclose⟩ := Option.ite_none_right_eq_some.1 hreach
        obtain ⟨body, t', rfl, rfl, hbody⟩ := exists_balanced_of_close? hclose
        refine ⟨⟨Run.leading isLabel t, hlabel⟩, Run.leading isBlank (t.dropWhile isLabel), body,
          t', hbody, by rw [← hgroup, Run.leading_append, Run.leading_append], ?_⟩
        rw [if_pos rfl, ← mark_open] at h
        split at h
        · rw [← drop_mark_group body t']
          exact (Prod.mk.inj (Except.ok.inj h)).2.symm
        · contradiction

/-- Written branches are read one after the other. -/
theorem readBranches_mark (pos : Nat) (lead : Blanks) (forms : List BranchForm) :
    readBranches pos (mark (lead.text ++ forms.flatMap BranchForm.text)) =
      .ok (BranchForm.placed (pos + lead.text.length) forms) := by
  induction forms generalizing pos lead with
  | nil =>
    rw [readBranches_eq, skipBlank_mark, lead.dropWhile_append (ends_flatMap _)]
    rfl
  | cons b forms ih =>
    have hne : (mark (b.text ++ forms.flatMap BranchForm.text)).isEmpty = false := by
      rw [← Marks.isEmpty_text, text_mark]
      simp [BranchForm.text]
    rw [readBranches_eq, skipBlank_mark, lead.dropWhile_append (ends_flatMap _),
      List.flatMap_cons, hne, readBranch_mark]
    have hfirst : pos + ((mark (lead.text ++ (b.text ++ forms.flatMap BranchForm.text))).length -
        (mark (b.text ++ forms.flatMap BranchForm.text)).length) = pos + lead.text.length := by
      rw [length_mark, length_mark, List.length_append]
      omega
    have hsecond : pos + ((mark (lead.text ++ (b.text ++ forms.flatMap BranchForm.text))).length -
        (mark (b.trail.text ++ forms.flatMap BranchForm.text)).length) + b.trail.text.length =
          pos + lead.text.length + b.text.length := by
      rw [length_mark, length_mark]
      simp only [List.length_append, BranchForm.text, List.length_cons]
      omega
    simp only [bind, Except.bind, ih, hfirst, hsecond]
    rfl

/-- What is read as branches is written as branches. -/
theorem exists_forms_of_readBranches {bs : List PlacedBranch}
    (h : readBranches pos (mark t) = .ok bs) :
    ∃ (lead : Blanks) (forms : List BranchForm),
      t = lead.text ++ forms.flatMap BranchForm.text := by
  generalize hms : mark t = ms at h
  fun_induction readBranches pos ms generalizing t bs with
  | case1 pos ms hblank =>
    refine ⟨Run.leading isBlank t, [], ?_⟩
    rw [← hms, skipBlank_mark, ← Marks.isEmpty_text, text_mark, List.isEmpty_iff] at hblank
    rw [List.flatMap_nil, ← hblank, Run.leading_append]
  | case2 pos ms hblank e hbranch => contradiction
  | case3 pos ms hblank b rest hbranch hshorter e hrest ih => contradiction
  | case4 pos ms hblank b rest hbranch hshorter bs hrest ih =>
    rw [← hms, skipBlank_mark] at hbranch
    obtain ⟨label, gap, body, t', hbody, htext, rfl⟩ := exists_form_of_readBranch hbranch
    obtain ⟨trail, forms, rfl⟩ := ih rfl hrest
    refine ⟨Run.leading isBlank t, ⟨label, gap, body, hbody, trail⟩ :: forms, ?_⟩
    -- the blanks behind a body are those that the next branch begins with
    refine (Run.leading_append isBlank t).symm.trans (congrArg (_ ++ ·) ?_)
    rw [htext]
    simp [BranchForm.text]

theorem branchList?_mark (pos : Nat) (l : ListForm) :
    branchList? pos (mark l.text) =
      some (BranchForm.placed (pos + l.lead.text.length) l.forms) := by
  rw [branchList?, ListForm.text, readBranches_mark]
  obtain ⟨lead, forms, hne⟩ := l
  cases forms with
  | nil => exact absurd rfl hne
  | cons b forms => rfl

/-- A text is read as a list of branches exactly if it is written as one. -/
theorem branchList?_mark_iff {bs : List PlacedBranch} :
    branchList? pos (mark t) = some bs ↔ ∃ l : ListForm, l.text = t ∧
      BranchForm.placed (pos + l.lead.text.length) l.forms = bs := by
  constructor
  · intro h
    rw [branchList?] at h
    split at h
    · next b rest hread =>
      obtain ⟨lead, forms, rfl⟩ := exists_forms_of_readBranches hread
      rw [readBranches_mark] at hread
      have hplaced := (Except.ok.inj hread).trans (Option.some.inj h)
      refine ⟨⟨lead, forms, ?_⟩, rfl, hplaced⟩
      rintro rfl
      cases hread
    · contradiction
  · rintro ⟨l, rfl, rfl⟩
    exact branchList?_mark pos l

end Branches

section Groups

variable {t : Text}

theorem spanWord_mark (t : Text) :
    spanWord (mark t) = (t.takeWhile isWord, mark (t.dropWhile isWord)) := by
  rw [spanWord, Marks.text_takeWhile, text_mark, dropWhile_mark]

/-- A written header is read, and what follows it is left. -/
theorem Header.read?_mark (o : Opening) (ht : FollowsKeyword t) :
    Header.read? (mark (o.text ++ t)) = some ⟨o.argument.text, o.keyword.text, mark t⟩ := by
  have hargument : o.argument.text.isEmpty = false :=
    List.isEmpty_eq_false_iff.2 o.argument.text_ne_nil
  have hkeyword : o.keyword.text.isEmpty = false :=
    List.isEmpty_eq_false_iff.2 o.keyword.text_ne_nil
  rw [Opening.text_append]
  simp only [Header.read?, skipBlank_mark, spanWord_mark, o.lead.dropWhile_append (ends_word _ _),
    o.argument.takeWhile_append (ends_argument _ _),
    o.argument.dropWhile_append (ends_argument _ _), o.gap.dropWhile_append ends_comma, mark_cons,
    o.beforeKeyword.dropWhile_append (ends_word _ _),
    o.keyword.takeWhile_append (ht.ends_keyword _),
    o.keyword.dropWhile_append (ht.ends_keyword _), o.trail.dropWhile_append ht.ends_blanks,
    hargument, hkeyword]
  rcases ht with rfl | ⟨rest, rfl⟩
  · rfl
  · simp [mark_cons]

/-- What is read as a header is written as one. -/
theorem exists_opening_of_read? {header : Header} (h : Header.read? (mark t) = some header) :
    ∃ (o : Opening) (t' : Text), t = o.text ++ t' ∧ FollowsKeyword t' := by
  simp only [Header.read?, skipBlank_mark, spanWord_mark] at h
  cases hcomma : ((t.dropWhile isBlank).dropWhile isWord).dropWhile isBlank with
  | nil =>
    rw [hcomma] at h
    cases h
  | cons c u =>
    simp only [hcomma, mark_cons, skipBlank_mark, spanWord_mark] at h
    split at h
    · contradiction
    · next hparts =>
      simp only [Bool.or_eq_true, not_or, List.isEmpty_iff, decide_eq_true_eq, not_not] at hparts
      obtain ⟨⟨hargument, rfl⟩, hkeyword⟩ := hparts
      let o : Opening := ⟨Run.leading isBlank t,
        ⟨Run.leading isWord (t.dropWhile isBlank), hargument⟩,
        Run.leading isBlank ((t.dropWhile isBlank).dropWhile isWord), Run.leading isBlank u,
        ⟨Run.leading isWord (u.dropWhile isBlank), hkeyword⟩,
        Run.leading isBlank ((u.dropWhile isBlank).dropWhile isWord)⟩
      refine ⟨o, ((u.dropWhile isBlank).dropWhile isWord).dropWhile isBlank, ?_, ?_⟩
      · rw [Opening.text_append, Run.leading_append, Run.leading_append, Run.leading_append,
          ← hcomma, Run.leading_append, Run.leading_append, Run.leading_append]
      · cases hrest : ((u.dropWhile isBlank).dropWhile isWord).dropWhile isBlank with
        | nil => exact .inl rfl
        | cons next rest =>
          simp only [hrest, mark_cons] at h
          obtain ⟨hnext, -⟩ := Option.ite_none_right_eq_some.1 h
          exact .inr ⟨rest, by rw [hnext]⟩

theorem contentOf?_mark (tail : Tail) :
    contentOf? tail.kind (mark tail.text) = some tail.content := by
  match tail with
  | .choice c list =>
    simp only [Tail.kind, Tail.text, mark_cons, contentOf?, branchList?_mark, Option.map_some,
      BranchForm.map_placed]
    rfl
  | .field f none => rfl
  | .field f (some style) =>
    simp only [Tail.kind, Tail.text, mark_cons, contentOf?, styleOf, List.drop_succ_cons,
      List.drop_zero, text_mark]
    rfl

/-- What is read behind a header is written as a tail. -/
theorem exists_tail_of_contentOf? {kind : Kind} {content : Content} (ht : FollowsKeyword t)
    (h : contentOf? kind (mark t) = some content) :
    ∃ tail : Tail, tail.text = t ∧ tail.kind = kind := by
  cases kind with
  | field f =>
    rcases ht with rfl | ⟨style, rfl⟩
    · exact ⟨.field f none, rfl, rfl⟩
    · exact ⟨.field f (some style), rfl, rfl⟩
  | choice c =>
    rcases ht with rfl | ⟨list, rfl⟩
    · cases h
    · rw [mark_cons, contentOf?, Option.map_eq_some_iff] at h
      obtain ⟨bs, hbs, -⟩ := h
      obtain ⟨l, rfl, -⟩ := branchList?_mark_iff.1 hbs
      exact ⟨.choice c l, rfl, rfl⟩

theorem ofInterior?_mark (form : Form) :
    ofInterior? (mark form.interior) = some (form.opening.argument.text, form.tail.content) := by
  rw [ofInterior?, Form.interior, Header.read?_mark form.opening form.tail.followsKeyword]
  simp only [Option.bind_eq_bind, Option.bind_some, Kind.ofKeyword?_eq_some_iff.2 form.keyword_eq,
    contentOf?_mark]
  rfl

/-- What is read as the inside of a construct is written as one. -/
theorem exists_form_of_ofInterior? {said : Text × Content} (h : ofInterior? (mark t) = some said) :
    ∃ form : Form, form.interior = t := by
  simp only [ofInterior?, Option.bind_eq_bind, Option.bind_eq_some_iff] at h
  obtain ⟨header, hheader, kind, hkind, content, hcontent, -⟩ := h
  obtain ⟨o, t', rfl, ht'⟩ := exists_opening_of_read? hheader
  rw [Header.read?_mark o ht'] at hheader
  obtain rfl := Option.some.inj hheader
  obtain ⟨tail, rfl, rfl⟩ := exists_tail_of_contentOf? ht' hcontent
  exact ⟨⟨o, tail, Kind.ofKeyword?_eq_some_iff.1 hkind⟩, rfl⟩

/-- The argument of a construct is a word. -/
theorem exists_word_of_ofInterior? {argument : Text} {content : Content}
    (h : ofInterior? (mark t) = some (argument, content)) :
    ∃ word : Word, argument = word.text := by
  obtain ⟨form, rfl⟩ := exists_form_of_ofInterior? h
  rw [ofInterior?_mark] at h
  cases h
  exact ⟨form.opening.argument, rfl⟩

end Groups

section Whole

variable {source : Text} {start : Nat}

/-- A written form is read as its construct. -/
theorem ofGroup?_form (form : Form) (start : Nat) :
    ofGroup? start (mark form.text) = some (form.construct start) := by
  have hlength : form.text.length = form.interior.length + 2 := by
    simp [Form.text]
  rw [Form.text, ofGroup?_braces, ofInterior?_take_mark, ofInterior?_mark, ← Form.text, ← hlength]
  rfl

/-- What is read as a construct is written as one. -/
theorem exists_form_of_ofGroup? {c : Construct} (h : ofGroup? start (mark source) = some c) :
    ∃ form : Form, form.text = source := by
  simp only [ofGroup?, Option.bind_eq_bind, Option.bind_eq_some_iff] at h
  obtain ⟨inner, hinner, said, hsaid, -⟩ := h
  obtain ⟨body, rfl, rfl⟩ := exists_body_of_interior? hinner
  rw [ofInterior?_take_mark] at hsaid
  obtain ⟨form, rfl⟩ := exists_form_of_ofInterior? hsaid
  exact ⟨form, rfl⟩

theorem ofGroup?_eq_some_iff {c : Construct} :
    ofGroup? start (mark source) = some c ↔
      ∃ form : Form, form.text = source ∧ form.construct start = c := by
  constructor
  · intro h
    obtain ⟨form, rfl⟩ := exists_form_of_ofGroup? h
    rw [ofGroup?_form] at h
    exact ⟨form, rfl, Option.some.inj h⟩
  · rintro ⟨form, rfl, rfl⟩
    exact ofGroup?_form form start

theorem parseBranches?_eq_some_iff {bs : List Branch} :
    parseBranches? source = some bs ↔ ∃ l : ListForm, l.text = source ∧ l.branches = bs := by
  rw [parseBranches?, Option.map_eq_some_iff]
  constructor
  · rintro ⟨placed, hplaced, rfl⟩
    obtain ⟨l, rfl, rfl⟩ := branchList?_mark_iff.1 hplaced
    exact ⟨l, rfl, (BranchForm.map_placed _ _).symm⟩
  · rintro ⟨l, rfl, rfl⟩
    exact ⟨_, branchList?_mark 0 l, BranchForm.map_placed _ _⟩

/-- Reading a text as a construct at a position never fails. It finds a construct exactly if the
text is written as one, and the construct is the one that is written; a text is written as a
construct in one way at most. The same holds of lists of branches. -/
theorem parse?_iff_written :
    (∀ (source : Text) (start : Nat), ∃ c?, parse? source start = .ok c? ∧
      ∀ c, c? = some c ↔ ∃ form : Form, form.text = source ∧ form.construct start = c) ∧
    Function.Injective Form.text ∧
    (∀ (source : Text) (bs : List Branch), parseBranches? source = some bs ↔
      ∃ l : ListForm, l.text = source ∧ l.branches = bs) ∧
    Function.Injective ListForm.text := by
  refine ⟨fun source start => ?_, Form.text_injective, fun _ _ => parseBranches?_eq_some_iff,
    ListForm.text_injective⟩
  exact ⟨_, parse?_eq_ofGroup? source start, fun c => ofGroup?_eq_some_iff⟩

end Whole

end Parlance.Construct
