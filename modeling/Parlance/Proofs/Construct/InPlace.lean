import Parlance.Placeholder.Kinds
import Parlance.Proofs.Construct.Range
/-!
An index that is asked one question after the other. What it remembers is what reading again would
give (Index.Faithful), and every question keeps it so (Index.Faithful.after). Its answers about a
part of the pattern are therefore those of the part alone, whatever it was asked before
(Index.ask_in_place).
-/

namespace Parlance.Construct

open Brace

namespace Index

/-- The index has the marks of a pattern, and what it remembers is what reading gives. -/
structure Faithful (ms : Marks) (index : Index) : Prop where
  marks_eq : index.marks = ms
  last_eq : ∀ r ∈ index.last, contentBetween ms r.start r.stop = .ok r.said

theorem faithful_ofPattern (pattern : Text) : Faithful (mark pattern) (ofPattern pattern) := by
  refine ⟨rfl, ?_⟩
  rintro r ⟨⟩

/-- Every index of a pattern gives the same answer to a question, and it remains an index of the
pattern. -/
def Answers (ms : Marks) (question : Ask ε α) (answer : Except ε α) : Prop :=
  ∀ index : Index, index.Faithful ms →
    (index.ask question).1 = answer ∧ (index.ask question).2.Faithful ms

section Answers

variable {ms : Marks} {ε α β : Type}

theorem answers_pure (a : α) : Answers ms (pure a : Ask ε α) (.ok a) :=
  fun _ hindex => ⟨rfl, hindex⟩

/-- The second question goes to the index that the first one left, unless that had an error. -/
theorem ask_bind (index : Index) (question : Ask ε α) (next : α → Ask ε β) :
    index.ask (question >>= next) =
      match index.ask question with
      | (.ok a, after) => after.ask (next a)
      | (.error e, after) => (.error e, after) := by
  rw [ask, ask, ExceptT.run_bind, StateT.run_bind]
  generalize question.run.run index = given
  obtain ⟨given | given, after⟩ := given <;> rfl

theorem answers_bind_ok {question : Ask ε α} {next : α → Ask ε β} {a : α} {answer : Except ε β}
    (h : Answers ms question (.ok a)) (hnext : Answers ms (next a) answer) :
    Answers ms (question >>= next) answer := by
  intro index hindex
  obtain ⟨hanswer, hafter⟩ := h index hindex
  rw [ask_bind, ← Prod.eta (index.ask question), hanswer]
  exact hnext _ hafter

theorem answers_bind_error {question : Ask ε α} {next : α → Ask ε β} {e : ε}
    (h : Answers ms question (.error e)) : Answers ms (question >>= next) (.error e) := by
  intro index hindex
  obtain ⟨hanswer, hafter⟩ := h index hindex
  rw [ask_bind, ← Prod.eta (index.ask question), hanswer]
  exact ⟨rfl, hafter⟩

theorem answers_bind {question : Ask ε α} {answer : Except ε α} {next : α → Ask ε β}
    {nextAnswer : α → Except ε β} (h : Answers ms question answer)
    (hnext : ∀ a, Answers ms (next a) (nextAnswer a)) :
    Answers ms (question >>= next) (answer >>= nextAnswer) := by
  cases answer with
  | error e => exact answers_bind_error h
  | ok a => exact answers_bind_ok h (hnext a)

theorem answers_map (f : α → β) {question : Ask ε α} {answer : Except ε α}
    (h : Answers ms question answer) :
    Answers ms (do return f (← question)) (answer.map f) := by
  have hmap := answers_bind h fun a => answers_pure (f a)
  cases answer <;> exact hmap

theorem ask_look (index : Index) (answer : Marks → Except ε α) :
    index.ask (look answer) = (answer index.marks, index) := by
  change index.ask (ofExcept (answer index.marks)) = _
  cases answer index.marks <;> rfl

theorem answers_look (answer : Marks → Except ε α) : Answers ms (look answer) (answer ms) := by
  intro index hindex
  rw [ask_look, hindex.marks_eq]
  exact ⟨rfl, hindex⟩

theorem answers_adapt {δ : Type} (convert : ε → δ) {question : Ask ε α} {answer : Except ε α}
    (h : Answers ms question answer) :
    Answers ms (question.adapt convert) (answer.mapError convert) := by
  intro index hindex
  obtain ⟨hanswer, hafter⟩ := h index hindex
  have hadapt : index.ask (question.adapt convert) =
      ((index.ask question).1.mapError convert, (index.ask question).2) := by
    rfl
  rw [hadapt, hanswer]
  exact ⟨rfl, hafter⟩

theorem Faithful.contentBetween_of_remembered? {index : Index} (hindex : Faithful ms index)
    {start stop : Int} {said : Option (Text × Content)}
    (h : index.remembered? start stop = some said) : contentBetween ms start stop = .ok said := by
  simp only [remembered?, Option.bind_eq_some_iff, Option.ite_none_right_eq_some,
    Option.some.injEq] at h
  obtain ⟨r, hr, ⟨rfl, rfl⟩, rfl⟩ := h
  exact hindex.last_eq r hr

/-- What is remembered is what reading again would give. -/
theorem answers_content (start stop : Int) :
    Answers ms (content start stop) (contentBetween ms start stop) := by
  intro index hindex
  have hget : index.ask (get : Ask RangeError Index) = (.ok index, index) := rfl
  rw [content, ask_bind, hget]
  simp only
  cases hremembered : index.remembered? start stop with
  | some said => exact ⟨(hindex.contentBetween_of_remembered? hremembered).symm, hindex⟩
  | none =>
    simp only [ask_bind, ask_look, hindex.marks_eq]
    cases hread : contentBetween ms start stop with
    | error e => exact ⟨rfl, hindex⟩
    | ok said =>
      refine ⟨rfl, hindex.marks_eq, ?_⟩
      rintro r ⟨⟩
      exact hread

theorem answers_kind (start stop : Int) :
    Answers ms (kind start stop) ((contentBetween ms start stop).map (·.map (·.2.kind))) :=
  answers_map _ (answers_content start stop)

theorem answers_construct (start stop offset : Int) :
    Answers ms (construct start stop offset) (do
      match ← (contentBetween ms start stop).mapError PlaceError.range with
      | none => return none
      | some said => return some (← (placed ms start stop offset said).mapError .span)) := by
  refine answers_bind (answers_adapt _ (answers_content start stop)) fun said => ?_
  cases said with
  | none => exact answers_pure none
  | some said => exact answers_bind (answers_look _) fun c => answers_pure (some c)

theorem answers_findM? {p : α → Ask ε Bool} {accepts : α → Except ε Bool}
    (h : ∀ a, Answers ms (p a) (accepts a)) (l : List α) :
    Answers ms (l.findM? p) (l.findM? accepts) := by
  induction l with
  | nil => exact answers_pure none
  | cons a l ih =>
    rw [List.findM?, List.findM?]
    refine answers_bind (h a) fun accepted => ?_
    cases accepted with
    | true => exact answers_pure (some a)
    | false => exact ih

end Answers

section Kinds

open Placeholder

variable {ms : Marks}

/-- What a kind says of the text between two places, read again. -/
def acceptsBetween (ms : Marks) (start stop : Int) (k : Placeholder.Kind) :
    Except RangeError Bool :=
  match k.rule with
  | .construct kind =>
    (contentBetween ms start stop).map fun said => decide (said.map (·.2.kind) = some kind)
  | .spelled accepts => .ok (start.toNat ≤ stop.toNat && accepts (ms.range start stop).text)
  | .nothing => .ok false

theorem answers_acceptsAt (start stop : Int) (k : Placeholder.Kind) :
    Answers ms (k.acceptsAt start stop) (acceptsBetween ms start stop k) := by
  rw [Placeholder.Kind.acceptsAt, acceptsBetween]
  cases k.rule with
  | construct kind =>
    have hkind : Answers ms (do return decide ((← Index.kind start stop) = some kind)) _ :=
      answers_map _ (answers_kind start stop)
    cases hread : contentBetween ms start stop with
    | error e => rw [hread] at hkind; exact hkind
    | ok said => rw [hread] at hkind; exact hkind
  | spelled accepts => exact answers_look _
  | nothing => exact answers_pure false

theorem answers_matchAt (kinds : Kinds) (start stop : Int) :
    Answers ms (kinds.matchAt start stop)
      (kinds.inOrder.findM? (acceptsBetween ms start stop)) :=
  answers_findM? (answers_acceptsAt start stop) _

variable {before cut after : Text} {start stop : Int}

theorem acceptsBetween_cut (hstart : start = before.length)
    (hstop : stop = (before.length + cut.length : Nat)) (k : Placeholder.Kind) :
    acceptsBetween (mark (before ++ (cut ++ after))) start stop k =
      .ok (k.accepts (.ofMarks (mark cut))) := by
  rw [acceptsBetween, Placeholder.Kind.accepts, Group.ofMarks]
  cases k.rule with
  | construct kind =>
    simp only [contentBetween_cut hstart hstop, ofGroup?_eq, Option.map_map]
    rfl
  | spelled accepts =>
    have horder : start.toNat ≤ stop.toNat := by omega
    simp only [text_range_cut hstart hstop, horder, decide_true, Bool.true_and, text_mark]
  | nothing => rfl

end Kinds

/-- What an index can be asked. -/
inductive Question where
  | endOf (place : Int)
  | nextGroup (place : Int)
  | kind (start stop : Int)
  | construct (start stop offset : Int)
  | looksLike (start stop : Int)
  | branches (start stop : Int)
  | matching (kinds : Placeholder.Kinds) (start stop : Int)

/-- The index after a question. -/
def after (index : Index) : Question → Index
  | .endOf place => (index.ask (endOf place)).2
  | .nextGroup place => (index.ask (nextGroup place)).2
  | .kind start stop => (index.ask (kind start stop)).2
  | .construct start stop offset => (index.ask (construct start stop offset)).2
  | .looksLike start stop => (index.ask (looksLike start stop)).2
  | .branches start stop => (index.ask (branches start stop)).2
  | .matching kinds start stop => (index.ask (kinds.matchAt start stop)).2

variable {ms : Marks} {index : Index}

theorem Faithful.after (h : index.Faithful ms) (question : Question) :
    (index.after question).Faithful ms := by
  cases question with
  | endOf place => exact (answers_look _ index h).2
  | nextGroup place => exact (answers_look _ index h).2
  | kind start stop => exact (answers_kind start stop index h).2
  | construct start stop offset => exact (answers_construct start stop offset index h).2
  | looksLike start stop => exact (answers_look _ index h).2
  | branches start stop => exact (answers_look _ index h).2
  | matching kinds start stop => exact (answers_matchAt kinds start stop index h).2

theorem Faithful.foldl_after (h : index.Faithful ms) (questions : List Question) :
    (questions.foldl Index.after index).Faithful ms := by
  induction questions generalizing index with
  | nil => exact h
  | cons question questions ih => exact ih (h.after question)

/-- An index says of a part of its pattern what the part alone is. No answer is an error. -/
structure ReadsAlone (index : Index) (start stop : Nat) (cut : Text) : Prop where
  construct : ∃ c?, (index.ask (construct start stop 0)).1 = .ok c? ∧ parse? cut start = .ok c?
  kind : ∃ kind?, (index.ask (kind start stop)).1 = .ok kind? ∧
    ((ofPattern cut).ask (Index.kind 0 cut.length)).1 = .ok kind?
  looksLike : ∃ answer, (index.ask (looksLike start stop)).1 = .ok answer ∧
    ((ofPattern cut).ask (Index.looksLike 0 cut.length)).1 = .ok answer
  branches : ∃ bs?, (index.ask (branches start stop)).1 = .ok (bs?.map (List.map (·.shift start))) ∧
    ((ofPattern cut).ask (Index.branches 0 cut.length)).1 = .ok bs?
  matchAt : ∀ kinds : Placeholder.Kinds, ∃ kind?,
    (index.ask (kinds.matchAt start stop)).1 = .ok kind? ∧
      ((ofPattern cut).ask (kinds.matchAt 0 cut.length)).1 = .ok kind? ∧
      kinds.ofGroup? (.ofMarks (mark cut)) = kind?

section Cut

variable {before cut after : Text} {start stop : Int}

theorem placed_cut (hstart : start = before.length)
    (hstop : stop = (before.length + cut.length : Nat)) (said : Text × Content) :
    placed (mark (before ++ (cut ++ after))) start stop 0 said =
      .ok ⟨said.1, said.2, cut, Span.ofLength before.length cut.length⟩ := by
  have hplace : placeIn (mark (before ++ (cut ++ after))) start = start := if_neg (by omega)
  have hbounds : Span.ofBounds (start + 0) (stop + 0) =
      .ok (Span.ofLength before.length cut.length) := by
    rw [hstart, hstop, Span.ofBounds, dif_pos (by omega)]
    rfl
  rw [placed, hplace, text_range_cut hstart hstop, hbounds]
  rfl

variable (h : index.Faithful (mark (before ++ (cut ++ after)))) (hstart : start = before.length)
  (hstop : stop = (before.length + cut.length : Nat))

include h hstart hstop

theorem ask_construct_cut :
    (index.ask (construct start stop 0)).1 = .ok (ofGroup? before.length (mark cut)) := by
  rw [(answers_construct start stop 0 index h).1, contentBetween_cut hstart hstop, ofGroup?_eq,
    text_mark, length_mark]
  cases (interior? (mark cut)).bind ofInterior? with
  | none => rfl
  | some said =>
    change (do
      let c ← (placed (mark (before ++ (cut ++ after))) start stop 0 said).mapError PlaceError.span
      return some c) = _
    rw [placed_cut hstart hstop]
    rfl

theorem ask_kind_cut :
    (index.ask (kind start stop)).1 =
      .ok (((interior? (mark cut)).bind ofInterior?).map (·.2.kind)) := by
  rw [(answers_kind start stop index h).1, contentBetween_cut hstart hstop]
  rfl

theorem ask_looksLike_cut :
    (index.ask (looksLike start stop)).1 = .ok (resembles (mark (cut.drop 1).dropLast)) := by
  rw [looksLike, (answers_look _ index h).1, looksLike_cut hstart hstop]

theorem ask_branches_cut :
    (index.ask (branches start stop)).1 = .ok (branchList? before.length (mark cut)) := by
  rw [branches, (answers_look _ index h).1, branchesBetween_cut hstart hstop]

theorem ask_matchAt_cut (kinds : Placeholder.Kinds) :
    (index.ask (kinds.matchAt start stop)).1 = .ok (kinds.ofGroup? (.ofMarks (mark cut))) := by
  rw [(answers_matchAt kinds start stop index h).1, funext (acceptsBetween_cut hstart hstop)]
  exact List.findM?_pure _ _

end Cut

/-- A part that is cut out is the part of its own pattern from the start to the end. -/
theorem faithful_alone (cut : Text) : (ofPattern cut).Faithful (mark ([] ++ (cut ++ []))) := by
  rw [List.nil_append, List.append_nil]
  exact faithful_ofPattern cut

theorem readsAlone_of_faithful {before cut after : Text}
    (h : index.Faithful (mark (before ++ (cut ++ after)))) :
    index.ReadsAlone before.length (before.length + cut.length) cut where
  construct := ⟨_, ask_construct_cut h rfl rfl, parse?_eq_ofGroup? cut before.length⟩
  kind := ⟨_, ask_kind_cut h rfl rfl, ask_kind_cut (faithful_alone cut) rfl (by simp)⟩
  looksLike :=
    ⟨_, ask_looksLike_cut h rfl rfl, ask_looksLike_cut (faithful_alone cut) rfl (by simp)⟩
  branches := by
    refine ⟨_, ?_, ask_branches_cut (faithful_alone cut) rfl (by simp)⟩
    rw [ask_branches_cut h rfl rfl, branchList?_shift]
    rfl
  matchAt := fun kinds => ⟨_, ask_matchAt_cut h rfl rfl kinds,
    ask_matchAt_cut (faithful_alone cut) rfl (by simp) kinds, rfl⟩

/-- Whatever an index was asked before, it says of a part of its pattern what the part alone is. -/
theorem ask_in_place {pattern : Text} {start stop : Nat} (hstart : start ≤ stop)
    (hstop : stop ≤ pattern.length) (earlier : List Question) :
    (earlier.foldl Index.after (ofPattern pattern)).ReadsAlone start stop
      ((pattern.drop start).take (stop - start)) := by
  have hsplit : pattern.take start ++
      ((pattern.drop start).take (stop - start) ++ pattern.drop stop) = pattern := by
    have hrest : pattern.drop stop = (pattern.drop start).drop (stop - start) := by
      rw [List.drop_drop, Nat.add_sub_cancel' hstart]
    rw [hrest, List.take_append_drop, List.take_append_drop]
  have hbefore : (pattern.take start).length = start := by
    rw [List.length_take]
    omega
  have hcut : ((pattern.drop start).take (stop - start)).length = stop - start := by
    rw [List.length_take, List.length_drop]
    omega
  have hfaithful := (faithful_ofPattern pattern).foldl_after earlier
  rw [← hsplit] at hfaithful
  have hreads := readsAlone_of_faithful hfaithful
  rwa [hbefore, hcut, Nat.add_sub_cancel' hstart, hsplit] at hreads

/-- The outer brace has its group beyond the end of the part, and that group was asked for
before. -/
theorem ask_in_place_crossing :
    let pattern := "{n, plural, other{x}}".toList
    (0 ≤ 20 ∧ 20 ≤ pattern.length) ∧
      ([Question.kind 0 21].foldl Index.after (ofPattern pattern)).ReadsAlone 0 20
        ((pattern.drop 0).take (20 - 0)) :=
  ⟨by decide, ask_in_place (by decide) (by decide) _⟩

end Index

end Parlance.Construct
