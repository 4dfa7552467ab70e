import Parlance.Proofs.Construct.InPlace
import Parlance.Proofs.Protection.Offers
/-!
Protection as a walk from group to group (Walks). One index of the text is asked for the next group
and for the kind that it is of. The walk goes on behind a placeholder, and inside a group that no
kind accepts. It comes to an end, and its pieces are those of the scan (walks_iff).
-/

namespace Parlance

open Brace Placeholder

namespace Brace

section Next

variable (pos : Nat)

namespace Marks

theorem nextFrom_nil : nextFrom pos (mark []) = none := by rw [mark_nil, nextFrom]

theorem nextFrom_escape (t : Text) :
    nextFrom pos (mark ('{' :: '{' :: t)) = nextFrom (pos + 2) (mark t) := by
  rw [mark_open, mark_open, nextFrom, if_pos rfl, if_pos (by simp [startsEscape])]
  rfl

theorem nextFrom_other {c : Char} (hc : c ≠ '{') (t : Text) :
    nextFrom pos (mark (c :: t)) = nextFrom (pos + 1) (mark t) := by
  rw [mark_cons, nextFrom, if_neg hc]

theorem nextFrom_open {t : Text} (ht : t.head? ≠ some '{') :
    nextFrom pos (mark ('{' :: t)) =
      match close? ('{' :: t) 0 with
      | some n => some (pos, pos + n)
      | none => nextFrom (pos + 1) (mark t) := by
  have hesc := Piece.startsEscape_mark_open ht
  rw [mark_open] at hesc
  rw [mark_open, nextFrom, if_pos rfl]
  exact if_neg (by simp [hesc])

end Marks

namespace Piece

variable {α : Type u} (find : Nat → Marks → Option (α × Nat))

/-- There is no group in the text, and nothing is found. -/
structure Last (pos : Nat) (t : Text) : Prop where
  nextFrom_eq : Marks.nextFrom pos (mark t) = none
  cut_eq : cut find pos (mark t) = lead t []

/-- Up to the next group of a text nothing is found. -/
structure Next (pos : Nat) (t before body rest : Text) : Prop where
  text_eq : t = before ++ ('{' :: (body ++ ['}']) ++ rest)
  head?_body : body.head? ≠ some '{'
  closes : close? ('{' :: (body ++ ['}'])) 0 = some (body.length + 2)
  nextFrom_eq : Marks.nextFrom pos (mark t) =
    some (pos + before.length, pos + before.length + (body.length + 2))
  cut_eq : cut find pos (mark t) =
    lead before (cut find (pos + before.length) (mark ('{' :: (body ++ ['}']) ++ rest)))

variable {find} {pos}

theorem Next.after {t before body rest : Text} {w : Text} (hw : w ≠ [])
    (h : Next find (pos + w.length) t before body rest)
    (hnext : Marks.nextFrom pos (mark (w ++ t)) = Marks.nextFrom (pos + w.length) (mark t))
    (hcut : cut find pos (mark (w ++ t)) = prepend w (cut find (pos + w.length) (mark t))) :
    Next find pos (w ++ t) (w ++ before) body rest where
  text_eq := by rw [h.text_eq, List.append_assoc]
  head?_body := h.head?_body
  closes := h.closes
  nextFrom_eq := by rw [hnext, h.nextFrom_eq, List.length_append, Nat.add_assoc pos]
  cut_eq := by
    rw [hcut, h.cut_eq, ← lead_of_ne_nil hw, lead_lead, List.length_append, Nat.add_assoc pos]

/-- Where characters are passed over, the next group is that of what follows them. -/
theorem next_or_append {w t : Text} (hw : w ≠ [])
    (hnext : Marks.nextFrom pos (mark (w ++ t)) = Marks.nextFrom (pos + w.length) (mark t))
    (hcut : cut find pos (mark (w ++ t)) = prepend w (cut find (pos + w.length) (mark t)))
    (ih : Last find (pos + w.length) t ∨ ∃ before body rest,
      Next find (pos + w.length) t before body rest) :
    Last find pos (w ++ t) ∨ ∃ before body rest, Next find pos (w ++ t) before body rest := by
  rcases ih with ⟨hnone, hlit⟩ | ⟨before, body, rest, h⟩
  · refine .inl ⟨hnext.trans hnone, ?_⟩
    rw [hcut, hlit, ← lead_of_ne_nil hw, lead_lead]
  · exact .inr ⟨w ++ before, body, rest, h.after hw hnext hcut⟩

/-- A find that takes nothing but groups passes over everything up to the next group. -/
theorem next_or (hopen : ∀ pos t, close? ('{' :: t) 0 = none → find pos (mark ('{' :: t)) = none)
    (t : Text) : Last find pos t ∨ ∃ before body rest, Next find pos t before body rest := by
  have hexact : Exact (fun _ _ => (none : Option (Empty × Nat))) fun _ => [] :=
    fun _ _ _ _ h => nomatch h
  induction pos, t using scan_induction hexact with
  | nil pos => exact .inl ⟨Marks.nextFrom_nil pos, cut_mark_nil find pos⟩
  | escape pos t ih =>
    exact next_or_append (w := ['{', '{']) (by simp) (Marks.nextFrom_escape pos t)
      (cut_escape find pos t) ih
  | found pos u rest a => exact a.elim
  | bare pos t ht _ ih =>
    have hnext := Marks.nextFrom_open pos ht
    cases hclose : close? ('{' :: t) 0 with
    | none =>
      rw [hclose] at hnext
      exact next_or_append (w := ['{']) (by simp) hnext
        (cut_bare find pos ht (hopen pos t hclose)) ih
    | some n =>
      -- the group starts here
      obtain ⟨body, rest, rfl, rfl⟩ := closing_of_close? hclose
      rw [hclose] at hnext
      refine .inr ⟨[], body, rest, ?_, ?_, (close?_group_append_iff rest).1 hclose, hnext, ?_⟩
      · simp
      · cases body with
        | nil => simp
        | cons c body => exact ht
      · rw [List.cons_append, List.append_assoc]
        rfl
  | other pos c t hc ih =>
    exact next_or_append (w := [c]) (by simp) (Marks.nextFrom_other pos hc t)
      (cut_other find pos hc t) ih

end Piece

end Next

end Brace

namespace Protection

open Construct (Index)

variable (kinds : Kinds)

section Walks

/-- The part of a text between two positions. -/
def part (t : Text) (start stop : Nat) : Text := (t.drop start).take (stop - start)

/-- From an index of the text on, with everything from one position to another one passed over, a
walk gives these pieces. -/
inductive Walks (t : Text) : Index → Nat → Nat → List (Piece Placed) → Prop
  | done {index after : Index} {textStart pos : Nat}
      (hnext : index.ask (Index.nextGroup pos) = (.ok none, after)) :
      Walks t index textStart pos (Piece.lead (t.drop textStart) [])
  | passed {index seen after : Index} {textStart pos start stop : Nat}
      {pieces : List (Piece Placed)}
      (hnext : index.ask (Index.nextGroup pos) = (.ok (some (start, stop)), seen))
      (hkind : seen.ask (kinds.matchAt start stop) = (.ok none, after))
      (h : Walks t after textStart (start + 1) pieces) : Walks t index textStart pos pieces
  | taken {index seen after : Index} {textStart pos start stop : Nat} {kind : Kind}
      {pieces : List (Piece Placed)}
      (hnext : index.ask (Index.nextGroup pos) = (.ok (some (start, stop)), seen))
      (hkind : seen.ask (kinds.matchAt start stop) = (.ok (some kind), after))
      (h : Walks t after stop stop pieces) :
      Walks t index textStart pos
        (Piece.lead (part t textStart start) (.found ⟨part t start stop, kind⟩ :: pieces))

end Walks

theorem find_eq_none_of_close? (t : Text) (h : close? ('{' :: t) 0 = none) :
    find kinds (mark ('{' :: t)) = none := by
  rw [find_mark_open, h, Option.bind_none]

section Groups

variable {body : Text} (h : close? ('{' :: (body ++ ['}'])) 0 = some (body.length + 2))
  (rest : Text)

include h

/-- A group is the same to the kinds wherever it stands. -/
theorem groupAt_append :
    groupAt ('{' :: (body ++ ['}']) ++ rest) (body.length + 2) =
      Group.ofMarks (mark ('{' :: (body ++ ['}']))) := by
  have hclosed : Closed ('{' :: (body ++ ['}'])) :=
    closed_cons.2 ⟨fun _ => Option.isSome_iff_exists.2 ⟨_, h⟩, closed_of_close? h⟩
  have hlength : (mark ('{' :: (body ++ ['}']))).length = body.length + 2 := by
    simp [length_mark]
  rw [groupAt, mark_append hclosed, ← hlength, List.take_left]

theorem find_group :
    find kinds (mark ('{' :: (body ++ '}' :: rest))) =
      (kinds.ofGroup? (.ofMarks (mark ('{' :: (body ++ ['}']))))).map fun kind =>
        (⟨'{' :: (body ++ ['}']), kind⟩, body.length + 2) := by
  have hsplit : '{' :: (body ++ ['}']) ++ rest = '{' :: (body ++ '}' :: rest) := by
    simp
  rw [find_mark_open, (close?_group_append_iff rest).2 h, Option.bind_some, take_group,
    ← groupAt_append h rest, hsplit]

end Groups

section Steps

variable {t : Text} {index : Index} {before body rest : Text}

theorem ask_nextGroup (ht : before ++ rest = t) (h : index.Faithful (mark t)) :
    index.ask (Index.nextGroup before.length) =
      (.ok (Marks.nextFrom before.length (mark rest)), index) := by
  have hplace : (placeIn (mark t) before.length).toNat = before.length := by
    rw [placeIn, if_neg (by omega), Int.toNat_natCast]
  rw [Index.nextGroup, Index.ask_look, h.marks_eq, Marks.nextGroupAt?, hplace, Marks.nextGroup?,
    mark_drop, ← ht, List.drop_left]

/-- Wherever a group stands, the kinds say of it what they say of the group alone. -/
theorem ask_matchAt_group (ht : before ++ ('{' :: (body ++ ['}']) ++ rest) = t)
    (h : index.Faithful (mark t)) :
    ∃ after : Index, after.Faithful (mark t) ∧
      index.ask (kinds.matchAt before.length (before.length + (body.length + 2) : Nat)) =
        (.ok (kinds.ofGroup? (.ofMarks (mark ('{' :: (body ++ ['}']))))), after) := by
  subst ht
  have hkind := Index.ask_matchAt_cut h rfl (by rw [length_group]) kinds
  exact ⟨_, (Index.answers_matchAt kinds _ _ index h).2, Prod.ext hkind rfl⟩

theorem part_eq {cut : Text} (ht : before ++ cut ++ rest = t) :
    part t before.length (before ++ cut).length = cut := by
  rw [part, ← ht, List.append_assoc, List.drop_left, List.length_append, Nat.add_sub_cancel_left,
    List.take_left]

section AtGroup

variable {shown front : Text} {pos : Nat} {after : Index} (hbody : body.head? ≠ some '{')
  (hcloses : close? ('{' :: (body ++ ['}'])) 0 = some (body.length + 2))
  (hnext : index.ask (Index.nextGroup pos) =
    (.ok (some ((shown ++ front).length, (shown ++ front).length + (body.length + 2))), index))

include hbody hcloses hnext

/-- Where no kind accepts the group, the walk goes on inside. -/
theorem walks_passed (hsaid : kinds.ofGroup? (.ofMarks (mark ('{' :: (body ++ ['}'])))) = none)
    (hkind : index.ask (kinds.matchAt (shown ++ front).length
      ((shown ++ front).length + (body.length + 2) : Nat)) = (.ok none, after))
    (hinside : Walks kinds t after shown.length (shown ++ (front ++ ['{'])).length
      (Piece.lead (front ++ ['{']) (Piece.cut (fun _ => find kinds)
        (shown ++ (front ++ ['{'])).length (mark (body ++ ['}'] ++ rest))))) :
    Walks kinds t index shown.length pos (Piece.lead front (Piece.cut (fun _ => find kinds)
      (shown ++ front).length (mark ('{' :: (body ++ ['}']) ++ rest)))) := by
  have hfind := find_group kinds hcloses rest
  rw [hsaid, List.append_cons] at hfind
  have hhead : (body ++ ['}'] ++ rest).head? ≠ some '{' := by
    cases body with
    | nil => simp
    | cons c body => exact hbody
  have hstart : (shown ++ (front ++ ['{'])).length = (shown ++ front).length + 1 := by
    rw [← List.append_assoc, List.length_append, List.length_singleton]
  rw [hstart, ← Piece.lead_lead] at hinside
  rw [List.cons_append, Piece.cut_bare _ _ hhead hfind]
  exact .passed hnext hkind hinside

/-- Where a kind accepts the group, what was passed over comes first, then the placeholder, and the
walk goes on behind it. -/
theorem walks_taken (ht : shown ++ front ++ '{' :: (body ++ ['}']) ++ rest = t) {kind : Kind}
    (hsaid : kinds.ofGroup? (.ofMarks (mark ('{' :: (body ++ ['}'])))) = some kind)
    (hkind : index.ask (kinds.matchAt (shown ++ front).length
      ((shown ++ front).length + (body.length + 2) : Nat)) = (.ok (some kind), after))
    (hbehind : Walks kinds t after (shown ++ front ++ '{' :: (body ++ ['}'])).length
      (shown ++ front ++ '{' :: (body ++ ['}'])).length (Piece.lead [] (Piece.cut
        (fun _ => find kinds) (shown ++ front ++ '{' :: (body ++ ['}'])).length (mark rest)))) :
    Walks kinds t index shown.length pos (Piece.lead front (Piece.cut (fun _ => find kinds)
      (shown ++ front).length (mark ('{' :: (body ++ ['}']) ++ rest)))) := by
  have hfind := find_group kinds hcloses rest
  rw [hsaid] at hfind
  have hstop : (shown ++ front ++ '{' :: (body ++ ['}'])).length =
      (shown ++ front).length + (body.length + 2) := by
    rw [List.length_append, length_group]
  have hgroup : shown ++ front ++ ('{' :: (body ++ ['}']) ++ rest) = t := by
    rw [← ht, List.append_assoc _ _ rest]
  have hfront : part t shown.length (shown ++ front).length = front := part_eq hgroup
  have hsource := part_eq ht
  rw [hstop] at hbehind hsource
  have htaken : Walks kinds t index shown.length pos
      (Piece.lead (part t shown.length (shown ++ front).length) _) := .taken hnext hkind hbehind
  rw [hfront, hsource] at htaken
  rw [Piece.cut_group _ _ hbody rest hfind]
  exact htaken

/-- At a group the walk goes on behind it or inside, as the kinds say. -/
theorem walks_group (ht : shown ++ front ++ ('{' :: (body ++ ['}']) ++ rest) = t)
    (hindex : index.Faithful (mark t))
    (hlater : ∀ (later shown passed : Text) (after : Index),
      later.length < ('{' :: (body ++ ['}']) ++ rest).length → shown ++ passed ++ later = t →
      after.Faithful (mark t) →
      Walks kinds t after shown.length (shown ++ passed).length (Piece.lead passed
        (Piece.cut (fun _ => find kinds) (shown ++ passed).length (mark later)))) :
    Walks kinds t index shown.length pos (Piece.lead front (Piece.cut (fun _ => find kinds)
      (shown ++ front).length (mark ('{' :: (body ++ ['}']) ++ rest)))) := by
  obtain ⟨after, hafter, hkind⟩ := ask_matchAt_group kinds ht hindex
  cases hsaid : kinds.ofGroup? (.ofMarks (mark ('{' :: (body ++ ['}'])))) with
  | none =>
    rw [hsaid] at hkind
    apply walks_passed kinds hbody hcloses hnext hsaid hkind
    exact hlater _ shown (front ++ ['{']) after (Nat.lt_succ_self _) (by simp [← ht]) hafter
  | some kind =>
    rw [hsaid] at hkind
    have hsplit : shown ++ front ++ '{' :: (body ++ ['}']) ++ rest = t := by
      rw [← ht, List.append_assoc _ _ rest]
    apply walks_taken kinds hbody hcloses hnext hsplit hsaid hkind
    have hbehind := hlater rest (shown ++ front ++ '{' :: (body ++ ['}'])) [] after
      (by rw [List.length_append, length_group]; omega) (by rw [List.append_nil, hsplit]) hafter
    rwa [List.append_nil] at hbehind

end AtGroup

end Steps

/-- From every position on the walk gives the pieces from there on, with what was passed over in
front of them. -/
theorem walks_cut (t rest shown passed : Text) (index : Index) (ht : shown ++ passed ++ rest = t)
    (hindex : index.Faithful (mark t)) :
    Walks kinds t index shown.length (shown ++ passed).length (Piece.lead passed
      (Piece.cut (fun _ => find kinds) (shown ++ passed).length (mark rest))) := by
  induction hlength : rest.length using Nat.strongRecOn generalizing rest shown passed index with
  | ind n ih =>
    have hask := ask_nextGroup ht hindex
    rcases Piece.next_or (fun _ => find_eq_none_of_close? kinds) rest with
      hlast | ⟨before, body, after, hnext⟩
    · rw [hlast.nextFrom_eq] at hask
      have hrest : passed ++ rest = t.drop shown.length := by
        rw [← ht, List.append_assoc, List.drop_left]
      rw [hlast.cut_eq, Piece.lead_lead, hrest]
      exact .done hask
    · have hstart : (shown ++ passed).length + before.length =
          (shown ++ (passed ++ before)).length := by
        simp [Nat.add_assoc]
      rw [hnext.nextFrom_eq, hstart] at hask
      rw [hnext.cut_eq, Piece.lead_lead, hstart]
      apply walks_group kinds hnext.head?_body hnext.closes hask _ hindex
      · intro later shown passed index hlater hsplit hfaithful
        refine ih later.length ?_ later shown passed index hsplit hfaithful rfl
        have hrest : rest.length = before.length + ('{' :: (body ++ ['}']) ++ after).length := by
          rw [hnext.text_eq, List.length_append]
        omega
      · rw [← ht, hnext.text_eq]
        simp only [List.append_assoc]

/-- The answers of an index leave a walk no choice. -/
theorem Walks.eq {t : Text} {index : Index} {textStart pos : Nat}
    {pieces others : List (Piece Placed)} (h : Walks kinds t index textStart pos pieces)
    (h' : Walks kinds t index textStart pos others) : pieces = others := by
  induction h generalizing others with
  | done hnext =>
    cases h' with
    | done => rfl
    | passed hnext' => cases hnext.symm.trans hnext'
    | taken hnext' => cases hnext.symm.trans hnext'
  | passed hnext hkind _ ih =>
    cases h' with
    | done hnext' => cases hnext.symm.trans hnext'
    | passed hnext' hkind' h' =>
      cases hnext.symm.trans hnext'
      cases hkind.symm.trans hkind'
      exact ih h'
    | taken hnext' hkind' =>
      cases hnext.symm.trans hnext'
      cases hkind.symm.trans hkind'
  | taken hnext hkind _ ih =>
    cases h' with
    | done hnext' => cases hnext.symm.trans hnext'
    | passed hnext' hkind' =>
      cases hnext.symm.trans hnext'
      cases hkind.symm.trans hkind'
    | taken hnext' hkind' h' =>
      cases hnext.symm.trans hnext'
      cases hkind.symm.trans hkind'
      rw [ih h']

/-- The pieces of a text are what the walk from its start gives. -/
theorem walks_iff {t : Text} {given : List (Piece Placed)} :
    Walks kinds t (.ofPattern t) 0 0 given ↔ given = pieces kinds t := by
  have hwalks : Walks kinds t (.ofPattern t) 0 0 (pieces kinds t) :=
    walks_cut kinds t t [] [] (.ofPattern t) rfl (Index.faithful_ofPattern t)
  constructor
  · intro h
    exact h.eq kinds hwalks
  · rintro rfl
    exact hwalks

end Protection

end Parlance
