import Mathlib.Data.List.Chain
import Parlance.Brace.Piece
import Parlance.Proofs.Brace.Closing
/-!
The cut of a marked pattern, read off its text. What a find takes is written as it stands in the
pattern (Exact); then the pieces spell the pattern (flatMap_cut), no literal piece is empty or next
to another one (separated_cut), and every find was made where its text starts (located_cut).
All of this is by induction along the scan (scan_induction).
-/

namespace Parlance.Brace.Piece

variable {α : Type u} {find : Nat → Marks → Option (α × Nat)} {write : α → Text}

/-- What is found at an opening brace is written as the characters that it takes. -/
def Exact (find : Nat → Marks → Option (α × Nat)) (write : α → Text) : Prop :=
  ∀ pos t a n, find pos (mark ('{' :: t)) = some (a, n) →
    ∃ u rest, t = u ++ rest ∧ write a = '{' :: u ∧ n = u.length + 1

section Steps

variable (find) (pos : Nat)

theorem cut_mark_nil : cut find pos (mark []) = [] := by rw [mark_nil, cut]

theorem cut_escape (t : Text) :
    cut find pos (mark ('{' :: '{' :: t)) = prepend ['{', '{'] (cut find (pos + 2) (mark t)) := by
  rw [mark_open, mark_open, cut, if_pos rfl, if_pos (by simp [Marks.startsEscape])]
  rfl

theorem startsEscape_mark_open {t : Text} (ht : t.head? ≠ some '{') :
    Marks.startsEscape (mark ('{' :: t)) = false := by
  rw [mark_open]
  cases t with
  | nil => rfl
  | cons c t =>
    rw [mark_cons]
    simpa [Marks.startsEscape] using ht

theorem cut_bare {t : Text} (ht : t.head? ≠ some '{') (hfind : find pos (mark ('{' :: t)) = none) :
    cut find pos (mark ('{' :: t)) = prepend ['{'] (cut find (pos + 1) (mark t)) := by
  have hesc := startsEscape_mark_open ht
  rw [mark_open] at hesc hfind ⊢
  rw [cut, if_pos rfl, if_neg (by simp [hesc]), hfind]

theorem cut_other {c : Char} (hc : c ≠ '{') (t : Text) :
    cut find pos (mark (c :: t)) = prepend [c] (cut find (pos + 1) (mark t)) := by
  rw [mark_cons, cut, if_neg hc]

theorem cut_found {u rest : Text} {a : α} (ht : (u ++ rest).head? ≠ some '{')
    (hfind : find pos (mark ('{' :: (u ++ rest))) = some (a, u.length + 1)) :
    cut find pos (mark ('{' :: (u ++ rest))) =
      .found a :: cut find (pos + (u.length + 1)) (mark rest) := by
  have hesc := startsEscape_mark_open ht
  rw [mark_open] at hesc hfind ⊢
  rw [cut, if_pos rfl, if_neg (by simp [hesc]), hfind]
  have hrest : (mark (u ++ rest)).drop (u.length + 1 - 1) = mark rest := by
    rw [mark_drop, Nat.add_sub_cancel, List.drop_left]
  have hlength : max (u.length + 1) 1 = u.length + 1 := by omega
  simp only [hrest, hlength]

/-- A find that takes a whole group. -/
theorem cut_group {body : Text} {a : α} (hbody : body.head? ≠ some '{') (rest : Text)
    (hfind : find pos (mark ('{' :: (body ++ '}' :: rest))) = some (a, body.length + 2)) :
    cut find pos (mark ('{' :: (body ++ ['}']) ++ rest)) =
      .found a :: cut find (pos + (body.length + 2)) (mark rest) := by
  have hescape : (body ++ ['}'] ++ rest).head? ≠ some '{' := by
    cases body with
    | nil => simp
    | cons c body => exact hbody
  have hlength : body.length + 2 = (body ++ ['}']).length + 1 := by simp
  rw [List.append_cons, hlength] at hfind
  rw [List.cons_append, cut_found find pos hescape hfind, hlength]

end Steps

section Leading

/-- Literal text in front of pieces, where empty text makes no piece. -/
def lead : Text → List (Piece α) → List (Piece α)
  | [], pieces => pieces
  | c :: t, pieces => prepend (c :: t) pieces

theorem lead_of_ne_nil {t : Text} (ht : t ≠ []) (pieces : List (Piece α)) :
    lead t pieces = prepend t pieces := by
  cases t with
  | nil => exact absurd rfl ht
  | cons c t => rfl

theorem prepend_prepend (t u : Text) (pieces : List (Piece α)) :
    prepend t (prepend u pieces) = prepend (t ++ u) pieces := by
  match pieces with
  | [] => rfl
  | .literal v :: rest => simp [prepend]
  | .found a :: rest => rfl

theorem lead_lead (t u : Text) (pieces : List (Piece α)) :
    lead t (lead u pieces) = lead (t ++ u) pieces := by
  cases t with
  | nil => rfl
  | cons c t =>
    cases u with
    | nil => rw [List.append_nil]; rfl
    | cons d u => exact prepend_prepend (c :: t) (d :: u) pieces

/-- Text without an opening brace is literal. -/
theorem cut_plain {w : Text} (hw : '{' ∉ w) (find : Nat → Marks → Option (α × Nat)) (pos : Nat)
    (t : Text) : cut find pos (mark (w ++ t)) = lead w (cut find (pos + w.length) (mark t)) := by
  induction w generalizing pos with
  | nil => rfl
  | cons c w ih =>
    simp only [List.mem_cons, not_or] at hw
    rw [List.cons_append, cut_other find pos (Ne.symm hw.1), ih hw.2,
      ← lead_of_ne_nil (List.cons_ne_nil c []), lead_lead, List.length_cons,
      Nat.add_right_comm pos 1]
    rfl

end Leading

/-- Induction along the scan of a text: an escape, a find, an opening brace where nothing is found,
any other character. -/
@[elab_as_elim]
theorem scan_induction (hexact : Exact find write) {motive : Nat → Text → Prop}
    (nil : ∀ pos, motive pos [])
    (escape : ∀ pos t, motive (pos + 2) t → motive pos ('{' :: '{' :: t))
    (found : ∀ pos u rest a, (u ++ rest).head? ≠ some '{' → write a = '{' :: u →
      find pos (mark ('{' :: (u ++ rest))) = some (a, u.length + 1) →
      motive (pos + (u.length + 1)) rest → motive pos ('{' :: (u ++ rest)))
    (bare : ∀ pos t, t.head? ≠ some '{' → find pos (mark ('{' :: t)) = none →
      motive (pos + 1) t → motive pos ('{' :: t))
    (other : ∀ pos c t, c ≠ '{' → motive (pos + 1) t → motive pos (c :: t))
    (pos : Nat) (t : Text) : motive pos t := by
  -- on the length, since a find takes more than one character
  induction hlength : t.length using Nat.strongRecOn generalizing pos t with
  | ind n ih =>
    have shorter : ∀ pos u, u.length < t.length → motive pos u :=
      fun pos u hu => ih u.length (hlength ▸ hu) pos u rfl
    cases t with
    | nil => exact nil pos
    | cons c t =>
      have next : motive (pos + 1) t := shorter _ _ (Nat.lt_succ_self _)
      by_cases hc : c = '{'
      · subst hc
        by_cases ht : t.head? = some '{'
        · obtain ⟨u, rfl⟩ := List.head?_eq_some_iff.1 ht
          exact escape pos u (shorter _ _ (by simp only [List.length_cons]; omega))
        · cases hfind : find pos (mark ('{' :: t)) with
          | none => exact bare pos t ht hfind next
          | some taken =>
            obtain ⟨u, rest, rfl, hwrite, hn⟩ := hexact pos t taken.1 taken.2 hfind
            rw [show taken = (taken.1, u.length + 1) by rw [← hn]] at hfind
            refine found pos u rest taken.1 ht hwrite hfind (shorter _ _ ?_)
            simp only [List.length_cons, List.length_append]
            omega
      · exact other pos c t hc next

/-- The pieces spell the pattern. -/
theorem flatMap_cut (hexact : Exact find write) (pos : Nat) (t : Text) :
    (cut find pos (mark t)).flatMap (text write) = t := by
  induction pos, t using scan_induction hexact with
  | nil pos => rw [cut_mark_nil, List.flatMap_nil]
  | escape pos t ih => rw [cut_escape, flatMap_text_prepend, ih]; rfl
  | found pos u rest a ht hwrite hfind ih =>
    rw [cut_found find pos ht hfind, List.flatMap_cons, ih, text, hwrite, List.cons_append]
  | bare pos t ht hfind ih => rw [cut_bare find pos ht hfind, flatMap_text_prepend, ih]; rfl
  | other pos c t hc ih => rw [cut_other find pos hc, flatMap_text_prepend, ih]; rfl

section Separation

def isLiteral : Piece α → Bool
  | .literal _ => true
  | .found _ => false

/-- Literal pieces are not empty, and between two of them there is a find. -/
structure Separated (pieces : List (Piece α)) : Prop where
  nonempty : ∀ u, .literal u ∈ pieces → u ≠ []
  apart : pieces.IsChain fun a b => ¬(a.isLiteral ∧ b.isLiteral)

theorem Separated.nil : Separated ([] : List (Piece α)) where
  nonempty := by intro u hu; exact absurd hu List.not_mem_nil
  apart := List.IsChain.nil

theorem Separated.found {pieces : List (Piece α)} (h : Separated pieces) (a : α) :
    Separated (.found a :: pieces) where
  nonempty := by
    intro u hu
    rcases List.mem_cons.1 hu with hhead | htail
    · exact absurd hhead (by simp)
    · exact h.nonempty u htail
  apart := by
    apply List.isChain_cons.2 ⟨?_, h.apart⟩
    intro b _ hlit
    exact absurd hlit.1 (by simp [isLiteral])

theorem Separated.prepend {pieces : List (Piece α)} (h : Separated pieces) {t : Text}
    (ht : t ≠ []) : Separated (prepend t pieces) := by
  match pieces, h with
  | [], _ =>
    refine ⟨?_, List.isChain_singleton _⟩
    intro u hu
    simp only [Piece.prepend, List.mem_singleton, literal.injEq] at hu
    exact hu ▸ ht
  | .found a :: rest, h =>
    refine ⟨?_, ?_⟩
    · intro u hu
      rcases List.mem_cons.1 hu with hhead | htail
      · rw [literal.inj hhead]
        exact ht
      · exact h.nonempty u htail
    · apply List.isChain_cons.2 ⟨?_, h.apart⟩
      intro b hb hlit
      simp only [List.head?_cons, Option.mem_some_iff] at hb
      exact absurd hlit.2 (by simp [← hb, isLiteral])
  | .literal v :: rest, h =>
    refine ⟨?_, ?_⟩
    · intro u hu
      rcases List.mem_cons.1 hu with hhead | htail
      · rw [literal.inj hhead]
        simp [ht]
      · exact h.nonempty u (List.mem_cons_of_mem _ htail)
    · exact List.isChain_cons.2 (List.isChain_cons.1 h.apart)

theorem separated_cut (pos : Nat) (ms : Marks) : Separated (cut find pos ms) := by
  fun_induction cut find pos ms with
  | case1 => exact Separated.nil
  | case2 pos m rest hm hesc ih => exact ih.prepend (by simp [Marks.text])
  | case3 pos m rest hm hesc a n hfind ih => exact ih.found a
  | case4 pos m rest hm hesc hfind ih => exact ih.prepend (List.cons_ne_nil _ _)
  | case5 pos m rest hm ih => exact ih.prepend (List.cons_ne_nil _ _)

end Separation

section Places

/-- A find behind text that was put in front is a find of the pieces as they were. -/
theorem eq_append_found_of_prepend {t : Text} {pieces before after : List (Piece α)} {a : α}
    (h : prepend t pieces = before ++ .found a :: after) (write : α → Text) :
    ∃ between, pieces = between ++ .found a :: after ∧
      before.flatMap (text write) = t ++ between.flatMap (text write) := by
  match pieces, before with
  | [], [] => simp [prepend] at h
  | [], b :: before => simp [prepend] at h
  | .found b :: rest, [] => simp [prepend] at h
  | .found b :: rest, c :: before =>
    simp only [prepend, List.cons_append, List.cons.injEq] at h
    exact ⟨before, h.2, by rw [← h.1]; rfl⟩
  | .literal u :: rest, [] => simp [prepend] at h
  | .literal u :: rest, c :: before =>
    simp only [prepend, List.cons_append, List.cons.injEq] at h
    refine ⟨.literal u :: before, by rw [h.2]; rfl, ?_⟩
    rw [← h.1, List.flatMap_cons, List.flatMap_cons, text, text, List.append_assoc]

/-- Every find among pieces that start at a position was made where its text starts. -/
def Located (find : Nat → Marks → Option (α × Nat)) (write : α → Text) (pos : Nat) (t : Text)
    (pieces : List (Piece α)) : Prop :=
  ∀ before a after, pieces = before ++ .found a :: after →
    ∃ rest n, t = before.flatMap (text write) ++ '{' :: rest ∧
      find (pos + (before.flatMap (text write)).length) (mark ('{' :: rest)) = some (a, n)

theorem Located.prepend {pos : Nat} {u t : Text} {pieces : List (Piece α)}
    (h : Located find write (pos + u.length) t pieces) :
    Located find write pos (u ++ t) (prepend u pieces) := by
  intro before a after hpieces
  obtain ⟨between, hbetween, hbefore⟩ := eq_append_found_of_prepend hpieces write
  obtain ⟨rest, n, ht, hfind⟩ := h between a after hbetween
  refine ⟨rest, n, by rw [hbefore, List.append_assoc, ← ht], ?_⟩
  rw [hbefore, List.length_append, ← Nat.add_assoc]
  exact hfind

theorem Located.found {pos : Nat} {u rest : Text} {a : α} {pieces : List (Piece α)}
    (hwrite : write a = '{' :: u)
    (hfind : find pos (mark ('{' :: (u ++ rest))) = some (a, u.length + 1))
    (h : Located find write (pos + (u.length + 1)) rest pieces) :
    Located find write pos ('{' :: (u ++ rest)) (.found a :: pieces) := by
  intro before b after hpieces
  match before with
  | [] =>
    -- the find itself: nothing stands before it
    simp only [List.nil_append, List.cons.injEq, Piece.found.injEq] at hpieces
    exact ⟨u ++ rest, u.length + 1, rfl, hpieces.1 ▸ hfind⟩
  | c :: before =>
    simp only [List.cons_append, List.cons.injEq] at hpieces
    obtain ⟨last, n, hrest, hlast⟩ := h before b after hpieces.2
    rw [← hpieces.1, List.flatMap_cons, text, hwrite]
    refine ⟨last, n, ?_, ?_⟩
    · rw [hrest]
      simp only [List.cons_append, List.append_assoc]
    · rw [List.length_append, List.length_cons, ← Nat.add_assoc]
      exact hlast

theorem located_cut (hexact : Exact find write) (pos : Nat) (t : Text) :
    Located find write pos t (cut find pos (mark t)) := by
  induction pos, t using scan_induction hexact with
  | nil pos =>
    rw [cut_mark_nil]
    intro before a after hpieces
    exact absurd hpieces.symm (by simp)
  | escape pos t ih =>
    rw [cut_escape]
    exact ih.prepend
  | found pos u rest a ht hwrite hfind ih =>
    rw [cut_found find pos ht hfind]
    exact ih.found hwrite hfind
  | bare pos t ht hfind ih =>
    rw [cut_bare find pos ht hfind]
    exact ih.prepend
  | other pos c t hc ih =>
    rw [cut_other find pos hc]
    exact ih.prepend

end Places

end Parlance.Brace.Piece
