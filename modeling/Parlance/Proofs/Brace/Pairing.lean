import Parlance.Brace.Place
import Parlance.Proofs.Brace.Closing
/-!
Braces paired from left to right. Opening braces are laid on a stack, and a closing brace takes off
the last of them; one that comes when none is open is passed over. While braces are open on the
stack, each of them closes where a count from its depth ends (mem_pairsFrom_iff). So the stack, the
count from every single brace and the marks of the pattern tell the same ends (endAt?_eq_closeAt?).
-/

namespace Parlance.Brace

/-- The opening braces that close, each with the position behind the brace that closes it. The
stack holds the positions of the open braces, the last first. -/
def pairsFrom (opened : List Nat) (pos : Nat) : Text → List (Nat × Nat)
  | [] => []
  | c :: rest =>
    if c = '{' then pairsFrom (pos :: opened) (pos + 1) rest
    else if c = '}' then
      match opened with
      | [] => pairsFrom [] (pos + 1) rest
      | start :: opened => (start, pos + 1) :: pairsFrom opened (pos + 1) rest
    else pairsFrom opened (pos + 1) rest

/-- The opening braces of a pattern that close, in the order in which they close. -/
def pairs (pattern : Text) : List (Nat × Nat) := pairsFrom [] 0 pattern

section Stack

variable {opened : List Nat} {pos start stop : Nat} {t : Text}

theorem pairsFrom_open :
    pairsFrom opened pos ('{' :: t) = pairsFrom (pos :: opened) (pos + 1) t := by
  rw [pairsFrom.eq_def]
  rfl

theorem pairsFrom_close_nil : pairsFrom [] pos ('}' :: t) = pairsFrom [] (pos + 1) t := by
  rw [pairsFrom.eq_def]
  rfl

theorem pairsFrom_close_cons {first : Nat} :
    pairsFrom (first :: opened) pos ('}' :: t) =
      (first, pos + 1) :: pairsFrom opened (pos + 1) t := by
  rw [pairsFrom.eq_def]
  rfl

theorem pairsFrom_other {c : Char} (hopen : c ≠ '{') (hclose : c ≠ '}') :
    pairsFrom opened pos (c :: t) = pairsFrom opened (pos + 1) t := by
  rw [pairsFrom.eq_def]
  exact (if_neg hopen).trans (if_neg hclose)

/-- A brace that opens in a text at a position, and that closes there. -/
def PairedWithin (pos : Nat) (t : Text) (start stop : Nat) : Prop :=
  ∃ i, t[i]? = some '{' ∧ pos + i = start ∧ closeFrom 0 start (t.drop i) = some stop

/-- A brace that is open on the stack, and that closes in the text behind it. -/
def PairedBefore (opened : List Nat) (pos : Nat) (t : Text) (start stop : Nat) : Prop :=
  ∃ k : Nat, opened[k]? = some start ∧ closeFrom (k + 1) pos t = some stop

theorem pairedWithin_cons {c : Char} :
    PairedWithin pos (c :: t) start stop ↔
      (c = '{' ∧ pos = start ∧ closeFrom 1 (pos + 1) t = some stop) ∨
        PairedWithin (pos + 1) t start stop := by
  rw [PairedWithin, ← Nat.or_exists_add_one, PairedWithin]
  apply or_congr
  · rw [List.getElem?_cons_zero, Option.some.injEq, Nat.add_zero, List.drop_zero]
    apply and_congr_right
    rintro rfl
    apply and_congr_right
    rintro rfl
    rw [closeFrom, if_pos rfl]
    rfl
  · apply exists_congr
    intro i
    rw [List.getElem?_cons_succ, List.drop_succ_cons, Nat.add_right_comm, Nat.add_assoc]

/-- An opening brace goes on the stack, and every other one is then one deeper. -/
theorem pairedBefore_open :
    PairedBefore (pos :: opened) (pos + 1) t start stop ↔
      (pos = start ∧ closeFrom 1 (pos + 1) t = some stop) ∨
        PairedBefore opened pos ('{' :: t) start stop := by
  rw [PairedBefore, ← Nat.or_exists_add_one, PairedBefore]
  apply or_congr
  · rw [List.getElem?_cons_zero, Option.some.injEq]
    rfl
  · apply exists_congr
    intro k
    rw [List.getElem?_cons_succ, closeFrom, if_pos rfl]
    rfl

/-- A closing brace closes the last brace on the stack. -/
theorem pairedBefore_close {first : Nat} :
    PairedBefore (first :: opened) pos ('}' :: t) start stop ↔
      (first = start ∧ pos + 1 = stop) ∨ PairedBefore opened (pos + 1) t start stop := by
  rw [PairedBefore, ← Nat.or_exists_add_one, PairedBefore]
  apply or_congr
  · rw [List.getElem?_cons_zero, Option.some.injEq, closeFrom, if_neg (by decide), if_pos rfl,
      if_pos (by omega), Option.some.injEq]
  · apply exists_congr
    intro k
    rw [List.getElem?_cons_succ, closeFrom, if_neg (by decide), if_pos rfl, if_neg (by omega),
      show ((k + 1 : Nat) : Int) + 1 - 1 = (k : Int) + 1 by omega]

theorem pairedBefore_other {c : Char} (hopen : c ≠ '{') (hclose : c ≠ '}') :
    PairedBefore opened pos (c :: t) start stop ↔ PairedBefore opened (pos + 1) t start stop := by
  apply exists_congr
  intro k
  rw [closeFrom, if_neg hopen, if_neg hclose]

theorem not_pairedBefore_nil : ¬PairedBefore [] pos t start stop := by
  rintro ⟨k, hk, -⟩
  cases hk

/-- What the stack pairs is what counting pairs, from the braces that are open on it and from those
that are still to come. -/
theorem mem_pairsFrom_iff :
    (start, stop) ∈ pairsFrom opened pos t ↔
      PairedBefore opened pos t start stop ∨ PairedWithin pos t start stop := by
  induction t generalizing opened pos with
  | nil => simp [pairsFrom, PairedBefore, PairedWithin, closeFrom]
  | cons c t ih =>
    rw [pairedWithin_cons]
    by_cases hopen : c = '{'
    · subst hopen
      rw [pairsFrom_open, ih, pairedBefore_open, or_assoc, or_left_comm]
      simp only [true_and]
    · have hwithin : ¬(c = '{' ∧ pos = start ∧ closeFrom 1 (pos + 1) t = some stop) :=
        fun h => hopen h.1
      rw [or_iff_right hwithin]
      by_cases hclose : c = '}'
      · subst hclose
        cases opened with
        | nil =>
          rw [pairsFrom_close_nil, ih, or_iff_right not_pairedBefore_nil,
            or_iff_right not_pairedBefore_nil]
        | cons first opened =>
          rw [pairsFrom_close_cons, List.mem_cons, ih, pairedBefore_close, Prod.mk.injEq, or_assoc,
            eq_comm, @eq_comm _ stop]
      · rw [pairsFrom_other hopen hclose, ih, pairedBefore_other hopen hclose]

end Stack

section Index

variable {pattern : Text} {pos stop : Nat}

/-- Where the count starts makes no difference but the position. -/
theorem closeFrom_add (depth : Int) (pos k : Nat) (t : Text) :
    closeFrom depth (pos + k) t = (closeFrom depth k t).map (pos + ·) := by
  induction t generalizing depth k with
  | nil => rfl
  | cons c t ih =>
    rw [closeFrom, closeFrom]
    split
    · exact ih (depth + 1) (k + 1)
    · split
      · split
        · rfl
        · exact ih (depth - 1) (k + 1)
      · exact ih depth (k + 1)

/-- The index knows the end of every group, and of nothing else. -/
theorem endOf?_mark (pattern : Text) (pos : Nat) :
    (mark pattern).endOf? pos = if pattern[pos]? = some '{' then close? pattern pos else none := by
  have hmark : (mark pattern)[pos]? = (mark (pattern.drop pos)).head? := by
    rw [← mark_drop, List.head?_drop]
  have hchar : pattern[pos]? = (pattern.drop pos).head? := List.head?_drop.symm
  rw [Marks.endOf?, hmark, hchar, close?]
  cases pattern.drop pos with
  | nil => rfl
  | cons c t =>
    rw [mark_cons, List.head?_cons, Option.bind_some, List.head?_cons]
    by_cases hc : c = '{'
    · rw [if_pos hc, if_pos (congrArg some hc), close?, List.drop_zero, ← closeFrom_add,
        Nat.add_zero]
    · rw [if_neg hc, if_neg (fun h => hc (Option.some.inj h))]
      rfl

theorem mem_pairs_iff :
    (pos, stop) ∈ pairs pattern ↔ pattern[pos]? = some '{' ∧ close? pattern pos = some stop := by
  rw [pairs, mem_pairsFrom_iff, or_iff_right not_pairedBefore_nil, PairedWithin, close?]
  constructor
  · rintro ⟨i, hopen, hpos, hclose⟩
    obtain rfl : i = pos := by omega
    exact ⟨hopen, hclose⟩
  · rintro ⟨hopen, hclose⟩
    exact ⟨pos, hopen, Nat.zero_add pos, hclose⟩

/-- At every position of a pattern that holds an opening brace the index knows the end that counting
from this brace finds, or both find none; at any other position it knows none. The stack, which runs
over the whole pattern once, pairs the same braces, whatever closes without being open and whatever
stays open. -/
theorem endAt?_eq_closeAt? (pattern : Text) (pos : Nat) :
    (pattern[pos]? = some '{' →
      closeAt? pattern pos = .ok (((mark pattern).endAt? pos).map Int.ofNat)) ∧
    (pattern[pos]? ≠ some '{' → (mark pattern).endAt? pos = none) ∧
    ∀ stop, (pos, stop) ∈ pairs pattern ↔ (mark pattern).endAt? pos = some stop := by
  have hend : (mark pattern).endAt? pos =
      if pattern[pos]? = some '{' then close? pattern pos else none := by
    rw [Marks.endAt?, if_neg (by omega), Int.toNat_natCast, endOf?_mark]
  refine ⟨fun hopen => ?_, fun hother => hend.trans (if_neg hother), fun stop => ?_⟩
  · rw [closeAt?, if_pos (Int.natCast_nonneg pos), Int.toNat_natCast, hend, if_pos hopen]
  · rw [mem_pairs_iff, hend, Option.ite_none_right_eq_some]

/-- The first brace closes nothing, and the second stays open. -/
example : pairs "\x7d\x7ba\x7bb\x7d\x7bc\x7d" = [(3, 6), (6, 9)] := by decide

end Index

end Parlance.Brace
