import Mathlib.Data.List.Forall2
import Parlance.Placeholder.Kinds
/-!
What spellings accept. A spelling accepts the texts that can be cut into one piece for each of its
parts (accepts_iff). The default kinds that look at characters are those of their written spellings
(ofSpelling?_indexed, ofSpelling?_named).
-/

namespace Parlance

namespace CharSet

theorem contains_range (first last c : Char) :
    (range first last).contains c ↔ first.val ≤ c.val ∧ c.val ≤ last.val := by
  rw [contains, Bool.and_eq_true, decide_eq_true_iff, decide_eq_true_iff]
  rfl

theorem contains_single (c d : Char) : (single c).contains d ↔ d = c := by
  rw [single, contains_range]
  constructor
  · rintro ⟨hle, hge⟩
    exact Char.le_antisymm hge hle
  · rintro rfl
    exact ⟨Char.le_refl d, Char.le_refl d⟩

theorem contains_union (sets : List CharSet) (c : Char) :
    (union sets).contains c ↔ ∃ set ∈ sets, set.contains c := by
  rw [contains]
  induction sets with
  | nil => simp [anyContains]
  | cons set sets ih => simp [anyContains, ih]

end CharSet

namespace Spelling

open CharSet (contains_single)

/-- The pieces that a part takes. -/
def Part.Takes : Part → Text → Prop
  | .one set, u => ∃ c, set.contains c ∧ u = [c]
  | .option set, u => u = [] ∨ ∃ c, set.contains c ∧ u = [c]
  | .many set, u => ∀ c ∈ u, set.contains c

/-- The text can be cut into one piece for each part. -/
def Cuts (parts : List Part) (t : Text) : Prop :=
  ∃ pieces : List Text, List.Forall₂ Part.Takes parts pieces ∧ pieces.flatten = t

section Cuts

variable (set : CharSet) (parts : List Part) (t : Text)

theorem cuts_nil : Cuts [] t ↔ t = [] := by
  simp [Cuts, eq_comm]

theorem cuts_cons (part : Part) :
    Cuts (part :: parts) t ↔ ∃ u v, part.Takes u ∧ Cuts parts v ∧ u ++ v = t := by
  constructor
  · rintro ⟨pieces, hpieces, rfl⟩
    obtain ⟨u, rest, hu, hrest, rfl⟩ := List.forall₂_cons_left_iff.1 hpieces
    exact ⟨u, rest.flatten, hu, ⟨rest, hrest, rfl⟩, rfl⟩
  · rintro ⟨u, v, hu, ⟨rest, hrest, rfl⟩, rfl⟩
    exact ⟨u :: rest, .cons hu hrest, rfl⟩

/-- A character of the set is taken off the text. -/
theorem cuts_one :
    Cuts (.one set :: parts) t ↔ ∃ c v, t = c :: v ∧ set.contains c ∧ Cuts parts v := by
  rw [cuts_cons]
  constructor
  · rintro ⟨u, v, ⟨c, hc, rfl⟩, hv, rfl⟩
    exact ⟨c, v, rfl, hc, hv⟩
  · rintro ⟨c, v, rfl, hc, hv⟩
    exact ⟨[c], v, ⟨c, hc, rfl⟩, hv, rfl⟩

theorem cuts_option :
    Cuts (.option set :: parts) t ↔ Cuts parts t ∨ Cuts (.one set :: parts) t := by
  rw [cuts_cons, cuts_cons]
  constructor
  · rintro ⟨u, v, rfl | hu, hv, rfl⟩
    · exact .inl hv
    · exact .inr ⟨u, v, hu, hv, rfl⟩
  · rintro (ht | ⟨u, v, hu, hv, rfl⟩)
    · exact ⟨[], t, .inl rfl, ht, rfl⟩
    · exact ⟨u, v, .inr hu, hv, rfl⟩

theorem cuts_many :
    Cuts (.many set :: parts) t ↔ Cuts parts t ∨ Cuts (.one set :: .many set :: parts) t := by
  rw [cuts_cons, cuts_one]
  constructor
  · rintro ⟨u, v, hu, hv, rfl⟩
    cases u with
    | nil => exact .inl hv
    | cons c u =>
      obtain ⟨hc, hu⟩ := List.forall_mem_cons.1 hu
      exact .inr ⟨c, u ++ v, rfl, hc, (cuts_cons _ _ _).2 ⟨u, v, hu, hv, rfl⟩⟩
  · rintro (ht | ⟨c, v, rfl, hc, hv⟩)
    · exact ⟨[], t, by simp [Part.Takes], ht, rfl⟩
    · obtain ⟨u, w, hu, hw, rfl⟩ := (cuts_cons _ _ _).1 hv
      exact ⟨c :: u, w, List.forall_mem_cons.2 ⟨hc, hu⟩, hw, rfl⟩

end Cuts

/-- A spelling accepts the texts that can be cut as its parts demand. -/
theorem accepts_iff (parts : List Part) (t : Text) : accepts parts t ↔ Cuts parts t := by
  fun_induction accepts parts t with
  | case1 t => rw [cuts_nil, List.isEmpty_iff]
  | case2 set rest => simp [cuts_one]
  | case3 set rest c t ih => simp [cuts_one, ih]
  | case4 t set rest ih ihtail =>
    rw [cuts_option, cuts_one, Bool.or_eq_true, ih]
    cases t with
    | nil => simp
    | cons c t => simp [ihtail]
  | case5 t set rest ih ihtail =>
    rw [cuts_many, cuts_one, Bool.or_eq_true, ih]
    cases t with
    | nil => simp
    | cons c t => simp [ihtail]

/-- The pieces of two spellings, one after the other. -/
theorem cuts_append (parts others : List Part) (t : Text) :
    Cuts (parts ++ others) t ↔ ∃ u v, Cuts parts u ∧ Cuts others v ∧ u ++ v = t := by
  induction parts generalizing t with
  | nil => simp [cuts_nil]
  | cons part parts ih =>
    rw [List.cons_append, cuts_cons]
    constructor
    · rintro ⟨u, rest, hu, hrest, rfl⟩
      obtain ⟨v, w, hv, hw, rfl⟩ := (ih rest).1 hrest
      exact ⟨u ++ v, w, (cuts_cons _ _ _).2 ⟨u, v, hu, hv, rfl⟩, hw, List.append_assoc u v w⟩
    · rintro ⟨front, w, hfront, hw, rfl⟩
      obtain ⟨u, v, hu, hv, rfl⟩ := (cuts_cons _ _ _).1 hfront
      exact ⟨u, v ++ w, hu, (ih _).2 ⟨v, w, hv, hw, rfl⟩, (List.append_assoc u v w).symm⟩

theorem cuts_single (c : Char) (t : Text) : Cuts [.one (.single c)] t ↔ t = [c] := by
  simp [cuts_one, cuts_nil, contains_single]

/-- What stands between two braces is cut as the parts between them demand. -/
theorem cuts_braces (parts : List Part) (group : Text) :
    Cuts (.one (.single '{') :: (parts ++ [.one (.single '}')])) group ↔
      ∃ body, group = '{' :: (body ++ ['}']) ∧ Cuts parts body := by
  rw [cuts_one]
  simp only [contains_single, cuts_append, cuts_single]
  constructor
  · rintro ⟨_, _, rfl, rfl, body, _, hbody, rfl, rfl⟩
    exact ⟨body, rfl, hbody⟩
  · rintro ⟨body, rfl, hbody⟩
    exact ⟨'{', _, rfl, rfl, body, ['}'], hbody, rfl, rfl⟩

/-- One character of a set and then any number of another one. -/
theorem cuts_run (first others : CharSet) (t : Text) :
    Cuts [.one first, .many others] t ↔
      ∃ c rest, t = c :: rest ∧ first.contains c ∧ ∀ d ∈ rest, others.contains d := by
  rw [cuts_one]
  refine exists_congr fun c => exists_congr fun rest => and_congr_right' (and_congr_right' ?_)
  simp [cuts_cons, cuts_nil, Part.Takes]

end Spelling

namespace Placeholder

open CharSet Spelling

theorem any_inside?_iff (p : Text → Bool) (group : Text) :
    (inside? group).any p ↔ ∃ body, group = '{' :: (body ++ ['}']) ∧ p body := by
  simp [Option.any_eq_true, inside?_eq_some_iff]

theorem accepts_indexed :
    accepts [.one (.single '{'), .one .digit, .many .digit, .one (.single '}')] = isIndexed := by
  funext group
  rw [Bool.eq_iff_iff, accepts_iff, isIndexed, any_inside?_iff]
  apply (cuts_braces [.one .digit, .many .digit] group).trans
  refine exists_congr fun body => and_congr_right' ?_
  rw [cuts_run]
  cases body with
  | nil => simp [Token.isPositional]
  | cons c rest => simp [Token.isPositional, CharSet.contains]

theorem isNameStart_iff (c : Char) :
    isNameStart c ↔ (('A'.val ≤ c.val ∧ c.val ≤ 'Z'.val) ∨
      ('a'.val ≤ c.val ∧ c.val ≤ 'z'.val)) ∨ c = '_' := by
  rw [isNameStart, Bool.or_eq_true, beq_iff_eq]
  refine or_congr ((Bool.or_eq_true _ _).to_iff.trans (or_congr ?_ ?_)) Iff.rfl
  · exact decide_eq_true_iff
  · exact (Bool.and_eq_true _ _).to_iff.trans (and_congr decide_eq_true_iff decide_eq_true_iff)

/-- The letters of ASCII and the underscore. -/
def nameStarts : List CharSet := [.range 'A' 'Z', .range 'a' 'z', .single '_']

theorem contains_nameStarts (c : Char) :
    (CharSet.union nameStarts).contains c = isNameStart c := by
  rw [Bool.eq_iff_iff, contains_union]
  simp [nameStarts, contains_range, contains_single, isNameStart_iff, or_assoc]

/-- The letters and digits of ASCII and the underscore. -/
def nameParts : List CharSet := [.range 'A' 'Z', .range 'a' 'z', .range '0' '9', .single '_']

theorem contains_nameParts (c : Char) :
    (CharSet.union nameParts).contains c = (isNameStart c || c.isDigit) := by
  rw [Bool.eq_iff_iff, contains_union]
  simp [nameParts, contains_range, contains_single, isNameStart_iff, Char.isDigit, or_comm,
    or_left_comm]

theorem accepts_named :
    accepts [.one (.single '{'), .one (.union nameStarts), .many (.union nameParts),
      .one (.single '}')] = isNamed := by
  funext group
  rw [Bool.eq_iff_iff, accepts_iff, isNamed, any_inside?_iff]
  apply (cuts_braces [.one (.union nameStarts), .many (.union nameParts)] group).trans
  refine exists_congr fun body => and_congr_right' ?_
  rw [cuts_run]
  simp only [contains_nameStarts, contains_nameParts]
  cases body with
  | nil => simp [isIdentifier]
  | cons c rest => simp [isIdentifier]

/-- The default kind of groups that hold a number is that of its spelling. -/
theorem ofSpelling?_indexed :
    Kind.ofSpelling? "Indexed" "\\\x7b\\d+\\\x7d" false =
      some ⟨"Indexed", .spelled isIndexed, false⟩ := by
  rw [← accepts_indexed]
  rfl

/-- The default kind of groups that hold a name is that of its spelling. -/
theorem ofSpelling?_named :
    Kind.ofSpelling? "Named" "\\\x7b[A-Za-z_][A-Za-z0-9_]*\\\x7d" false =
      some ⟨"Named", .spelled isNamed, false⟩ := by
  rw [← accepts_named]
  rfl

end Placeholder

end Parlance
