import Mathlib.Data.List.TakeWhile
import Parlance.Text
/-!
Runs of characters of one class. A run in front of a text that does not go on with the class is what
takeWhile takes off, so texts that are put together from runs come apart in one way only
(Run.append_inj).
-/

namespace Parlance.Text

/-- The text does not begin with a character of the class. -/
def Ends (p : Char → Bool) (t : Text) : Prop := ∀ c ∈ t.head?, p c = false

/-- Characters of one class, possibly none. -/
@[ext]
structure Run (p : Char → Bool) where
  text : Text
  all : ∀ c ∈ text, p c

/-- At least one character of a class. -/
structure FilledRun (p : Char → Bool) extends Run p where
  text_ne_nil : text ≠ []

abbrev Blanks : Type := Run isBlank

abbrev Word : Type := FilledRun isWord

section Ends

variable {p q : Char → Bool} {c : Char} {t : Text}

theorem ends_nil : Ends p [] := by
  rintro c ⟨⟩

theorem ends_cons : Ends p (c :: t) ↔ p c = false := by
  simp [Ends]

/-- A run of another class ends every class that what follows it ends. -/
theorem Run.ends_append (a : Run q) (hdisjoint : ∀ c, q c → p c = false) (ht : Ends p t) :
    Ends p (a.text ++ t) := by
  obtain ⟨_ | ⟨c, text⟩, hall⟩ := a
  · exact ht
  · exact ends_cons.2 (hdisjoint c (hall c List.mem_cons_self))

theorem FilledRun.ends_append (a : FilledRun q) (hdisjoint : ∀ c, q c → p c = false) (t : Text) :
    Ends p (a.text ++ t) := by
  obtain ⟨⟨_ | ⟨c, text⟩, hall⟩, hne⟩ := a
  · exact absurd rfl hne
  · exact ends_cons.2 (hdisjoint c (hall c List.mem_cons_self))

end Ends

section Runs

variable {p : Char → Bool} {t t' : Text}

/-- The run at the head of a text. -/
def Run.leading (p : Char → Bool) (t : Text) : Run p :=
  ⟨t.takeWhile p, fun _ hc => List.mem_takeWhile_imp hc⟩

theorem Run.leading_append (p : Char → Bool) (t : Text) :
    (Run.leading p t).text ++ t.dropWhile p = t :=
  List.takeWhile_append_dropWhile

theorem Run.takeWhile_append (a : Run p) (ht : Ends p t) : (a.text ++ t).takeWhile p = a.text := by
  rw [List.takeWhile_append_of_pos a.all]
  cases t with
  | nil => simp
  | cons c t => simp [ends_cons.1 ht]

theorem Run.dropWhile_append (a : Run p) (ht : Ends p t) : (a.text ++ t).dropWhile p = t := by
  rw [List.dropWhile_append_of_pos a.all]
  cases t with
  | nil => rfl
  | cons c t => simp [ends_cons.1 ht]

/-- Where a run ends is seen from the text. -/
theorem Run.append_inj {a b : Run p} (ht : Ends p t) (ht' : Ends p t')
    (hsame : a.text ++ t = b.text ++ t') : a = b ∧ t = t' := by
  have htext : a.text = b.text := by
    rw [← a.takeWhile_append ht, hsame, b.takeWhile_append ht']
  refine ⟨Run.ext htext, ?_⟩
  rw [← a.dropWhile_append ht, hsame, b.dropWhile_append ht']

theorem FilledRun.append_inj {a b : FilledRun p} (ht : Ends p t) (ht' : Ends p t')
    (hsame : a.text ++ t = b.text ++ t') : a = b ∧ t = t' := by
  obtain ⟨hrun, hrest⟩ := Run.append_inj ht ht' hsame
  cases a
  cases b
  exact ⟨by cases hrun; rfl, hrest⟩

end Runs

section Classes

variable {c : Char}

/-- The blanks, one by one. -/
def blankCodes : List Nat :=
  [9, 10, 11, 12, 13, 28, 29, 30, 31, 32, 0x85, 0xA0, 0x1680, 0x2000, 0x2001, 0x2002, 0x2003,
    0x2004, 0x2005, 0x2006, 0x2007, 0x2008, 0x2009, 0x200A, 0x2028, 0x2029, 0x202F, 0x205F, 0x3000]

theorem mem_blankCodes (h : isBlank c) : c.toNat ∈ blankCodes := by
  simp only [isBlank, Bool.or_eq_true, Bool.and_eq_true, decide_eq_true_eq, beq_iff_eq] at h
  simp only [blankCodes, List.mem_cons, List.not_mem_nil, or_false]
  omega

theorem not_isWord_of_isBlank (h : isBlank c) : isWord c = false := by
  have hcodes : ∀ n ∈ blankCodes, isWord (Char.ofNat n) = false := by decide +kernel
  have hword := hcodes _ (mem_blankCodes h)
  rwa [Char.ofNat_toNat] at hword

theorem not_isBlank_of_isWord (h : isWord c) : isBlank c = false := by
  by_contra hblank
  rw [not_isWord_of_isBlank (by simpa using hblank)] at h
  contradiction

end Classes

end Parlance.Text
