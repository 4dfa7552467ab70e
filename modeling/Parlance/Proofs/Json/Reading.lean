import Parlance.Proofs.Json.Grammar
import Parlance.Proofs.Json.Writing
/-!
Lists and members are read by their grammar. What is said of every reader is the same (Matches): it
reads what its form of the grammar spells, what it reads is spelled so, and it overruns exactly
where the text asks for more than can be held. A list of items that a reader matches is matched by
the reader of lists, and so is a member by the reader of members.
-/

namespace Parlance.Json

/-- Reading stops at what cannot be held, and not at something wrong. -/
def Overruns {α : Type} : Except ReadError α → Prop
  | .error .oversizedNumeral => True
  | .error (.tooDeep _) => True
  | _ => False

section Overruns

variable {α β : Type} {r : Except ReadError α}

theorem overruns_map {f : α → β} : Overruns (r.map f) ↔ Overruns r := by
  rcases r with (_ | _ | _) | _ <;> rfl

theorem overruns_error {e : ReadError} (h : Overruns (.error e : Except ReadError α)) :
    Overruns (.error e : Except ReadError β) := by
  cases e <;> exact h

theorem Overruns.exists_eq_error (h : Overruns r) :
    r = .error .oversizedNumeral ∨ ∃ container, r = .error (.tooDeep container) := by
  rcases r with (_ | _ | container) | _
  · exact h.elim
  · exact Or.inl rfl
  · exact Or.inr ⟨container, rfl⟩
  · exact h.elim

theorem not_overruns_of_refused
    (h : ∀ e, r = .error e → ∃ problem place, e = .refused problem place) : ¬Overruns r := by
  intro hover
  rcases hover.exists_eq_error with hr | ⟨container, hr⟩
  · obtain ⟨problem, place, he⟩ := h _ hr
    cases he
  · obtain ⟨problem, place, he⟩ := h _ hr
    cases he

end Overruns

/-- The text begins like a value or a key. -/
def Opens (t : Text) : Prop :=
  ∃ c rest, t = c :: rest ∧ isBlank c = false ∧ c ∉ [']', '\x7d', '\uFEFF']

/-- What follows a value: the end, blanks, a comma or a closing bracket. -/
def Stops (t : Text) : Prop := ∀ c ∈ t.head?, isBlank c ∨ c ∈ [',', ']', '\x7d']

/-- A reader reads what a form of the grammar spells, and overruns where the form exceeds what can
be held. -/
structure Matches {α : Type} (r : Reader α) (Item : α → Text → Prop) (Exceeds : Text → Prop) :
    Prop where
  opens : ∀ {a w}, Item a w → Opens w
  opens_of_exceeds : ∀ {t}, Exceeds t → Opens t
  exists_of_read : ∀ {t a rest}, r.read t = .ok (a, rest) → ∃ w, Item a w ∧ t = w ++ rest
  read_append : ∀ {a w rest}, Item a w → Stops rest →
    r.read (w ++ rest) = .ok (a, rest) ∨ Overruns (r.read (w ++ rest))
  overruns_iff : ∀ {t}, Overruns (r.read t) ↔ Exceeds t

section Blanks

variable {t : Text}

theorem skipBlank_blanks (blanks : Blanks) (t : Text) :
    skipBlank (blanks.text ++ t) = skipBlank t :=
  skipBlank_append (List.all_eq_true.2 blanks.all) t

theorem exists_blanks (t : Text) : ∃ blanks : Blanks, t = blanks.text ++ skipBlank t :=
  ⟨Text.Run.leading isBlank t, (Text.Run.leading_append isBlank t).symm⟩

theorem skipBlank_solid (blanks : Blanks) {c : Char} (h : isBlank c = false) (rest : Text) :
    skipBlank (blanks.text ++ c :: rest) = c :: rest := by
  rw [skipBlank_blanks, skipBlank_cons h]

theorem skipBlank_opens (blanks : Blanks) (h : Opens t) : skipBlank (blanks.text ++ t) = t := by
  obtain ⟨c, u, rfl, hc, -⟩ := h
  exact skipBlank_solid blanks hc u

theorem Opens.append (h : Opens t) (rest : Text) : Opens (t ++ rest) := by
  obtain ⟨c, u, rfl, hc⟩ := h
  exact ⟨c, u ++ rest, rfl, hc⟩

theorem stops_blanks (blanks : Blanks) (h : Stops t) : Stops (blanks.text ++ t) := by
  obtain ⟨_ | ⟨c, text⟩, hall⟩ := blanks
  · exact h
  · intro d hd
    exact Or.inl (Option.some.inj hd ▸ hall c List.mem_cons_self)

end Blanks

section Items

variable {α : Type} {item : Reader α} {Item : α → Text → Prop} {Exceeds : Text → Prop}
  {close : Char} {t rest : Text} {a : α} {as : List α}

/-- The brackets that close containers. -/
def Closes (close : Char) : Prop := close ∈ [']', '\x7d']

theorem Closes.stops (h : Closes close) (rest : Text) : Stops (close :: rest) := by
  intro c hc
  rw [← Option.some.inj hc]
  exact Or.inr (List.mem_cons_of_mem _ h)

theorem Closes.not_isBlank (h : Closes close) : isBlank close = false := by
  simp only [Closes, List.mem_cons, List.not_mem_nil, or_false] at h
  rcases h with rfl | rfl <;> rfl

theorem Closes.ne_comma (h : Closes close) : close ≠ ',' := by
  simp only [Closes, List.mem_cons, List.not_mem_nil, or_false] at h
  rcases h with rfl | rfl <;> decide

theorem stops_comma (rest : Text) : Stops (',' :: rest) := by
  intro c hc
  rw [← Option.some.inj hc]
  exact Or.inr List.mem_cons_self

theorem SpellsItems.opens (hitem : ∀ {a w}, Item a w → Opens w) (h : SpellsItems Item close as t) :
    Opens t := by
  cases h with
  | last item before => exact (hitem item).append _
  | cons item before after rest => exact (hitem item).append _

theorem overruns_readItems_of_read (h : Overruns (item.read t)) (close : Char) :
    Overruns (readItems item close t) := by
  rcases h.exists_eq_error with hread | ⟨container, hread⟩ <;>
    rw [readItems_of_error hread] <;> trivial

/-- A list that begins with something other than its closing bracket is one of items. -/
theorem readList_of_opens (hclose : Closes close) {items : Text} (h : Opens items)
    (hskip : skipBlank t = items) : readList item close t = readItems item close items := by
  obtain ⟨c, u, rfl, -, hc⟩ := h
  have hne : c ≠ close := by
    rintro rfl
    exact hc (List.mem_append_left _ hclose)
  rw [readList, hskip]
  exact if_neg hne

theorem readList_of_close {close : Char} (h : skipBlank t = close :: rest) :
    readList item close t = .ok ([], rest) := by
  rw [readList, h]
  exact if_pos rfl

theorem readList_cases (item : Reader α) (close : Char) (t : Text) :
    (∃ rest, skipBlank t = close :: rest) ∨
      readList item close t = readItems item close (skipBlank t) := by
  unfold readList
  split
  · next hskip => exact Or.inr (by rw [hskip])
  · next c more hskip =>
    split
    · next hc => exact Or.inl ⟨more, hc ▸ hskip⟩
    · exact Or.inr (by rw [hskip])

variable (hmatches : Matches item Item Exceeds)

include hmatches

theorem exists_of_readItems (h : readItems item close t = .ok (as, rest)) :
    ∃ w, SpellsItems Item close as w ∧ t = w ++ rest := by
  fun_induction readItems item close t generalizing as with
  | case1 => cases h
  | case2 => cases h
  | case3 t a after hread _ more hafter =>
    cases h
    obtain ⟨w, hw, rfl⟩ := hmatches.exists_of_read hread
    obtain ⟨blanks, hblanks⟩ := exists_blanks after
    refine ⟨_, .last hw blanks, ?_⟩
    rw [hblanks, hafter]
    simp
  | case4 t a after hread _ more hafter _ ih =>
    obtain ⟨⟨items, _⟩, hitems, hpair⟩ := exists_of_map_eq_ok h
    cases hpair
    obtain ⟨w, hw, rfl⟩ := hmatches.exists_of_read hread
    obtain ⟨u, hu, hmore⟩ := ih hitems
    obtain ⟨before, hbefore⟩ := exists_blanks after
    obtain ⟨behind, hbehind⟩ := exists_blanks more
    refine ⟨_, .cons hw before behind hu, ?_⟩
    rw [hbefore, hafter, hbehind, hmore]
    simp
  | case5 => cases h

theorem readItems_append (hclose : Closes close) {w : Text} (h : SpellsItems Item close as w)
    (rest : Text) :
    readItems item close (w ++ rest) = .ok (as, rest) ∨
      Overruns (readItems item close (w ++ rest)) := by
  induction h with
  | @last a w hitem before =>
    rw [List.append_assoc, List.append_assoc, List.singleton_append]
    have hstops := stops_blanks before (hclose.stops rest)
    rcases hmatches.read_append hitem hstops with hread | hover
    · left
      exact readItems_of_close hread (skipBlank_solid before hclose.not_isBlank rest)
    · exact Or.inr (overruns_readItems_of_read hover close)
  | @cons a w as u hitem before after hrest ih =>
    simp only [List.append_assoc, List.cons_append]
    rcases hmatches.read_append hitem (stops_blanks before (stops_comma _)) with hread | hover
    · have hopens := (hrest.opens hmatches.opens).append rest
      rw [readItems_of_comma hread (skipBlank_solid before rfl _) hclose.ne_comma,
        skipBlank_opens after hopens, overruns_map]
      exact ih.imp_left fun hread => by rw [hread]; rfl
    · exact Or.inr (overruns_readItems_of_read hover close)

theorem ItemsExceed.opens (h : ItemsExceed Item Exceeds t) : Opens t := by
  cases h with
  | here item => exact hmatches.opens_of_exceeds item
  | later item before after rest => exact (hmatches.opens item).append _

theorem overruns_readItems_iff (hclose : Closes close) :
    Overruns (readItems item close t) ↔ ItemsExceed Item Exceeds t := by
  constructor
  · intro h
    fun_induction readItems item close t with
    | case1 t e hread => exact .here (hmatches.overruns_iff.1 (hread ▸ overruns_error h))
    | case2 => exact h.elim
    | case3 => exact h.elim
    | case4 t a after hread _ more hafter _ ih =>
      obtain ⟨w, hw, rfl⟩ := hmatches.exists_of_read hread
      obtain ⟨before, hbefore⟩ := exists_blanks after
      obtain ⟨behind, hbehind⟩ := exists_blanks more
      rw [hbefore, hafter, hbehind]
      exact .later hw before behind (ih (overruns_map.1 h))
    | case5 => exact h.elim
  · intro h
    induction h with
    | here hitem => exact overruns_readItems_of_read (hmatches.overruns_iff.2 hitem) close
    | @later a w t hitem before after hrest ih =>
      rcases hmatches.read_append hitem (stops_blanks before (stops_comma _)) with hread | hover
      · rw [readItems_of_comma hread (skipBlank_solid before rfl _) hclose.ne_comma,
          skipBlank_opens after (hrest.opens hmatches), overruns_map]
        exact ih
      · exact overruns_readItems_of_read hover close

theorem exists_of_readList (h : readList item close t = .ok (as, rest)) :
    ∃ w, SpellsList Item close as w ∧ t = w ++ rest := by
  obtain ⟨blanks, hblanks⟩ := exists_blanks t
  rcases readList_cases item close t with ⟨more, hskip⟩ | hlist
  · rw [readList_of_close hskip] at h
    cases h
    refine ⟨_, .empty blanks, ?_⟩
    rw [hblanks, hskip, List.append_assoc, List.singleton_append]
  · obtain ⟨w, hw, hitems⟩ := exists_of_readItems hmatches (hlist ▸ h)
    refine ⟨_, .filled blanks hw, ?_⟩
    rw [hblanks, hitems, List.append_assoc]

theorem readList_append (hclose : Closes close) {w : Text} (h : SpellsList Item close as w)
    (rest : Text) :
    readList item close (w ++ rest) = .ok (as, rest) ∨
      Overruns (readList item close (w ++ rest)) := by
  cases h with
  | empty blanks =>
    rw [List.append_assoc, List.singleton_append]
    exact Or.inl (readList_of_close (skipBlank_solid blanks hclose.not_isBlank rest))
  | @filled as t blanks hitems =>
    have hopens := (hitems.opens hmatches.opens).append rest
    rw [List.append_assoc, readList_of_opens hclose hopens (skipBlank_opens blanks hopens)]
    exact readItems_append hmatches hclose hitems rest

theorem overruns_readList_iff (hclose : Closes close) :
    Overruns (readList item close t) ↔ ListExceeds Item Exceeds t := by
  constructor
  · intro h
    obtain ⟨blanks, hblanks⟩ := exists_blanks t
    refine ⟨blanks, skipBlank t, hblanks, (overruns_readItems_iff hmatches hclose).1 ?_⟩
    rcases readList_cases item close t with ⟨more, hskip⟩ | hlist
    · rw [readList_of_close hskip] at h
      exact h.elim
    · exact hlist ▸ h
  · rintro ⟨blanks, items, rfl, hitems⟩
    have hopens := hitems.opens hmatches
    rw [readList_of_opens hclose hopens (skipBlank_opens blanks hopens)]
    exact (overruns_readItems_iff hmatches hclose).2 hitems

end Items

section Members

variable {value : Reader Json} {Value : Json → Text → Prop} {Exceeds : Text → Prop} {t rest : Text}

theorem keyText_append (key : List Glyph) (before after : Blanks) (t : Text) :
    keyText key before after ++ t =
      '"' :: (Glyph.closedText key ++ (before.text ++ ':' :: (after.text ++ t))) := by
  simp [keyText]

/-- Behind a key the value is read. -/
theorem readMember_key (key : List Glyph) (before after : Blanks) (h : Opens t) :
    readMember value (keyText key before after ++ t) =
      (value.read t).map fun (j, rest) => ((Glyph.decode key, j), rest) := by
  have hkey : readQuoted (keyText key before after ++ t) =
      .ok (Glyph.decode key, before.text ++ ':' :: (after.text ++ t)) := by
    rw [keyText_append, readQuoted_glyphs]
  have hcolon : skipBlank (before.text ++ ':' :: (after.text ++ t)) = ':' :: (after.text ++ t) :=
    skipBlank_solid before rfl _
  simp only [readMember, hkey, hcolon, if_true, skipBlank_opens after h]

/-- A member begins with a key, or it is refused. -/
theorem readMember_cases (value : Reader Json) (t : Text) :
    (∃ problem place, readMember value t = .error (.refused problem place)) ∨
      ∃ key before after u, t = keyText key before after ++ u ∧
        readMember value t = (value.read u).map fun (j, rest) => ((Glyph.decode key, j), rest) := by
  unfold readMember
  split
  · next e herror =>
    obtain ⟨problem, place, rfl⟩ := refused_of_readQuoted herror
    exact Or.inl ⟨problem, place, rfl⟩
  · next key afterKey hkey =>
    obtain ⟨glyphs, rfl, rfl⟩ := exists_of_readQuoted hkey
    split
    · exact Or.inl ⟨_, _, rfl⟩
    · next c rest hskip =>
      split
      · next hcolon =>
        obtain ⟨before, hbefore⟩ := exists_blanks afterKey
        obtain ⟨after, hafter⟩ := exists_blanks rest
        refine Or.inr ⟨glyphs, before, after, skipBlank rest, ?_, rfl⟩
        rw [keyText_append, ← hafter, ← hcolon, ← hskip, ← hbefore]
      · exact Or.inl ⟨_, _, rfl⟩

theorem matches_member (h : Matches value Value Exceeds) :
    Matches (member value) (SpellsMember Value) (MemberExceeds Exceeds) where
  opens := by
    rintro m w ⟨key, before, after, hvalue⟩
    exact ⟨'"', _, rfl, by decide, by decide⟩
  opens_of_exceeds := by
    rintro t ⟨key, before, after, u, rfl, -⟩
    exact ⟨'"', _, rfl, by decide, by decide⟩
  exists_of_read := by
    intro t m rest hread
    rcases readMember_cases value t with
      ⟨problem, place, herror⟩ | ⟨key, before, after, u, rfl, hmember⟩
    · cases herror.symm.trans hread
    · obtain ⟨⟨j, _⟩, hvalue, hpair⟩ := exists_of_map_eq_ok (hmember.symm.trans hread)
      cases hpair
      obtain ⟨w, hw, rfl⟩ := h.exists_of_read hvalue
      exact ⟨_, .mk key before after hw, (List.append_assoc _ _ _).symm⟩
  read_append := by
    rintro m w rest ⟨key, before, after, hvalue⟩ hstops
    change readMember value _ = _ ∨ Overruns (readMember value _)
    rw [List.append_assoc, readMember_key key before after ((h.opens hvalue).append rest),
      overruns_map]
    exact (h.read_append hvalue hstops).imp_left fun hread => by rw [hread]; rfl
  overruns_iff := by
    intro t
    constructor
    · intro hover
      change Overruns (readMember value t) at hover
      rcases readMember_cases value t with
        ⟨problem, place, herror⟩ | ⟨key, before, after, u, rfl, hmember⟩
      · rw [herror] at hover
        exact hover.elim
      · rw [hmember, overruns_map, h.overruns_iff] at hover
        exact ⟨key, before, after, u, rfl, hover⟩
    · rintro ⟨key, before, after, u, rfl, hexceeds⟩
      change Overruns (readMember value _)
      rw [readMember_key key before after (h.opens_of_exceeds hexceeds), overruns_map]
      exact h.overruns_iff.2 hexceeds

end Members

end Parlance.Json
