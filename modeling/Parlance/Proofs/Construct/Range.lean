import Parlance.Proofs.Construct.Reading
/-!
Constructs and branches between two places of a pattern. The text around a part has no say in what
is read from the part: a pattern is taken as what stands before the part, the part and what stands
after it, and what is left is the part marked alone (contentBetween_cut, looksLike_cut,
branchesBetween_cut).
-/

namespace Parlance.Construct

open Brace

section Places

variable {before cut after : Text} {start stop : Int}

/-- A character of a pattern is found at its place. -/
theorem exists_charAt_mark {t : Text} {n : Nat} {c : Char} {place : Int} (hplace : place = n)
    (hc : t[n]? = some c) : ∃ m, charAt (mark t) place = .ok m ∧ m.char = c := by
  have hmark : ((mark t)[n]?).map Mark.char = some c := by
    rw [← List.getElem?_map, ← hc]
    exact congrArg (·[n]?) (text_mark t)
  obtain ⟨m, hm, hchar⟩ := Option.map_eq_some_iff.1 hmark
  refine ⟨m, ?_, hchar⟩
  have hin : placeIn (mark t) place = n := by
    rw [placeIn, if_neg (by omega), hplace]
  rw [charAt, hin, if_neg (by omega), Int.toNat_natCast, hm]

/-- A part is marked in place like the part alone, but for groups that go beyond its end. -/
theorem clip_range (hstart : start = before.length)
    (hstop : stop = (before.length + cut.length : Nat)) :
    (Marks.range (mark (before ++ (cut ++ after))) start stop).clip = mark cut := by
  have hlength : stop.toNat - start.toNat = cut.length := by omega
  rw [Marks.range, Marks.slice, hlength, hstart, Int.toNat_natCast, mark_drop, List.drop_left,
    clip_take_mark]

theorem text_range_cut (hstart : start = before.length)
    (hstop : stop = (before.length + cut.length : Nat)) :
    Marks.text (Marks.range (mark (before ++ (cut ++ after))) start stop) = cut := by
  rw [← Marks.text_clip, clip_range hstart hstop, text_mark]

theorem range_eq_nil {ms : Marks} (h : stop ≤ start) : ms.range start stop = [] := by
  rw [Marks.range, Marks.slice, Nat.sub_eq_zero_of_le (Int.toNat_le_toNat h), List.take_zero]

/-- A text has a first and a last character that are not one, unless it is too short. -/
theorem short_or_ends (t : Text) : t.length < 2 ∨ ∃ c body d, t = c :: (body ++ [d]) := by
  rcases t with _ | ⟨c, t⟩
  · exact .inl (by decide)
  · rcases List.eq_nil_or_concat' t with rfl | ⟨body, d, rfl⟩
    · exact .inl (Nat.lt_succ_self 1)
    · exact .inr ⟨c, body, d, rfl⟩

/-- What stands between the first and the last character of a part is marked likewise. -/
theorem clip_range_inside (hstart : start = before.length)
    (hstop : stop = (before.length + cut.length : Nat)) :
    (Marks.range (mark (before ++ (cut ++ after))) (start + 1) (stop - 1)).clip =
      mark (cut.drop 1).dropLast := by
  rcases short_or_ends cut with hshort | ⟨c, body, d, rfl⟩
  · have hinside : (cut.drop 1).dropLast = [] := by
      apply List.eq_nil_of_length_eq_zero
      rw [List.length_dropLast, List.length_drop]
      omega
    rw [range_eq_nil (by omega), hinside]
    rfl
  · have hsplit : before ++ (c :: (body ++ [d]) ++ after) =
        before ++ [c] ++ (body ++ d :: after) := by
      simp
    have hinside : ((c :: (body ++ [d])).drop 1).dropLast = body := by
      simp
    simp only [List.length_cons, List.length_append, List.length_nil] at hstop
    have hfirst : start + 1 = (before ++ [c]).length := by
      simp only [List.length_append, List.length_singleton]
      omega
    have hlast : stop - 1 = ((before ++ [c]).length + body.length : Nat) := by
      simp only [List.length_append, List.length_singleton]
      omega
    rw [hsplit, hinside, clip_range hfirst hlast]

/-- A text that is too short for two braces has no inside. -/
theorem interior?_eq_none {t : Text} (h : t.length < 2) : interior? (mark t) = none := by
  cases hinner : interior? (mark t) with
  | none => rfl
  | some inner =>
    obtain ⟨body, rfl, -⟩ := exists_body_of_interior? hinner
    simp only [List.length_cons, List.length_append] at h
    omega

/-- A text of two characters or more is read by what stands between the two, if they are braces. -/
theorem readGroup_mark (c : Char) (body : Text) (d : Char) :
    (interior? (mark (c :: (body ++ [d])))).bind ofInterior? =
      if c = '{' ∧ d = '}' then ofInterior? (mark body) else none := by
  split
  · next h =>
    obtain ⟨rfl, rfl⟩ := h
    rw [interior?_braces, Option.bind_some, ofInterior?_take_mark]
  · next h =>
    cases hinner : interior? (mark (c :: (body ++ [d]))) with
    | none => rfl
    | some inner =>
      obtain ⟨body', hsource, -⟩ := exists_body_of_interior? hinner
      obtain ⟨rfl, hbody⟩ := List.cons.inj hsource
      obtain ⟨-, hlast⟩ := List.append_inj' hbody rfl
      exact absurd ⟨rfl, (List.cons.inj hlast).1⟩ h

/-- Between two places of a pattern stands the construct that the text between them is. -/
theorem contentBetween_cut (hstart : start = before.length)
    (hstop : stop = (before.length + cut.length : Nat)) :
    contentBetween (mark (before ++ (cut ++ after))) start stop =
      .ok ((interior? (mark cut)).bind ofInterior?) := by
  rcases short_or_ends cut with hshort | ⟨c, body, d, rfl⟩
  · rw [contentBetween, if_pos (by omega), interior?_eq_none hshort]
    rfl
  · have hopen : (before ++ (c :: (body ++ [d]) ++ after))[before.length]? = some c := by
      simp
    have hclose : (before ++ (c :: (body ++ [d]) ++ after))[before.length + 1 + body.length]? =
        some d := by
      rw [List.getElem?_append_right (by omega)]
      simp [Nat.add_assoc, Nat.add_comm 1]
    have hbody : ((c :: (body ++ [d])).drop 1).dropLast = body := by
      simp
    have hinside : ofInterior? (Marks.range (mark (before ++ (c :: (body ++ [d]) ++ after)))
        (start + 1) (stop - 1)) = ofInterior? (mark body) := by
      rw [← ofInterior?_clip, clip_range_inside hstart hstop, hbody]
    simp only [List.length_cons, List.length_append, List.length_nil] at hstop
    have hplace : stop - 1 = (before.length + 1 + body.length : Nat) := by omega
    obtain ⟨first, hfirst, rfl⟩ := exists_charAt_mark hstart hopen
    obtain ⟨last, hlast, rfl⟩ := exists_charAt_mark hplace hclose
    rw [contentBetween, if_neg (by omega), hfirst, hlast, hinside, readGroup_mark]
    by_cases hbrace : first.char = '{'
    · by_cases hend : last.char = '}'
      · simp [hbrace, hend, bind, Except.bind, pure, Except.pure]
      · simp [hbrace, hend, bind, Except.bind, pure, Except.pure]
    · simp [hbrace, bind, Except.bind, pure, Except.pure]

/-- A header is looked for between the outer characters of a text, whatever these are. -/
theorem looksLike_cut (hstart : start = before.length)
    (hstop : stop = (before.length + cut.length : Nat)) :
    looksLike (mark (before ++ (cut ++ after))) start stop =
      .ok (resembles (mark (cut.drop 1).dropLast)) := by
  have hlength : ¬((mark (before ++ (cut ++ after))).length : Int) < stop - 1 := by
    rw [length_mark]
    simp only [List.length_append]
    omega
  rw [← clip_range_inside hstart hstop, resembles_clip, looksLike, resembles]
  cases Header.read? (Marks.range (mark (before ++ (cut ++ after))) (start + 1) (stop - 1)) with
  | none => rfl
  | some header => exact if_neg fun h => hlength h.2

end Places

section Branches

/-- A branch of a text that stands further on. -/
def PlacedBranch.shift (b : PlacedBranch) (offset : Nat) : PlacedBranch :=
  { b with start := b.start + offset }

theorem BranchForm.placed_add (pos offset : Nat) (forms : List BranchForm) :
    placed (pos + offset) forms = (placed pos forms).map (·.shift offset) := by
  induction forms generalizing pos with
  | nil => rfl
  | cons b forms ih =>
    have hnext : pos + offset + b.text.length = pos + b.text.length + offset := by omega
    have hbody : pos + offset + (b.label.text.length + b.gap.text.length) + 1 =
        pos + (b.label.text.length + b.gap.text.length) + 1 + offset := by omega
    rw [placed, placed, List.map_cons, hnext, ih, hbody]
    rfl

/-- Where a list of branches stands changes nothing but the places of the bodies. -/
theorem branchList?_shift (offset : Nat) (t : Text) :
    branchList? offset (mark t) =
      (branchList? 0 (mark t)).map (List.map (·.shift offset)) := by
  ext bs
  rw [branchList?_mark_iff, Option.map_eq_some_iff]
  constructor
  · rintro ⟨l, rfl, rfl⟩
    refine ⟨_, branchList?_mark 0 l, ?_⟩
    rw [← BranchForm.placed_add, Nat.zero_add, Nat.add_comm]
  · rintro ⟨bs, hbs, rfl⟩
    obtain ⟨l, rfl, rfl⟩ := branchList?_mark_iff.1 hbs
    refine ⟨l, rfl, ?_⟩
    rw [← BranchForm.placed_add, Nat.zero_add, Nat.add_comm]

variable {before cut after : Text} {start stop : Int}

theorem branchesBetween_cut (hstart : start = before.length)
    (hstop : stop = (before.length + cut.length : Nat)) :
    branchesBetween (mark (before ++ (cut ++ after))) start stop =
      .ok (branchList? before.length (mark cut)) := by
  have hslice : (Marks.slice (mark (before ++ (cut ++ after))) start.toNat stop.toNat).clip =
      mark cut := clip_range hstart hstop
  have hlength : ¬(mark (before ++ (cut ++ after))).length < stop.toNat := by
    rw [length_mark]
    simp only [List.length_append]
    omega
  have hplace : start.toNat = before.length := by omega
  rw [branchesBetween, if_pos (by omega), branchesFrom, if_neg (by omega), ← readBranches_clip,
    hslice, hplace, branchList?]
  cases readBranches before.length (mark cut) with
  | error e => cases e <;> simp [hlength]
  | ok bs => cases bs <;> simp [hlength]

end Branches

end Parlance.Construct
