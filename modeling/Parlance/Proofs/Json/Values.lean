import Parlance.Proofs.Json.Reading
/-!
Documents are read by their grammar. A text is read as a value exactly if it is a document of the
value and not excessive (ofText_eq_ok_iff); reading stops at what asks for too much exactly if the
text is excessive (overruns_ofText_iff), and all else is refused (ofText_refused). The induction is
on how deep containers may still stand inside each other (matches_value).
-/

namespace Parlance.Json

section Values

variable {inner? : Option (Reader Json)} {inner : Reader Json} {t rest : Text} {j : Json}

theorem readValue_quote (inner? : Option (Reader Json)) (t : Text) :
    readValue inner? ('"' :: t) =
      (readCharacters ('"' :: t) t).map fun (s, rest) => (.text s, rest) :=
  rfl

theorem readValue_array (inner : Reader Json) (t : Text) :
    readValue (some inner) ('[' :: t) =
      (readList inner ']' t).map fun (items, rest) => (.array items, rest) :=
  rfl

theorem readValue_object (inner : Reader Json) (t : Text) :
    readValue (some inner) ('\x7b' :: t) =
      (readList (member inner) '\x7d' t).map fun (members, rest) => (.object members, rest) :=
  rfl

/-- A value that is neither a text nor a container is a word or a number. -/
theorem readValue_of_not_mem {c : Char} (h : c ∉ ['"', '\x7b', '[']) (t : Text) :
    readValue inner? (c :: t) = (readWord? (c :: t)).elim (readNumber (c :: t)) .ok := by
  simp only [List.mem_cons, List.not_mem_nil, or_false, not_or] at h
  simp only [readValue, if_neg h.1, if_neg h.2.1, if_neg h.2.2]
  cases readWord? (c :: t) <;> rfl

theorem readValue_word {word : String} (h : (word, j) ∈ words) (inner? : Option (Reader Json))
    (rest : Text) : readValue inner? (word.toList ++ rest) = .ok (j, rest) := by
  simp only [words, List.mem_cons, Prod.mk.injEq, List.not_mem_nil, or_false] at h
  rcases h with ⟨rfl, rfl⟩ | ⟨rfl, rfl⟩ | ⟨rfl, rfl⟩ | ⟨rfl, rfl⟩ | ⟨rfl, rfl⟩ | ⟨rfl, rfl⟩ <;> rfl

theorem exists_of_readWord? (h : readWord? t = some (j, rest)) :
    ∃ word : String, (word, j) ∈ words ∧ t = word.toList ++ rest := by
  obtain ⟨⟨word, j⟩, hfind, hpair⟩ := Option.map_eq_some_iff.1 h
  cases hpair
  have hprefix := List.find?_some hfind
  obtain ⟨rest, rfl⟩ := List.isPrefixOf_iff_prefix.1 hprefix
  refine ⟨word, List.mem_of_find?_eq_some hfind, ?_⟩
  rw [← String.length_toList, List.drop_left]

/-- A number begins with a digit, or with a digit behind a minus sign. -/
theorem Numeral.text_cases (n : Numeral) (rest : Text) :
    ∃ c u, c.isDigit ∧ (n.text ++ rest = c :: u ∨ n.text ++ rest = '-' :: c :: u) := by
  obtain ⟨c, digits, hdigits⟩ := List.exists_cons_of_ne_nil n.whole.text_ne_nil
  have hc : c.isDigit := n.whole.all c (hdigits ▸ List.mem_cons_self)
  refine ⟨c, digits ++ (n.fraction ++ n.exponent) ++ rest, hc, ?_⟩
  rw [Numeral.text, Numeral.sign, hdigits]
  cases n.negative with
  | false => exact Or.inl rfl
  | true => exact Or.inr rfl

/-- No word begins like a number. -/
theorem readWord?_number (n : Numeral) (rest : Text) : readWord? (n.text ++ rest) = none := by
  have hwords : ∀ word ∈ words, ∃ c d u, word.1.toList = c :: d :: u ∧
      c.isDigit = false ∧ d.isDigit = false := by
    simp only [words, List.forall_mem_cons]
    refine ⟨?_, ?_, ?_, ?_, ?_, ?_, fun word h => absurd h List.not_mem_nil⟩ <;>
      exact ⟨_, _, _, rfl, rfl, rfl⟩
  have hnone : words.find? (fun w => w.1.toList.isPrefixOf (n.text ++ rest)) = none := by
    rw [List.find?_eq_none]
    intro word hword hprefix
    obtain ⟨x, y, u, hspelling, hx, hy⟩ := hwords word hword
    obtain ⟨c, v, hc, ht⟩ := n.text_cases rest
    rw [hspelling, List.isPrefixOf_iff_prefix] at hprefix
    rcases ht with ht | ht <;> rw [ht] at hprefix
    · rw [(List.cons_prefix_cons.1 hprefix).1, hc] at hx
      contradiction
    · rw [(List.cons_prefix_cons.1 (List.cons_prefix_cons.1 hprefix).2).1, hc] at hy
      contradiction
  rw [readWord?, hnone]
  rfl

theorem readValue_number (inner? : Option (Reader Json)) (n : Numeral) (rest : Text) :
    readValue inner? (n.text ++ rest) = readNumber (n.text ++ rest) := by
  have hword := readWord?_number n rest
  obtain ⟨c, u, hc, ht⟩ := n.text_cases rest
  rcases ht with ht | ht <;> rw [ht] at hword ⊢
  · rw [readValue_of_not_mem, hword, Option.elim_none]
    intro hmem
    simp only [List.mem_cons, List.not_mem_nil, or_false] at hmem
    rcases hmem with rfl | rfl | rfl <;> exact absurd hc (by decide)
  · rw [readValue_of_not_mem (by decide), hword, Option.elim_none]

theorem Numeral.opens (n : Numeral) (rest : Text) : Opens (n.text ++ rest) := by
  obtain ⟨c, u, hc, ht | ht⟩ := n.text_cases rest
  · refine ⟨c, u, ht, ?_, ?_⟩
    · rw [← Bool.not_eq_true]
      intro hblank
      simp only [isBlank, Bool.or_eq_true, beq_iff_eq] at hblank
      rcases hblank with ((rfl | rfl) | rfl) | rfl <;> exact absurd hc (by decide)
    · intro hmem
      simp only [List.mem_cons, List.not_mem_nil, or_false] at hmem
      rcases hmem with rfl | rfl | rfl <;> exact absurd hc (by decide)
  · exact ⟨'-', _, ht, by decide, by decide⟩

theorem Spells.opens {w : Text} (h : Spells j w) : Opens w := by
  cases h with
  | word hword =>
    simp only [words, List.mem_cons, Prod.mk.injEq, List.not_mem_nil, or_false] at hword
    rcases hword with ⟨rfl, -⟩ | ⟨rfl, -⟩ | ⟨rfl, -⟩ | ⟨rfl, -⟩ | ⟨rfl, -⟩ | ⟨rfl, -⟩ <;>
      exact ⟨_, _, rfl, by decide, by decide⟩
  | number n => simpa using n.opens []
  | text glyphs => exact ⟨_, _, rfl, by decide, by decide⟩
  | array list => exact ⟨_, _, rfl, by decide, by decide⟩
  | object list => exact ⟨_, _, rfl, by decide, by decide⟩

theorem OversizedAhead.opens (h : OversizedAhead t) : Opens t := by
  obtain ⟨n, rest, -, -, rfl⟩ := h
  exact n.opens rest

theorem Exceeds.opens {depth : Nat} (h : Exceeds depth t) : Opens t := by
  cases depth with
  | zero =>
    rcases h with hoversized | ⟨c, hc, ht⟩
    · exact hoversized.opens
    · obtain ⟨u, rfl⟩ := List.head?_eq_some_iff.1 ht
      simp only [List.mem_cons, List.not_mem_nil, or_false] at hc
      rcases hc with rfl | rfl <;> exact ⟨_, _, rfl, by decide, by decide⟩
  | succ depth =>
    rcases h with hoversized | ⟨items, rfl, -⟩ | ⟨members, rfl, -⟩
    · exact hoversized.opens
    · exact ⟨_, _, rfl, by decide, by decide⟩
    · exact ⟨_, _, rfl, by decide, by decide⟩

/-- Nothing that stops goes on with a number. -/
theorem Stops.endsNumber (h : Stops t) : EndsNumber t := by
  have hmem : ∀ c ∈ t.head?, c ∈ [' ', '\t', '\n', '\r', ',', ']', '\x7d'] := by
    intro c hc
    rcases h c hc with hblank | hclose
    · simp only [isBlank, Bool.or_eq_true, beq_iff_eq] at hblank
      rcases hblank with ((rfl | rfl) | rfl) | rfl <;> decide
    · exact List.mem_append_right [' ', '\t', '\n', '\r'] hclose
  have hdigit : [' ', '\t', '\n', '\r', ',', ']', '\x7d'].all (!·.isDigit) := rfl
  refine ⟨fun c hc => by simpa using List.all_eq_true.1 hdigit c (hmem c hc), ?_, ?_⟩
  · rintro digits ⟨rest, rfl⟩
    exact absurd (hmem '.' rfl) (by decide)
  · rintro e ⟨rest, rfl⟩
    have hletter := hmem e.letter rfl
    rcases e.isLetter with he | he <;> rw [he] at hletter <;> exact absurd hletter (by decide)

/-- What the first character of a value may be. -/
theorem head_cases (t : Text) :
    t = [] ∨ (∃ u, t = '"' :: u) ∨ (∃ u, t = '[' :: u) ∨ (∃ u, t = '\x7b' :: u) ∨
      ∃ c u, t = c :: u ∧ c ∉ ['"', '\x7b', '['] := by
  cases t with
  | nil => exact Or.inl rfl
  | cons c u =>
    by_cases hmem : c ∈ ['"', '\x7b', '[']
    · simp only [List.mem_cons, List.not_mem_nil, or_false] at hmem
      rcases hmem with rfl | rfl | rfl
      · exact Or.inr (Or.inl ⟨u, rfl⟩)
      · exact Or.inr (Or.inr (Or.inr (Or.inl ⟨u, rfl⟩)))
      · exact Or.inr (Or.inr (Or.inl ⟨u, rfl⟩))
    · exact Or.inr (Or.inr (Or.inr (Or.inr ⟨c, u, rfl, hmem⟩)))

section Containers

variable {Exceeds : Text → Prop} (hinner : ∀ inner ∈ inner?, Matches inner Spells Exceeds)

include hinner

/-- What is read is spelled. -/
theorem exists_of_readValue (h : readValue inner? t = .ok (j, rest)) :
    ∃ w, Spells j w ∧ t = w ++ rest := by
  rcases head_cases t with rfl | ⟨u, rfl⟩ | ⟨u, rfl⟩ | ⟨u, rfl⟩ | ⟨c, u, rfl, hc⟩
  · cases h
  · rw [readValue_quote] at h
    obtain ⟨⟨s, _⟩, hread, hpair⟩ := exists_of_map_eq_ok h
    cases hpair
    obtain ⟨glyphs, rfl, rfl⟩ := exists_glyphs hread
    exact ⟨_, .text glyphs, rfl⟩
  · cases inner? with
    | none => cases h
    | some inner =>
      rw [readValue_array] at h
      obtain ⟨⟨items, _⟩, hread, hpair⟩ := exists_of_map_eq_ok h
      cases hpair
      obtain ⟨w, hw, rfl⟩ := exists_of_readList (hinner inner rfl) hread
      exact ⟨_, .array hw, rfl⟩
  · cases inner? with
    | none => cases h
    | some inner =>
      rw [readValue_object] at h
      obtain ⟨⟨members, _⟩, hread, hpair⟩ := exists_of_map_eq_ok h
      cases hpair
      obtain ⟨w, hw, rfl⟩ := exists_of_readList (matches_member (hinner inner rfl)) hread
      exact ⟨_, .object hw, rfl⟩
  · rw [readValue_of_not_mem hc] at h
    cases hword : readWord? (c :: u) with
    | some found =>
      rw [hword] at h
      cases h
      obtain ⟨word, hmem, ht⟩ := exists_of_readWord? hword
      exact ⟨_, .word hmem, ht⟩
    | none =>
      rw [hword] at h
      obtain ⟨n, rfl, ht⟩ := exists_of_readNumber h
      exact ⟨_, .number n, ht⟩

theorem readValue_append {w : Text} (h : Spells j w) (hstops : Stops rest) :
    readValue inner? (w ++ rest) = .ok (j, rest) ∨ Overruns (readValue inner? (w ++ rest)) := by
  cases h with
  | word hmem => exact Or.inl (readValue_word hmem inner? rest)
  | number n =>
    rw [readValue_number, readNumber_append n hstops.endsNumber]
    split
    · exact Or.inr trivial
    · exact Or.inl rfl
  | text glyphs =>
    left
    rw [List.cons_append, readValue_quote, readCharacters_glyphs]
    rfl
  | array list =>
    cases inner? with
    | none => exact Or.inr trivial
    | some inner =>
      rw [List.cons_append, readValue_array, overruns_map]
      refine (readList_append (hinner inner rfl) ?_ list rest).imp_left fun hread => ?_
      · exact List.mem_cons_self
      · rw [hread]
        rfl
  | object list =>
    cases inner? with
    | none => exact Or.inr trivial
    | some inner =>
      rw [List.cons_append, readValue_object, overruns_map]
      refine (readList_append (matches_member (hinner inner rfl)) ?_ list rest).imp_left
        fun hread => ?_
      · exact List.mem_cons_of_mem _ List.mem_cons_self
      · rw [hread]
        rfl

end Containers

theorem overruns_readNumber_iff : Overruns (readNumber t) ↔ OversizedAhead t := by
  rw [OversizedAhead, ← readNumber_eq_oversized_iff]
  constructor
  · intro hover
    rcases hover.exists_eq_error with hread | ⟨container, hread⟩
    · exact hread
    · rcases readNumber_eq_error hread with ⟨problem, place, he⟩ | he <;> cases he
  · intro hread
    rw [hread]
    trivial

theorem not_oversizedAhead {c : Char} (hc : c ∈ ['[', '\x7b']) (t : Text) :
    ¬OversizedAhead (c :: t) := by
  rintro ⟨n, rest, -, -, ht⟩
  simp only [List.mem_cons, List.not_mem_nil, or_false] at hc
  obtain ⟨d, u, hd, hn | hn⟩ := n.text_cases rest <;> rw [hn, List.cons.injEq] at ht
  · rw [← ht.1] at hd
    rcases hc with rfl | rfl <;> exact absurd hd (by decide)
  · rcases hc with rfl | rfl <;> exact absurd ht.1 (by decide)

/-- Outside of containers a value overruns only as an oversized integer. -/
theorem overruns_readValue_iff (h : ¬∃ c ∈ ['[', '\x7b'], t.head? = some c) :
    Overruns (readValue inner? t) ↔ OversizedAhead t := by
  constructor
  · intro hover
    rcases head_cases t with rfl | ⟨u, rfl⟩ | ⟨u, rfl⟩ | ⟨u, rfl⟩ | ⟨c, u, rfl, hc⟩
    · exact hover.elim
    · rw [readValue_quote, overruns_map] at hover
      exact absurd hover (not_overruns_of_refused fun _ => refused_of_readCharacters)
    · exact absurd ⟨'[', by decide, rfl⟩ h
    · exact absurd ⟨'\x7b', by decide, rfl⟩ h
    · rw [readValue_of_not_mem hc] at hover
      cases hword : readWord? (c :: u) with
      | some found =>
        rw [hword, Option.elim_some] at hover
        exact hover.elim
      | none =>
        rw [hword, Option.elim_none] at hover
        exact overruns_readNumber_iff.1 hover
  · intro hoversized
    have hover := overruns_readNumber_iff.2 hoversized
    obtain ⟨n, rest, -, -, rfl⟩ := hoversized
    rwa [readValue_number]

/-- A container that may not stand here is too deep. -/
theorem overruns_readValue_none :
    Overruns (readValue none t) ↔ Exceeds 0 t := by
  by_cases h : ∃ c ∈ ['[', '\x7b'], t.head? = some c
  · refine iff_of_true ?_ (Or.inr h)
    obtain ⟨c, hc, ht⟩ := h
    obtain ⟨u, rfl⟩ := List.head?_eq_some_iff.1 ht
    simp only [List.mem_cons, List.not_mem_nil, or_false] at hc
    rcases hc with rfl | rfl <;> trivial
  · exact (overruns_readValue_iff h).trans (or_iff_left h).symm

/-- A container overruns where one of its items does. -/
theorem overruns_readValue_some {depth : Nat} (h : Matches inner Spells (Exceeds depth)) :
    Overruns (readValue (some inner) t) ↔ Exceeds (depth + 1) t := by
  have harray (u : Text) : Overruns (readValue (some inner) ('[' :: u)) ↔
      ListExceeds Spells (Exceeds depth) u := by
    rw [readValue_array, overruns_map, overruns_readList_iff h List.mem_cons_self]
  have hobject (u : Text) : Overruns (readValue (some inner) ('\x7b' :: u)) ↔
      ListExceeds (SpellsMember Spells) (MemberExceeds (Exceeds depth)) u := by
    rw [readValue_object, overruns_map, overruns_readList_iff (matches_member h)]
    exact List.mem_cons_of_mem _ List.mem_cons_self
  constructor
  · intro hover
    by_cases hopen : ∃ c ∈ ['[', '\x7b'], t.head? = some c
    · obtain ⟨c, hc, ht⟩ := hopen
      obtain ⟨u, rfl⟩ := List.head?_eq_some_iff.1 ht
      simp only [List.mem_cons, List.not_mem_nil, or_false] at hc
      rcases hc with rfl | rfl
      · exact Or.inr (Or.inl ⟨u, rfl, (harray u).1 hover⟩)
      · exact Or.inr (Or.inr ⟨u, rfl, (hobject u).1 hover⟩)
    · exact Or.inl ((overruns_readValue_iff hopen).1 hover)
  · rintro (hoversized | ⟨items, rfl, hitems⟩ | ⟨members, rfl, hmembers⟩)
    · refine (overruns_readValue_iff ?_).2 hoversized
      rintro ⟨c, hc, ht⟩
      obtain ⟨u, rfl⟩ := List.head?_eq_some_iff.1 ht
      exact not_oversizedAhead hc u hoversized
    · exact (harray items).2 hitems
    · exact (hobject members).2 hmembers

end Values

section Documents

/-- Values are read as they are spelled, as deep as containers may stand inside each other. -/
theorem matches_value (depth : Nat) : Matches (value depth) Spells (Exceeds depth) := by
  induction depth with
  | zero =>
    have hnone : ∀ inner ∈ (none : Option (Reader Json)), Matches inner Spells (Exceeds 0) :=
      fun inner h => nomatch h
    exact ⟨Spells.opens, Exceeds.opens, exists_of_readValue hnone, readValue_append hnone,
      overruns_readValue_none⟩
  | succ depth ih =>
    have hsome : ∀ inner ∈ some (value depth), Matches inner Spells (Exceeds depth) := by
      intro inner h
      rw [← Option.some.inj h]
      exact ih
    exact ⟨Spells.opens, Exceeds.opens, exists_of_readValue hsome, readValue_append hsome,
      overruns_readValue_some ih⟩

variable {limit : Limit} {t : Text} {j : Json}

theorem head?_ne_mark (before : Blanks) {u : Text} (h : Opens u) :
    (before.text ++ u).head? ≠ some '\uFEFF' := by
  obtain ⟨_ | ⟨c, blanks⟩, hall⟩ := before
  · obtain ⟨c, rest, rfl, -, hc⟩ := h
    intro hmark
    rw [Option.some.inj hmark] at hc
    exact absurd hc (by decide)
  · intro hmark
    have hblank := hall c List.mem_cons_self
    rw [Option.some.inj hmark] at hblank
    exact absurd hblank (by decide)

/-- Behind its first blanks a document is read up to the blanks at its end. -/
theorem ofText_eq_ok (before : Blanks) {u : Text} (h : Opens u) (after : Blanks)
    (hread : (value limit.depth).read u = .ok (j, after.text)) :
    ofText limit (before.text ++ u) = .ok j := by
  have hafter : skipBlank after.text = [] := by
    rw [← List.append_nil after.text, skipBlank_blanks]
    rfl
  rw [ofText, if_neg (head?_ne_mark before h), skipBlank_opens before h, hread]
  simp only [hafter, List.isEmpty_nil, if_true]

theorem ofText_eq_error (before : Blanks) {u : Text} (h : Opens u) {e : ReadError}
    (hread : (value limit.depth).read u = .error e) :
    ofText limit (before.text ++ u) = .error e := by
  rw [ofText, if_neg (head?_ne_mark before h), skipBlank_opens before h, hread]

theorem overruns_ofText_of_read (before : Blanks) {u : Text} (h : Opens u)
    (hover : Overruns ((value limit.depth).read u)) :
    Overruns (ofText limit (before.text ++ u)) := by
  rcases hover.exists_eq_error with hread | ⟨container, hread⟩ <;>
    rw [ofText_eq_error before h hread] <;> trivial

/-- What is read is a document. -/
theorem exists_of_ofText (h : ofText limit t = .ok j) : Document j t := by
  unfold ofText at h
  split at h
  · cases h
  · split at h
    · cases h
    · next j' rest hread =>
      split at h
      · next hempty =>
        cases h
        obtain ⟨w, hw, ht⟩ := (matches_value limit.depth).exists_of_read hread
        obtain ⟨before, hbefore⟩ := exists_blanks t
        obtain ⟨after, hafter⟩ := exists_blanks rest
        refine ⟨before, w, after, ?_, hw⟩
        rw [List.isEmpty_iff.1 hempty, List.append_nil] at hafter
        rw [hbefore, ht, hafter]
      · cases h

theorem ofText_document (h : Document j t) :
    ofText limit t = .ok j ∨ Overruns (ofText limit t) := by
  obtain ⟨before, w, after, rfl, hw⟩ := h
  have hopens := hw.opens.append after.text
  have hstops : Stops after.text := by
    simpa using stops_blanks (t := []) after fun c hc => nomatch hc
  rcases (matches_value limit.depth).read_append hw hstops with hread | hover
  · exact Or.inl (ofText_eq_ok before hopens after hread)
  · exact Or.inr (overruns_ofText_of_read before hopens hover)

theorem overruns_ofText_iff : Overruns (ofText limit t) ↔ Excessive limit t := by
  constructor
  · intro hover
    obtain ⟨before, hbefore⟩ := exists_blanks t
    refine ⟨before, skipBlank t, hbefore, (matches_value limit.depth).overruns_iff.1 ?_⟩
    unfold ofText at hover
    split at hover
    · exact hover.elim
    · split at hover
      · next e hread => exact hread ▸ overruns_error hover
      · split at hover <;> exact hover.elim
  · rintro ⟨before, u, rfl, hexceeds⟩
    have hover := (matches_value limit.depth).overruns_iff.2 hexceeds
    exact overruns_ofText_of_read before hexceeds.opens hover

/-- A text is read as a value exactly if it is a document of the value and not excessive. -/
theorem ofText_eq_ok_iff : ofText limit t = .ok j ↔ Document j t ∧ ¬Excessive limit t := by
  rw [← overruns_ofText_iff]
  constructor
  · intro h
    refine ⟨exists_of_ofText h, fun hover => ?_⟩
    rw [h] at hover
    exact hover
  · rintro ⟨hdocument, hover⟩
    exact (ofText_document hdocument).resolve_right hover

/-- A text that is no document and not excessive is refused. -/
theorem ofText_refused (hnone : ∀ j, ¬Document j t) (h : ¬Excessive limit t) :
    ∃ problem place, ofText limit t = .error (.refused problem place) := by
  rw [← overruns_ofText_iff] at h
  rcases hread : ofText limit t with (⟨problem, place⟩ | _ | container) | j <;> rw [hread] at h
  · exact ⟨problem, place, rfl⟩
  · exact absurd trivial h
  · exact absurd trivial h
  · exact absurd (exists_of_ofText hread) (hnone j)

end Documents

end Parlance.Json
