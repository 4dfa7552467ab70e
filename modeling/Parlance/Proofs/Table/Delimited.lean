import Parlance.Table.Delimited.Reading
/-!
Delimited text is read back as it was written (read_write). Reading takes one character after the
other, so the proof follows the writer: what reading holds after a field, after the delimiter or
line end behind it, after a record, and after all records.
-/

namespace Parlance.Table.Delimited

/-- Characters that can stand between fields. -/
structure IsDelimiter (delimiter : Char) : Prop where
  ne_quote : delimiter ≠ '"'
  not_break : Progress.isBreak delimiter = false

theorem ne_newline_of_not_break {c : Char} (h : Progress.isBreak c = false) : c ≠ '\n' := by
  rintro rfl
  exact absurd h (by decide)

/-- Fields that can be read back are not too long. -/
def Readable (field : Text) : Prop := field.length ≤ fieldLimit

instance (field : Text) : Decidable (Readable field) :=
  inferInstanceAs (Decidable (field.length ≤ fieldLimit))

namespace Progress

variable {delimiter : Char}

/-- Read on through a text. -/
def run (delimiter : Char) (p : Progress) (t : Text) : Except ReadError Progress :=
  t.foldlM (step delimiter) p

theorem run_nil (p : Progress) : run delimiter p [] = .ok p := rfl

theorem run_append {p q : Progress} {t : Text} (h : run delimiter p t = .ok q) (u : Text) :
    run delimiter p (t ++ u) = run delimiter q u := by
  simp only [run] at h ⊢
  rw [List.foldlM_append, h]
  rfl

theorem run_cons {p q : Progress} {c : Char} (h : step delimiter p c = .ok q) (t : Text) :
    run delimiter p (c :: t) = run delimiter q t := by
  simp only [run, List.foldlM_cons, h]
  rfl

/-- A character of a field that stands without quotes. -/
structure IsPlain (delimiter c : Char) : Prop where
  ne_delimiter : c ≠ delimiter
  ne_quote : c ≠ '"'
  not_break : isBreak c = false

/-- Places at which a field can open. -/
def Opens (place : Place) : Prop := place = .recordStart ∨ place = .fieldStart

section Steps

variable {place : Place} {field : Text} {record : List Text} {records : List (List Text)} {c : Char}

theorem step_of_take {p q : Progress} (hc : c ≠ '\n') (h : take delimiter p c = .ok q) :
    step delimiter p c = .ok q := by
  simp only [step, h, bind, Except.bind, if_neg hc]
  rfl

theorem step_plain (hc : IsPlain delimiter c) :
    step delimiter ⟨.plain, field, record, records⟩ c =
      .ok ⟨.plain, c :: field, record, records⟩ := by
  apply step_of_take (ne_newline_of_not_break hc.not_break)
  simp [take, hc.not_break, hc.ne_delimiter, add]

theorem step_open_plain (hplace : Opens place) (hc : IsPlain delimiter c) :
    step delimiter ⟨place, field, record, records⟩ c =
      .ok ⟨.plain, c :: field, record, records⟩ := by
  apply step_of_take (ne_newline_of_not_break hc.not_break)
  rcases hplace with rfl | rfl <;>
    simp [take, openField, hc.not_break, hc.ne_delimiter, hc.ne_quote, add]

theorem step_open_quote (hplace : Opens place) :
    step delimiter ⟨place, field, record, records⟩ '"' = .ok ⟨.quoted, field, record, records⟩ := by
  apply step_of_take (by decide)
  rcases hplace with rfl | rfl <;> simp [take, openField, isBreak, goto]

theorem step_quoted (hc : c ≠ '"') :
    step delimiter ⟨.quoted, field, record, records⟩ c =
      .ok ⟨.quoted, c :: field, record, records⟩ := by
  simp only [step, take, if_neg hc, add, bind, Except.bind, endLine]
  split <;> rfl

theorem step_quoted_quote :
    step delimiter ⟨.quoted, field, record, records⟩ '"' =
      .ok ⟨.quoteSeen, field, record, records⟩ :=
  step_of_take (by decide) rfl

theorem step_quote_doubled :
    step delimiter ⟨.quoteSeen, field, record, records⟩ '"' =
      .ok ⟨.quoted, '"' :: field, record, records⟩ :=
  step_of_take (by decide) rfl

end Steps

section Fields

variable {place : Place} {field : Text} {record : List Text} {records : List (List Text)} {t : Text}

theorem run_plain (ht : ∀ c ∈ t, IsPlain delimiter c) :
    run delimiter ⟨.plain, field, record, records⟩ t =
      .ok ⟨.plain, t.reverse ++ field, record, records⟩ := by
  induction t generalizing field with
  | nil => rfl
  | cons c t ih =>
    rw [run_cons (step_plain (ht c List.mem_cons_self)),
      ih fun d hd => ht d (List.mem_cons_of_mem _ hd), List.reverse_cons, List.append_assoc]
    rfl

/-- Inside quotes every character counts, and a doubled quote counts once. -/
theorem run_quoted :
    run delimiter ⟨.quoted, field, record, records⟩ (Text.substitute '"' ['"', '"'] t) =
      .ok ⟨.quoted, t.reverse ++ field, record, records⟩ := by
  induction t generalizing field with
  | nil => rfl
  | cons c t ih =>
    rw [Text.substitute_cons, List.reverse_cons, List.append_assoc, List.singleton_append]
    by_cases hc : c = '"'
    · rw [if_pos hc, hc, List.cons_append, List.singleton_append, run_cons step_quoted_quote,
        run_cons step_quote_doubled]
      exact ih
    · rw [if_neg hc, List.singleton_append, run_cons (step_quoted hc)]
      exact ih

/-- After a written field reading holds it, and waits for what ends it. -/
theorem run_writeField (delimiter : Char) (record : List Text) (records : List (List Text))
    (hplace : Opens place) :
    ∃ after, run delimiter ⟨place, [], record, records⟩ (writeField delimiter t) =
        .ok ⟨after, t.reverse, record, records⟩ ∧
      (after = .plain ∨ after = .quoteSeen ∨ after = place ∧ t = []) := by
  by_cases hquotes : needsQuotes delimiter t
  · refine ⟨.quoteSeen, ?_, Or.inr (Or.inl rfl)⟩
    rw [writeField, if_pos hquotes, quoted, List.cons_append, run_cons (step_open_quote hplace),
      run_append run_quoted, run_cons step_quoted_quote, List.append_nil]
    rfl
  · have hplain : ∀ c ∈ t, IsPlain delimiter c := by
      intro c hc
      have hnone : ¬((c == delimiter || c == '"' || c == '\n' || c == '\r') = true) :=
        fun h => hquotes (List.any_eq_true.2 ⟨c, hc, h⟩)
      simp only [Bool.or_eq_true, beq_iff_eq, not_or] at hnone
      obtain ⟨⟨⟨hdelimiter, hquote⟩, hnewline⟩, hreturn⟩ := hnone
      refine ⟨hdelimiter, hquote, ?_⟩
      rw [isBreak, beq_false_of_ne hnewline, beq_false_of_ne hreturn]
      rfl
    rw [writeField, if_neg hquotes]
    cases t with
    | nil => exact ⟨place, rfl, Or.inr (Or.inr ⟨rfl, rfl⟩)⟩
    | cons c t =>
      refine ⟨.plain, ?_, Or.inl rfl⟩
      rw [run_cons (step_open_plain hplace (hplain c List.mem_cons_self)),
        run_plain fun d hd => hplain d (List.mem_cons_of_mem _ hd), List.reverse_cons]

end Fields

section Records

variable {place : Place} {record : List Text} {records : List (List Text)}

/-- A readable field is closed as what it is. -/
theorem save_reverse {t : Text} (ht : Readable t) (place after : Place) (record : List Text)
    (records : List (List Text)) :
    save ⟨place, t.reverse, record, records⟩ after = .ok ⟨after, [], t :: record, records⟩ := by
  have hlength : ¬fieldLimit < t.reverse.length := by
    rw [List.length_reverse]
    exact Nat.not_lt.2 ht
  rw [save, if_neg hlength, List.reverse_reverse]

/-- The delimiter closes a field and opens the next one. -/
theorem run_field_delimiter (hdelimiter : IsDelimiter delimiter) (hplace : Opens place) {t : Text}
    (ht : Readable t) :
    run delimiter ⟨place, [], record, records⟩ (writeField delimiter t ++ [delimiter]) =
      .ok ⟨.fieldStart, [], t :: record, records⟩ := by
  obtain ⟨after, hafter, hcases⟩ := run_writeField delimiter record records (t := t) hplace
  have hsave (q : Place) := save_reverse ht q .fieldStart record records
  rw [run_append hafter]
  apply (run_cons (step_of_take (ne_newline_of_not_break hdelimiter.not_break) ?_) []).trans
    (run_nil _)
  rcases hcases with rfl | rfl | ⟨rfl, rfl⟩
  · simp [take, hdelimiter.not_break, hsave]
  · simp [take, hdelimiter.ne_quote, hsave]
  · -- an empty field has moved nothing
    rcases hplace with rfl | rfl
    · simpa [take, openField, hdelimiter.not_break, hdelimiter.ne_quote] using hsave .recordStart
    · simpa [take, openField, hdelimiter.not_break, hdelimiter.ne_quote] using hsave .fieldStart

/-- The line end closes a field and its record, unless nothing of a record has been read. -/
theorem run_field_newline (hdelimiter : IsDelimiter delimiter) (hplace : Opens place) {t : Text}
    (ht : Readable t) (hstarted : place = .fieldStart ∨ t ≠ []) :
    run delimiter ⟨place, [], record, records⟩ (writeField delimiter t ++ ['\n']) =
      .ok ⟨.recordStart, [], [], (t :: record).reverse :: records⟩ := by
  obtain ⟨after, hafter, hcases⟩ := run_writeField delimiter record records (t := t) hplace
  have hsave (q : Place) := save_reverse ht q .recordEnd record records
  have htake : take delimiter ⟨after, t.reverse, record, records⟩ '\n' =
      .ok ⟨.recordEnd, [], t :: record, records⟩ := by
    have hbreak : isBreak '\n' = true := rfl
    rcases hcases with rfl | rfl | ⟨rfl, rfl⟩
    · simp [take, hbreak, hsave]
    · simp [take, hbreak, (ne_newline_of_not_break hdelimiter.not_break).symm, hsave]
    · -- at the start of a record nothing has been read, which is excluded
      rcases hplace with rfl | rfl
      · simp at hstarted
      · simpa [take, openField, hbreak] using hsave .fieldStart
  rw [run_append hafter]
  apply (run_cons ?_ []).trans (run_nil _)
  rw [step, htake]
  rfl

/-- A record is read back, unless it is a single empty field, which leaves no trace. -/
theorem run_writeRecord (hdelimiter : IsDelimiter delimiter) (hplace : Opens place)
    {fields : List Text} (hne : fields ≠ []) (hfields : ∀ t ∈ fields, Readable t)
    (hstarted : place = .fieldStart ∨ fields ≠ [[]]) :
    run delimiter ⟨place, [], record, records⟩ (writeRecord delimiter fields) =
      .ok ⟨.recordStart, [], [], (record.reverse ++ fields) :: records⟩ := by
  induction fields generalizing place record with
  | nil => exact absurd rfl hne
  | cons t rest ih =>
    have ht : Readable t := hfields t List.mem_cons_self
    cases rest with
    | nil =>
      have hwrite : writeRecord delimiter [t] = writeField delimiter t ++ ['\n'] := by
        simp [writeRecord, List.intercalate]
      rw [hwrite, run_field_newline hdelimiter hplace ht, List.reverse_cons]
      rcases hstarted with hplace' | htext
      · exact Or.inl hplace'
      · exact Or.inr fun h => htext (h ▸ rfl)
    | cons u rest =>
      have hwrite : writeRecord delimiter (t :: u :: rest) =
          (writeField delimiter t ++ [delimiter]) ++ writeRecord delimiter (u :: rest) := by
        simp [writeRecord, List.intercalate]
      rw [hwrite, run_append (run_field_delimiter hdelimiter hplace ht),
        ih (Or.inr rfl) (by simp) (fun v hv => hfields v (List.mem_cons_of_mem _ hv)) (Or.inl rfl)]
      simp

end Records

/-- All records are read back, one after the other. -/
theorem run_write (hdelimiter : IsDelimiter delimiter) {records : List (List Text)}
    (hrecords : ∀ fields ∈ records, fields ≠ [] ∧ fields ≠ [[]] ∧ ∀ t ∈ fields, Readable t)
    (before : List (List Text)) :
    run delimiter ⟨.recordStart, [], [], before⟩ (write delimiter records) =
      .ok ⟨.recordStart, [], [], records.reverse ++ before⟩ := by
  induction records generalizing before with
  | nil => rfl
  | cons fields rest ih =>
    obtain ⟨hne, hempty, hfields⟩ := hrecords fields List.mem_cons_self
    rw [write, List.flatMap_cons,
      run_append (run_writeRecord hdelimiter (Or.inl rfl) hne hfields (Or.inr hempty))]
    have hrest := ih (fun f hf => hrecords f (List.mem_cons_of_mem _ hf)) (fields :: before)
    simpa [write] using hrest

end Progress

/-- Written text ends with the end of a line. -/
theorem any_getLast?_write (delimiter : Char) (records : List (List Text)) :
    (write delimiter records).getLast?.any (· ≠ '\n') = false := by
  rcases List.eq_nil_or_concat records with rfl | ⟨rest, fields, rfl⟩
  · rfl
  · simp [write, writeRecord, List.getLast?_append]

/-- Delimited text is read back as it was written, if no field is too long and every record has two
fields or one that is not empty. -/
theorem read_write {delimiter : Char} (hdelimiter : IsDelimiter delimiter)
    {records : List (List Text)}
    (hrecords : ∀ fields ∈ records, fields ≠ [] ∧ fields ≠ [[]] ∧ ∀ t ∈ fields, Readable t) :
    read delimiter (write delimiter records) = .ok records := by
  have hrun : (write delimiter records).foldlM (Progress.step delimiter) .start =
      .ok ⟨.recordStart, [], [], records.reverse ++ []⟩ :=
    Progress.run_write hdelimiter hrecords []
  have hkept : ∀ fields ∈ records, (!fields.isEmpty) = true := by
    intro fields hmem
    simpa using (hrecords fields hmem).1
  rw [read, hrun, any_getLast?_write]
  simp only [List.append_nil]
  change Except.ok (records.reverse.reverse.filter (!·.isEmpty)) = .ok records
  rw [List.reverse_reverse, List.filter_eq_self.2 hkept]

end Parlance.Table.Delimited
