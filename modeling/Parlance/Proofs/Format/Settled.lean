import Parlance.Format.Formatter
import Parlance.Proofs.Traverse
/-!
What formatters let go of. An integer beyond the digit limit is the only value that has no text
(exists_message, message_eq_error). If the library of locale data raises only errors that are caught
(Babel.Tame), the default formatters settle all other values, with a text or with a failure that has
a text to stand in, and no others (Reliable.settled_iff).
-/

namespace Parlance

namespace Number

theorem integerText_eq_ok {n : Int} (h : isBoundedInt n) : integerText n = .ok (Text.ofInt n) := by
  rw [integerText, if_pos h]

/-- A number that is usable has a numeral. -/
theorem exists_text {n : Number} (h : n.isBounded) : ∃ t, n.text = .ok t := by
  cases n with
  | integer n => exact ⟨_, integerText_eq_ok h⟩
  | double x => exact ⟨_, rfl⟩
  | decimal d => exact ⟨_, rfl⟩

end Number

namespace Value

/-- Values that can be written out: all but integers beyond the digit limit. -/
def IsWritable : Value → Prop
  | .integer n => Number.isBoundedInt n
  | _ => True

variable {v : Value}

theorem exists_plain (h : v.IsWritable) : ∃ t, v.plain = .ok t := by
  cases v with
  | integer n =>
    rw [plain, Number.integerText_eq_ok h]
    exact ⟨_, rfl⟩
  | _ => exact ⟨_, rfl⟩

theorem exists_quoted (h : v.IsWritable) : ∃ t, v.quoted = .ok t := by
  cases v with
  | integer n =>
    simp only [quoted, plain, Number.integerText_eq_ok h]
    exact ⟨_, rfl⟩
  | _ => exact ⟨_, rfl⟩

theorem exists_message (h : v.IsWritable) : ∃ t, v.message = .ok t := by
  cases v with
  | integer n =>
    rw [message, Number.integerText_eq_ok h]
    exact ⟨_, rfl⟩
  | _ => exact ⟨_, rfl⟩

theorem message_eq_error (h : ¬v.IsWritable) : v.message = .error .oversizedNumeral := by
  cases v with
  | integer n =>
    rw [message, Number.integerText]
    exact if_neg h
  | _ => exact absurd trivial h

theorem exists_integer_of_not_isWritable (h : ¬v.IsWritable) : ∃ n, v = .integer n := by
  cases v with
  | integer n => exact ⟨n, rfl⟩
  | _ => exact absurd trivial h

theorem quoted_eq_error (h : ¬v.IsWritable) : v.quoted = .error .oversizedNumeral := by
  obtain ⟨n, rfl⟩ := exists_integer_of_not_isWritable h
  rw [quoted, plain, Number.integerText]
  · exact if_neg h
  all_goals nofun

/-- An integer that cannot be written is no usable number. -/
theorem number?_of_not_isWritable (h : ¬v.IsWritable) : v.number? = none := by
  obtain ⟨n, rfl⟩ := exists_integer_of_not_isWritable h
  rw [number?, Option.filter_eq_none_iff]
  rintro m ⟨⟩
  exact h

/-- A number that a value is or spells is usable. -/
theorem isBounded_of_number? {n : Number} (h : v.number? = some n) : n.isBounded := by
  cases v with
  | text t =>
    rw [number?, Number.ofText?, Option.filter_eq_some_iff] at h
    exact h.2
  | integer m =>
    rw [number?, Option.filter_eq_some_iff] at h
    exact h.2
  | double x =>
    rw [number?, Option.filter_eq_some_iff] at h
    exact h.2
  | decimal d =>
    rw [number?, Option.filter_eq_some_iff] at h
    exact h.2
  | _ => cases h

end Value

/-- What is assumed of a library of locale data: it says of a code that it is unknown or wrong, it
knows the default locale, and all other errors that it raises are of kinds that formatters catch. -/
structure Babel.Tame {L : Type} (b : Babel L) : Prop where
  parse : ∀ code e, b.parse code = .error e → e.kind = .unknownLocale ∨ e.kind = .value
  parse_default : ∃ l, b.find Locale.defaultCode = .ok l
  formatDecimal : ∀ n pattern l e, b.formatDecimal n pattern l = .error e →
    Formatter.catches e.kind
  formatPercent : ∀ n l e, b.formatPercent n l = .error e → Formatter.catches e.kind
  formatDate : ∀ d format l e, b.formatDate d format l = .error e → Formatter.catches e.kind
  formatTime : ∀ t format l e, b.formatTime t format l = .error e → Formatter.catches e.kind

/-- Every code has a locale, its own or the default one. -/
theorem Babel.Tame.exists_resolve {L : Type} {b : Babel L} (h : b.Tame) (code : Text) :
    ∃ l, b.resolve code = .ok l := by
  rw [resolve]
  cases hfind : b.find code with
  | ok l => exact ⟨l, rfl⟩
  | error e =>
    obtain ⟨l, hl⟩ := h.parse_default
    exact ⟨l, by simp only [if_pos (h.parse _ e hfind), hl]⟩

namespace Formatter

/-- What a formatter comes to: a text, or a failure with a text to stand in. -/
def Settled {α : Type} (r : Except FormatError α) : Prop := ∀ fault, r ≠ .error (.fault fault)

section Settling

variable {α β : Type}

theorem settled_ok (a : α) : Settled (.ok a) := fun _ h => by cases h

theorem settled_failed (reason fallback : Text) :
    Settled (.error (.failed reason fallback) : Except FormatError α) :=
  fun _ h => by cases h

theorem settled_bind {r : Except FormatError α} {f : α → Except FormatError β} (hr : Settled r)
    (hf : ∀ a, r = .ok a → Settled (f a)) : Settled (r >>= f) := by
  cases hresult : r with
  | ok a => exact hf a hresult
  | error e =>
    intro fault h
    apply hr fault
    rw [hresult]
    cases h
    rfl

theorem settled_textOf {text : Except Fault Text} (h : ∃ t, text = .ok t) :
    Settled (textOf text) := by
  obtain ⟨t, rfl⟩ := h
  exact settled_ok t

variable (what : String) {v : Value} {fallback : Except Fault Text}

theorem settled_refuse (hv : v.IsWritable) (reason : Text) (hfallback : ∃ t, fallback = .ok t) :
    Settled (refuse what v reason fallback : Except FormatError α) := by
  apply settled_bind (settled_textOf (Value.exists_quoted hv))
  intro quoted _
  apply settled_bind (settled_textOf hfallback)
  intro shown _
  exact settled_failed _ shown

/-- Of the errors of a library those that are caught are failures. -/
theorem settled_catching (hv : v.IsWritable) (hfallback : ∃ t, fallback = .ok t)
    {written : Except Raised Text} (hcaught : ∀ e, written = .error e → catches e.kind) :
    Settled (catching what v fallback written) := by
  cases written with
  | ok t => exact settled_ok t
  | error e =>
    rw [catching, if_pos (hcaught e rfl)]
    apply settled_bind (settled_textOf (Value.exists_plain hv))
    intro plain _
    apply settled_bind (settled_textOf hfallback)
    intro shown _
    exact settled_failed _ shown

theorem settled_momentOf (hv : v.IsWritable) : Settled (momentOf what v) := by
  cases v with
  | date d => exact settled_ok _
  | time t => exact settled_ok _
  | dateTime dt => exact settled_ok _
  | text t =>
    rw [momentOf]
    cases Calendar.DateTime.ofText (Text.trim t) with
    | ok dt => exact settled_ok _
    | error e => exact settled_refuse what hv _ ⟨t, rfl⟩
  | _ => exact settled_refuse what hv _ (Value.exists_message hv)

end Settling

section Default

variable {L : Type} {b : Babel L} {v : Value} {l : L} {style : Option Text}

theorem catches_of_writeNumber (hb : b.Tame) {n : Number} {e : Raised}
    (h : writeNumber b n l style = .error e) : catches e.kind := by
  cases style with
  | none => exact hb.formatDecimal _ _ _ _ h
  | some style =>
    rw [writeNumber] at h
    split at h
    · exact hb.formatDecimal _ _ _ _ h
    · split at h
      · exact hb.formatPercent _ _ _ h
      · exact hb.formatDecimal _ _ _ _ h

theorem settled_formatNumber (hb : b.Tame) (hv : v.IsWritable) :
    Settled (formatNumber b v l style) := by
  have hmessage := Value.exists_message hv
  rw [formatNumber]
  cases v.number? with
  | none => exact settled_refuse _ hv _ hmessage
  | some n => exact settled_catching _ hv hmessage fun e => catches_of_writeNumber hb

theorem settled_formatDate (hb : b.Tame) (hv : v.IsWritable) :
    Settled (formatDate b v l style) := by
  apply settled_bind (settled_momentOf "Date" hv)
  intro m _
  cases m with
  | date d => exact settled_catching _ hv ⟨_, rfl⟩ (hb.formatDate _ _ _)
  | dateTime dt => exact settled_catching _ hv ⟨_, rfl⟩ (hb.formatDate _ _ _)
  | time t => exact settled_refuse _ hv _ ⟨_, rfl⟩

theorem settled_formatTime (hb : b.Tame) (hv : v.IsWritable) :
    Settled (formatTime b v l style) := by
  apply settled_bind (settled_momentOf "Time" hv)
  intro m _
  cases m with
  | time t => exact settled_catching _ hv ⟨_, rfl⟩ (hb.formatTime _ _ _)
  | dateTime dt => exact settled_catching _ hv ⟨_, rfl⟩ (hb.formatTime _ _ _)
  | date d => exact settled_refuse _ hv _ ⟨_, rfl⟩

/-- An integer beyond the digit limit cannot even be named in a failure. -/
theorem refuse_of_not_isWritable {α : Type} (what : String) (hv : ¬v.IsWritable) (reason : Text)
    (fallback : Except Fault Text) :
    (refuse what v reason fallback : Except FormatError α) =
      .error (.fault .oversizedNumeral) := by
  rw [refuse, Value.quoted_eq_error hv]
  rfl

theorem formatNumber_of_not_isWritable (hv : ¬v.IsWritable) :
    formatNumber b v l style = .error (.fault .oversizedNumeral) := by
  rw [formatNumber, Value.number?_of_not_isWritable hv]
  exact refuse_of_not_isWritable _ hv _ _

theorem momentOf_of_not_isWritable (what : String) (hv : ¬v.IsWritable) :
    momentOf what v = .error (.fault .oversizedNumeral) := by
  obtain ⟨n, rfl⟩ := Value.exists_integer_of_not_isWritable hv
  exact refuse_of_not_isWritable _ hv _ _

theorem formatDate_of_not_isWritable (hv : ¬v.IsWritable) :
    formatDate b v l style = .error (.fault .oversizedNumeral) := by
  rw [formatDate, momentOf_of_not_isWritable _ hv]
  rfl

theorem formatTime_of_not_isWritable (hv : ¬v.IsWritable) :
    formatTime b v l style = .error (.fault .oversizedNumeral) := by
  rw [formatTime, momentOf_of_not_isWritable _ hv]
  rfl

/-- Formatters that settle every value, whatever it is. -/
def Settles (f : Formatter L) : Prop := ∀ v l style, Settled (f.format v l style)

/-- Formatters that raise nothing of their own: those that settle every value, and the default
ones. -/
inductive Reliable (b : Babel L) : Formatter L → Prop where
  | settles {f : Formatter L} (h : f.Settles) : Reliable b f
  | number : Reliable b (number b)
  | date : Reliable b (date b)
  | time : Reliable b (time b)

theorem settled_iff_of_default {f : Formatter L}
    (hsettled : ∀ v l style, v.IsWritable → Settled (f.format v l style))
    (hfault : ∀ v l style, ¬v.IsWritable → f.format v l style = .error (.fault .oversizedNumeral)) :
    Settled (f.format v l style) ↔ v.IsWritable ∨ f.Settles := by
  constructor
  · intro h
    by_contra hneither
    rw [not_or] at hneither
    exact h _ (hfault v l style hneither.1)
  · rintro (hv | hf)
    · exact hsettled v l style hv
    · exact hf v l style

/-- The values that are settled: those that can be written, or all. -/
theorem Reliable.settled_iff {f : Formatter L} (hb : b.Tame) (h : f.Reliable b) :
    Settled (f.format v l style) ↔ v.IsWritable ∨ f.Settles := by
  cases h with
  | settles h => exact iff_of_true (h v l style) (.inr h)
  | number =>
    exact settled_iff_of_default (fun _ _ _ => settled_formatNumber hb)
      fun _ _ _ => formatNumber_of_not_isWritable
  | date =>
    exact settled_iff_of_default (fun _ _ _ => settled_formatDate hb)
      fun _ _ _ => formatDate_of_not_isWritable
  | time =>
    exact settled_iff_of_default (fun _ _ _ => settled_formatTime hb)
      fun _ _ _ => formatTime_of_not_isWritable

end Default

end Formatter

end Parlance
