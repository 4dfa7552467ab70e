import Parlance.Proofs.Construct.Reading
import Parlance.Proofs.Format.Settled
import Parlance.Proofs.Message.Demand
import Parlance.Proofs.Text.Names
import Parlance.Sample
/-!
Where resolving comes to an end without a fault. Besides a limit that is too long to write there is
one cause of faults: a token that is reached names an integer beyond the digit limit, and its text
is needed (Stuck, Blocked). With formatters that raise nothing of their own a pattern is resolved
exactly if nothing of the kind is reached (resolve_returns_iff).
-/

namespace Parlance

open Brace

namespace Token

/-- What a placeholder names is a word. -/
theorem exists_word_of_placeholder_mem {pattern name : Text} {span : Span}
    (h : .placeholder name span ∈ ofPattern pattern) : ∃ word : Text.Word, name = word.text := by
  obtain ⟨pos, t, n, hfound⟩ := Part.exists_found_of_mem h rfl
  cases hfound with
  | placeholder ht hclose hread hname hword =>
    exact ⟨⟨⟨name, List.all_eq_true.1 hword⟩, hname⟩, rfl⟩

/-- What a construct asks for is a word. -/
theorem exists_word_of_construct_mem {pattern : Text} {c : Construct}
    (h : .construct c ∈ ofPattern pattern) : ∃ word : Text.Word, c.argument = word.text := by
  obtain ⟨pos, t, n, hfound⟩ := Part.exists_found_of_mem h rfl
  cases hfound with
  | construct ht hclose hread =>
    rw [ht, Construct.ofInterior?_take_mark] at hread
    exact Construct.exists_word_of_ofInterior? hread

end Token

namespace Message

variable {L : Type} {ctx : Context L} {enter : Enter} {numeral : Option Text} {pattern : Text}
  {token : Token} {c : Construct} {v : Value}

/-- A token that needs the text of an integer beyond the digit limit: to put it in, to select by it,
or to have it formatted, unless there is a formatter for all values. -/
inductive Stuck (ctx : Context L) : Token → Prop where
  | placeholder {name : Text} {span : Span} {v : Value}
      (argument : ctx.arguments.get? name = some v) (oversized : ¬v.IsWritable) :
      Stuck ctx (.placeholder name span)
  | selection {c : Construct} {branches : List Construct.Branch} {v : Value}
      (content : c.content = .choice .select branches)
      (argument : ctx.arguments.get? c.argument = some v) (oversized : ¬v.IsWritable) :
      Stuck ctx (.construct c)
  | field {c : Construct} {field : Construct.Field} {style : Option Text} {v : Value}
      (content : c.content = .field field style)
      (argument : ctx.arguments.get? c.argument = some v) (oversized : ¬v.IsWritable)
      (formatter : ∀ f, ctx.formatters.get? field = some f → ¬f.Settles) : Stuck ctx (.construct c)

/-- A run that cannot come to a result: a token of the pattern is stuck, a branch is refused and the
limit is too long to write, or the run of a branch that is entered cannot come to a result. -/
inductive Blocked (ctx : Context L) : Nat → Option Text → Text → Prop where
  | stuck {budget : Nat} {numeral : Option Text} {pattern : Text} {token : Token}
      (token_mem : token ∈ Token.ofPattern pattern) (h : Stuck ctx token) :
      Blocked ctx budget numeral pattern
  | refused {numeral inner : Option Text} {pattern source body : Text} {token : Token}
      (token_mem : token ∈ Token.ofPattern pattern)
      (demand : Demand.ofToken ctx numeral token = .branch source inner body)
      (limit : ¬Number.isBoundedInt ctx.limit) : Blocked ctx 0 numeral pattern
  | inside {budget : Nat} {numeral inner : Option Text} {pattern source body : Text} {token : Token}
      (token_mem : token ∈ Token.ofPattern pattern)
      (demand : Demand.ofToken ctx numeral token = .branch source inner body)
      (h : Blocked ctx budget inner body) : Blocked ctx (budget + 1) numeral pattern

/-- What a run relies on besides its arguments: there is a locale, and the formatters raise nothing
of their own. -/
structure Context.Reliable (ctx : Context L) (b : Babel L) : Prop where
  tame : b.Tame
  locale : ∃ l, ctx.locale = .ok l
  formatters : ∀ field f, ctx.formatters.get? field = some f → f.Reliable b

namespace Demand

/-- A demand that is settled with a fault. -/
def Fails (d : Demand) : Prop := ∃ fault, d = .settled (.error fault)

theorem not_fails_ofBranch (label bare : Text) : ¬(ofBranch c numeral label bare).Fails := by
  rintro ⟨fault, h⟩
  rw [ofBranch] at h
  split at h <;> cases h

/-- A number that is usable has a numeral, so counting gets to a branch. -/
theorem not_fails_ofCounted (category : Number → Plural.Category) :
    ¬(ofCounted c v category).Fails := by
  rw [ofCounted]
  cases hnumber : v.number? with
  | none => rintro ⟨fault, ⟨⟩⟩
  | some n =>
    obtain ⟨digits, hdigits⟩ := Number.exists_text (Value.isBounded_of_number? hnumber)
    simp only [hdigits]
    exact not_fails_ofBranch _ _

theorem fails_ofSelected_iff : (ofSelected c v numeral).Fails ↔ ¬v.IsWritable := by
  rw [ofSelected]
  by_cases hv : v.IsWritable
  · obtain ⟨selector, hselector⟩ := Value.exists_message hv
    simp only [hselector]
    exact iff_of_false (not_fails_ofBranch _ _) (not_not_intro hv)
  · simp only [Value.message_eq_error hv]
    exact iff_of_true ⟨_, rfl⟩ hv

theorem fails_settled_iff {result : Except Fault Outcome} :
    (settled result).Fails ↔ ∃ fault, result = .error fault := by
  simp only [Fails, settled.injEq]

section Reliable

variable {b : Babel L} (hctx : ctx.Reliable b)

include hctx

theorem resolveField_eq_error_iff {field : Construct.Field} {style : Option Text} :
    (∃ fault, resolveField ctx c field style v = .error fault) ↔
      ¬v.IsWritable ∧ ∀ f, ctx.formatters.get? field = some f → ¬f.Settles := by
  obtain ⟨l, hl⟩ := hctx.locale
  rw [resolveField, hl]
  cases hformatter : ctx.formatters.get? field with
  | none =>
    by_cases hv : v.IsWritable
    · obtain ⟨shown, hshown⟩ := Value.exists_message hv
      simp only [hshown]
      exact iff_of_false (by rintro ⟨fault, ⟨⟩⟩) fun h => h.1 hv
    · simp only [Value.message_eq_error hv]
      exact iff_of_true ⟨_, rfl⟩ ⟨hv, by rintro f ⟨⟩⟩
  | some f =>
    have hsettled : Formatter.Settled (f.format v l style) ↔ v.IsWritable ∨ f.Settles :=
      (hctx.formatters field f hformatter).settled_iff hctx.tame
    simp only [Option.some.injEq, forall_eq', Except.mapError, bind, Except.bind]
    rw [← not_or, ← hsettled]
    cases f.format v l style with
    | ok shown => exact iff_of_false (by rintro ⟨fault, ⟨⟩⟩) fun h => h (Formatter.settled_ok shown)
    | error e =>
      cases e with
      | failed reason fallback =>
        exact iff_of_false (by rintro ⟨fault, ⟨⟩⟩) fun h => h (Formatter.settled_failed _ _)
      | fault fault => exact iff_of_true ⟨fault, rfl⟩ fun h => h fault rfl

theorem fails_ofConstruct_iff : (ofConstruct c numeral ctx).Fails ↔ Stuck ctx (.construct c) := by
  rw [ofConstruct]
  cases hargument : ctx.arguments.get? c.argument with
  | none =>
    refine iff_of_false (by rintro ⟨fault, ⟨⟩⟩) ?_
    rintro (_ | ⟨-, h, -⟩ | ⟨-, h, -⟩) <;> rw [hargument] at h <;> cases h
  | some v =>
    cases hcontent : c.content with
    | field field style =>
      rw [fails_settled_iff, resolveField_eq_error_iff hctx]
      constructor
      · exact fun h => .field hcontent hargument h.1 h.2
      · rintro (_ | ⟨h, -, -⟩ | ⟨hfield, hv, hoversized, hformatter⟩)
        · rw [hcontent] at h
          cases h
        · rw [hcontent] at hfield
          rw [hargument] at hv
          cases hfield
          cases hv
          exact ⟨hoversized, hformatter⟩
    | choice how branches =>
      have hcounted (hcount : how ≠ .select) : ¬Stuck ctx (.construct c) := by
        rintro (_ | ⟨h, -, -⟩ | ⟨h, -, -, -⟩) <;> rw [hcontent] at h <;> cases h
        exact hcount rfl
      cases how with
      | plural => exact iff_of_false (not_fails_ofCounted _) (hcounted (by rintro ⟨⟩))
      | ordinal => exact iff_of_false (not_fails_ofCounted _) (hcounted (by rintro ⟨⟩))
      | select =>
        rw [fails_ofSelected_iff]
        constructor
        · exact .selection hcontent hargument
        · rintro (_ | ⟨-, hv, hoversized⟩ | ⟨h, -, -, -⟩)
          · rw [hargument] at hv
            cases hv
            exact hoversized
          · rw [hcontent] at h
            cases h

/-- A token fails before a branch is entered exactly if it is stuck. -/
theorem fails_ofToken_iff : (ofToken ctx numeral token).Fails ↔ Stuck ctx token := by
  cases token with
  | text value => exact iff_of_false (by rintro ⟨fault, ⟨⟩⟩) (by rintro ⟨⟩)
  | junk problem position => exact iff_of_false (by rintro ⟨fault, ⟨⟩⟩) (by rintro ⟨⟩)
  | construct c => exact fails_ofConstruct_iff hctx
  | placeholder name span =>
    rw [ofToken, fails_settled_iff, resolveToken]
    · cases hargument : ctx.arguments.get? name with
      | none =>
        refine iff_of_false (by rintro ⟨fault, ⟨⟩⟩) ?_
        rintro ⟨h, -⟩
        rw [hargument] at h
        cases h
      | some v =>
        by_cases hv : v.IsWritable
        · obtain ⟨shown, hshown⟩ := Value.exists_message hv
          simp only [hshown]
          refine iff_of_false (by rintro ⟨fault, ⟨⟩⟩) ?_
          rintro ⟨h, hoversized⟩
          rw [hargument] at h
          cases h
          exact hoversized hv
        · simp only [Value.message_eq_error hv]
          exact iff_of_true ⟨_, rfl⟩ (.placeholder hargument hv)
    · rintro c ⟨⟩

end Reliable

/-- What is met: a demand that does not fail, and whose branch, if it asks for one, is entered. -/
theorem exists_meet_iff {d : Demand} {limit : Int} :
    (∃ outcome, d.meet limit enter = .ok outcome) ↔ ¬d.Fails ∧ ∀ source inner body,
      d = .branch source inner body →
        ∃ outcome, (branch source inner body).meet limit enter = .ok outcome := by
  cases d with
  | branch source inner body =>
    constructor
    · rintro ⟨outcome, h⟩
      refine ⟨by rintro ⟨fault, ⟨⟩⟩, ?_⟩
      rintro _ _ _ ⟨⟩
      exact ⟨outcome, h⟩
    · exact fun h => h.2 source inner body rfl
  | settled result =>
    rw [fails_settled_iff]
    cases result with
    | ok outcome => exact iff_of_true ⟨outcome, rfl⟩ ⟨by rintro ⟨fault, ⟨⟩⟩, by rintro _ _ _ ⟨⟩⟩
    | error fault => exact iff_of_false (by rintro ⟨outcome, ⟨⟩⟩) fun h => h.1 ⟨fault, rfl⟩

end Demand

section Runs

theorem exists_resolveWith_iff : (∃ outcome, resolveWith ctx enter numeral pattern = .ok outcome) ↔
    ∀ token ∈ Token.ofPattern pattern,
      ∃ outcome, resolveToken ctx enter numeral token = .ok outcome := by
  rw [← exists_mapM_eq_ok_iff, resolveWith]
  cases (Token.ofPattern pattern).mapM (resolveToken ctx enter numeral) with
  | ok outcomes => exact iff_of_true ⟨_, rfl⟩ ⟨_, rfl⟩
  | error fault => exact iff_of_false (by rintro ⟨outcome, ⟨⟩⟩) (by rintro ⟨outcomes, ⟨⟩⟩)

variable {b : Babel L} (hctx : ctx.Reliable b)

include hctx

/-- A pattern is resolved if none of its tokens is stuck and every branch it asks for is met. -/
theorem exists_resolveWith_iff_demands :
    (∃ outcome, resolveWith ctx enter numeral pattern = .ok outcome) ↔
      ∀ token ∈ Token.ofPattern pattern, ¬Stuck ctx token ∧ ∀ source inner body,
        Demand.ofToken ctx numeral token = .branch source inner body →
          ∃ outcome, (Demand.branch source inner body).meet ctx.limit enter = .ok outcome := by
  rw [exists_resolveWith_iff]
  refine forall₂_congr fun token htoken => ?_
  rw [← Demand.meet_ofToken, Demand.exists_meet_iff, Demand.fails_ofToken_iff hctx]

theorem not_blocked_of_exists {budget : Nat}
    (h : ∃ outcome, resolve ctx budget numeral pattern = .ok outcome) :
    ¬Blocked ctx budget numeral pattern := by
  intro hblocked
  induction hblocked with
  | @stuck budget numeral pattern token htoken hstuck =>
    obtain ⟨enter, henter⟩ := exists_resolve_eq ctx budget
    rw [henter, exists_resolveWith_iff_demands hctx] at h
    exact (h token htoken).1 hstuck
  | refused htoken hdemand hlimit =>
    rw [resolve, exists_resolveWith_iff_demands hctx] at h
    obtain ⟨outcome, houtcome⟩ := (h _ htoken).2 _ _ _ hdemand
    rw [Demand.meet, refused_of_not_isBounded hlimit] at houtcome
    cases houtcome
  | inside htoken hdemand _ ih =>
    rw [resolve, exists_resolveWith_iff_demands hctx] at h
    exact ih ((h _ htoken).2 _ _ _ hdemand)

/-- By induction on the budget: the body of a branch has one level less. -/
theorem exists_resolve_iff (budget : Nat) (numeral : Option Text) (pattern : Text) :
    (∃ outcome, resolve ctx budget numeral pattern = .ok outcome) ↔
      ¬Blocked ctx budget numeral pattern := by
  refine ⟨not_blocked_of_exists hctx, fun h => ?_⟩
  induction budget generalizing numeral pattern with
  | zero =>
    rw [resolve, exists_resolveWith_iff_demands hctx]
    refine fun token htoken => ⟨fun hstuck => h (.stuck htoken hstuck), ?_⟩
    intro source inner body hdemand
    have hlimit : Number.isBoundedInt ctx.limit := by
      by_contra hlimit
      exact h (.refused htoken hdemand hlimit)
    exact ⟨_, refused_of_isBounded hlimit source⟩
  | succ budget ih =>
    rw [resolve, exists_resolveWith_iff_demands hctx]
    refine fun token htoken => ⟨fun hstuck => h (.stuck htoken hstuck), ?_⟩
    intro source inner body hdemand
    exact ih inner body fun hbody => h (.inside htoken hdemand hbody)

end Runs

/-- Every argument that a pattern can name can be written out. -/
def NamesWritable (arguments : Arguments) : Prop :=
  ∀ (name : Text.Word) (v : Value), arguments.get? name.text = some v → v.IsWritable

/-- What tokens ask for is named by a word. -/
theorem not_stuck_of_namesWritable (hnames : NamesWritable ctx.arguments)
    (htoken : token ∈ Token.ofPattern pattern) : ¬Stuck ctx token := by
  rintro (⟨hargument, hv⟩ | ⟨-, hargument, hv⟩ | ⟨-, hargument, hv, -⟩)
  · obtain ⟨word, rfl⟩ := Token.exists_word_of_placeholder_mem htoken
    exact hv (hnames word _ hargument)
  all_goals
    obtain ⟨word, hword⟩ := Token.exists_word_of_construct_mem htoken
    exact hv (hnames word _ (hword ▸ hargument))

theorem not_blocked_of_namesWritable (hnames : NamesWritable ctx.arguments)
    (hlimit : Number.isBoundedInt ctx.limit) {budget : Nat} :
    ¬Blocked ctx budget numeral pattern := by
  intro h
  induction h with
  | stuck htoken hstuck => exact not_stuck_of_namesWritable hnames htoken hstuck
  | refused _ _ hunbounded => exact hunbounded hlimit
  | inside _ _ _ ih => exact ih

end Message

namespace Resolver

variable {L : Type}

/-- What a resolver relies on: a library that raises only what is caught, and formatters that raise
nothing of their own. -/
structure Reliable (r : Resolver L) : Prop where
  tame : r.host.babel.Tame
  formatters : ∀ field f, r.formatters.get? field = some f → f.Reliable r.host.babel

theorem Reliable.context {r : Resolver L} (h : r.Reliable) (arguments : Arguments) :
    (r.context arguments).Reliable r.host.babel where
  tame := h.tame
  locale := h.tame.exists_resolve r.localeCode
  formatters := h.formatters

/-- The default formatters are those of the library. -/
theorem reliable_shared {host : Host L} (h : host.babel.Tame) (code : Text) (maxDepth : Int) :
    (⟨host, code, .shared host.babel, maxDepth⟩ : Resolver L).Reliable where
  tame := h
  formatters := by
    intro field f hformatter
    cases field with
    | number =>
      obtain rfl : Formatter.number host.babel = f := Option.some.inj hformatter
      exact .number
    | date =>
      obtain rfl : Formatter.date host.babel = f := Option.some.inj hformatter
      exact .date
    | time =>
      obtain rfl : Formatter.time host.babel = f := Option.some.inj hformatter
      exact .time

/-- A placeholder of a word. -/
theorem ofPattern_placeholder (name : Text.Word) :
    Token.ofPattern ('\x7b' :: (name.text ++ ['\x7d'])) =
      [.placeholder name.text (Span.ofLength 0 (name.text.length + 2))] := by
  let part : Token.Part := .placeholder name.text name.text_ne_nil (List.all_eq_true.2 name.all)
  have halone := Token.Part.ofPattern_pattern [part]
  rwa [Token.Part.pattern, List.flatMap_singleton] at halone

/-- A placeholder of a value that cannot be written ends the run. -/
theorem resolve_placeholder_of_not_isWritable (r : Resolver L) {arguments : Arguments}
    (name : Text.Word) {v : Value} (hargument : arguments.get? name.text = some v)
    (hv : ¬v.IsWritable) :
    r.resolve arguments ('\x7b' :: (name.text ++ ['\x7d'])) = .error .oversizedNumeral := by
  have hempty : arguments.isEmpty = false := OrderedMap.isEmpty_eq_false_of_get? hargument
  obtain ⟨enter, henter⟩ :=
    Message.exists_resolve_eq (r.context arguments) (r.context arguments).limit.toNat
  have hvalue : (r.context arguments).arguments.get? name.text = some v := hargument
  rw [resolve_of_isEmpty_eq_false hempty, henter, Message.resolveWith_eq_resolveTokens,
    ofPattern_placeholder, Message.resolveTokens_cons, Message.resolveToken]
  simp only [hvalue, Value.message_eq_error hv]
  rfl

/-- Where the formatters raise nothing of their own, a pattern is resolved exactly if there are no
arguments or nothing blocks the run. If the limit can be written, those arguments are resolved in
every pattern of which all that a pattern can name can be written out. -/
theorem resolve_returns_iff (r : Resolver L) (hr : r.Reliable) (arguments : Arguments) :
    (∀ pattern, (∃ outcome, r.resolve arguments pattern = .ok outcome) ↔
      arguments.isEmpty ∨ ¬Message.Blocked (r.context arguments)
        (r.context arguments).limit.toNat none pattern) ∧
    (Number.isBoundedInt (Depth.clamp r.host.frames r.maxDepth Depth.defaultReserve) →
      ((∀ pattern, ∃ outcome, r.resolve arguments pattern = .ok outcome) ↔
        Message.NamesWritable arguments)) := by
  have hpattern (pattern : Text) : (∃ outcome, r.resolve arguments pattern = .ok outcome) ↔
      arguments.isEmpty ∨ ¬Message.Blocked (r.context arguments)
        (r.context arguments).limit.toNat none pattern := by
    cases hempty : arguments.isEmpty with
    | true => exact iff_of_true ⟨.plain pattern, by rw [resolve, if_pos hempty]⟩ (.inl rfl)
    | false =>
      rw [resolve_of_isEmpty_eq_false hempty, Message.exists_resolve_iff (hr.context arguments)]
      simp only [Bool.false_eq_true, false_or]
  refine ⟨hpattern, fun hlimit => ⟨fun hreturns => ?_, fun hnames pattern => ?_⟩⟩
  · intro name v hargument
    by_contra hv
    obtain ⟨outcome, hok⟩ := hreturns ('\x7b' :: (name.text ++ ['\x7d']))
    rw [resolve_placeholder_of_not_isWritable r name hargument hv] at hok
    cases hok
  · have hcontext : Message.NamesWritable (r.context arguments).arguments := hnames
    have hbounded : Number.isBoundedInt (r.context arguments).limit := hlimit
    exact (hpattern pattern).2 (.inr (Message.not_blocked_of_namesWritable hcontext hbounded))

/-- An error of a kind that formatters catch. -/
def mild (e : Raised) : Raised := if Formatter.catches e.kind then e else ⟨.value, e.message⟩

theorem catches_mild (e : Raised) : Formatter.catches (mild e).kind := by
  unfold mild
  split
  · assumption
  · rfl

/-- The sample library, but with no error about moments that formatters do not catch. -/
def mildBabel : Babel Sample.Locale :=
  { Sample.babel with
    formatDate := fun d format l => (Sample.babel.formatDate d format l).mapError mild
    formatTime := fun t format l => (Sample.babel.formatTime t format l).mapError mild }

theorem catches_formatNumber {pattern : Text} {n : Number} {l : Sample.Locale} {e : Raised}
    (h : Sample.formatNumber pattern n l = .error e) : Formatter.catches e.kind := by
  obtain ⟨misfit, -, rfl⟩ := mapError_eq_error_iff.1 h
  cases misfit <;> rfl

theorem tame_mildBabel : mildBabel.Tame where
  parse code e h := by
    obtain ⟨wrong, -, rfl⟩ := mapError_eq_error_iff.1 h
    cases wrong with
    | unknown identifier => exact .inl rfl
    | _ => exact .inr rfl
  parse_default := ⟨_, by rfl⟩
  formatDecimal n pattern l e h := catches_formatNumber h
  formatPercent n l e h := catches_formatNumber h
  formatDate d format l e h := by
    obtain ⟨raised, -, rfl⟩ := mapError_eq_error_iff.1 h
    exact catches_mild raised
  formatTime t format l e h := by
    obtain ⟨raised, -, rfl⟩ := mapError_eq_error_iff.1 h
    exact catches_mild raised

theorem not_isWritable_oversized : ¬(Value.integer (tenTo Decimal.maxDigits : Nat)).IsWritable := by
  rw [Value.IsWritable, Number.isBoundedInt, Int.natAbs_natCast, decide_eq_true_iff]
  exact Nat.lt_irrefl _

/-- A number of some name, formatted in the style of the locale. -/
def numberField : Construct :=
  ⟨"n", .field .number none, "\x7bn, number\x7d", .ofLength 0 11⟩

theorem blocked_number {v : Value} (hv : ¬v.IsWritable) (budget : Nat) :
    Message.Blocked ((ofLocale ⟨mildBabel, 1000⟩ "en_US").context ((∅ : Arguments).insert "n" v))
      budget none "\x7bn, number\x7d" := by
  have hpattern : Token.ofPattern "\x7bn, number\x7d" = [.construct numberField] := by cbv
  have hcontent : numberField.content = .field .number none := rfl
  have hargument : ((∅ : Arguments).insert "n" v).get? "n" = some v := by
    rw [OrderedMap.get?_insert, if_pos rfl]
  refine .stuck (hpattern ▸ List.mem_singleton_self _) (.field hcontent hargument hv ?_)
  intro f hf hsettles
  obtain rfl : Formatter.number mildBabel = f := Option.some.inj hf
  obtain ⟨l, -⟩ := tame_mildBabel.parse_default
  exact hsettles v l none _ (Formatter.formatNumber_of_not_isWritable hv)

/-- A small number is resolved in every pattern; the least that cannot be written is not even
formatted. -/
theorem resolve_returns_number :
    (ofLocale ⟨mildBabel, 1000⟩ "en_US").Reliable ∧
    (∀ pattern, ∃ outcome, (ofLocale ⟨mildBabel, 1000⟩ "en_US").resolve
      ((∅ : Arguments).insert "n" (.integer 5)) pattern = .ok outcome) ∧
    ¬∃ outcome, (ofLocale ⟨mildBabel, 1000⟩ "en_US").resolve
      ((∅ : Arguments).insert "n" (.integer (tenTo Decimal.maxDigits : Nat)))
      "\x7bn, number\x7d" = .ok outcome := by
  have hreliable : (ofLocale ⟨mildBabel, 1000⟩ "en_US").Reliable :=
    reliable_shared tame_mildBabel _ _
  refine ⟨hreliable, ?_, ?_⟩
  · have hlimit : Number.isBoundedInt
        (Depth.clamp 1000 Depth.defaultLimit Depth.defaultReserve) := by
      decide +kernel
    refine ((resolve_returns_iff _ hreliable _).2 hlimit).2 ?_
    intro name v hargument
    have hv : v = .integer 5 := by
      rw [OrderedMap.get?_insert] at hargument
      split at hargument
      · exact (Option.some.inj hargument).symm
      · cases hargument
    rw [hv, Value.IsWritable]
    decide +kernel
  · rw [(resolve_returns_iff _ hreliable _).1, not_or, not_not]
    refine ⟨by rw [OrderedMap.isEmpty_insert]; exact Bool.false_ne_true, ?_⟩
    exact blocked_number not_isWritable_oversized _

/-- The least integer that cannot be written, in a placeholder. -/
theorem resolve_oversized_placeholder :
    (ofLocale ⟨mildBabel, 1000⟩ "en_US").Reliable ∧
      (ofLocale ⟨mildBabel, 1000⟩ "en_US").resolve
          ((∅ : Arguments).insert "n" (.integer (tenTo Decimal.maxDigits : Nat))) "\x7bn\x7d" =
        .error .oversizedNumeral := by
  have hword : ∀ c ∈ ("n" : Text), Text.isWord c := by
    have hletter : Text.isLetter 'n' := Text.isLetter_of_isAlpha (by decide)
    simp [Text.isWord, hletter]
  let name : Text.Word := ⟨⟨"n", hword⟩, List.cons_ne_nil _ _⟩
  have hargument : ((∅ : Arguments).insert "n" (.integer (tenTo Decimal.maxDigits : Nat))).get?
      name.text = some (.integer (tenTo Decimal.maxDigits : Nat)) := by
    rw [OrderedMap.get?_insert, if_pos rfl]
  exact ⟨reliable_shared tame_mildBabel _ _,
    resolve_placeholder_of_not_isWritable _ name hargument not_isWritable_oversized⟩

end Resolver

end Parlance
