import Parlance.Proofs.Message.Seam
import Parlance.Proofs.Token.Form
/-!
What a token asks for. Resolving a token splits in two: what hangs on the arguments alone, which is
the demand, and how the demand is met, which alone hangs on the limit and on how branches are
entered (meet_ofToken). A demand is settled, and then no branch is refused, or it asks for the body
of a branch, which stands in the pattern (exists_body_inside).
-/

namespace Parlance

namespace Outcome

/-- No branch was refused on the way. -/
def NoneRefused (o : Outcome) : Prop := ∀ issue ∈ o.issues, issue.family ≠ .depth

/-- A run in which no branch is refused, whatever it comes to. -/
def Unrefused (result : Except Fault Outcome) : Prop :=
  ∀ outcome, result = .ok outcome → outcome.NoneRefused

theorem noneRefused_plain (t : Text) : (plain t).NoneRefused := by
  rintro issue ⟨⟩

theorem noneRefused_kept {issue : Issue} (h : issue.family ≠ .depth) (t : Text) :
    (kept t issue).NoneRefused := by
  intro other hother
  rwa [List.mem_singleton.1 hother]

theorem noneRefused_append {a b : Outcome} :
    (a ++ b).NoneRefused ↔ a.NoneRefused ∧ b.NoneRefused := by
  obtain ⟨t, issues⟩ := a
  obtain ⟨u, others⟩ := b
  rw [mk_append_mk]
  exact List.forall_mem_append

theorem beside_eq_ok_iff {a b : Except Fault Outcome} {outcome : Outcome} :
    beside a b = .ok outcome ↔
      ∃ first others, a = .ok first ∧ b = .ok others ∧ first ++ others = outcome := by
  cases a with
  | error fault => simp [beside, bind, Except.bind]
  | ok first =>
    cases b with
    | error fault => simp [beside, bind, Except.bind]
    | ok others => simp [beside, bind, Except.bind, pure, Except.pure]

theorem unrefused_error (fault : Fault) : Unrefused (.error fault) := by
  rintro outcome ⟨⟩

theorem NoneRefused.unrefused {o : Outcome} (h : o.NoneRefused) : Unrefused (.ok o) := by
  rintro outcome ⟨⟩
  exact h

theorem Unrefused.beside {a b : Except Fault Outcome} (ha : Unrefused a) (hb : Unrefused b) :
    Unrefused (Outcome.beside a b) := by
  intro outcome houtcome
  obtain ⟨first, others, hfirst, hothers, rfl⟩ := beside_eq_ok_iff.1 houtcome
  exact noneRefused_append.2 ⟨ha first hfirst, hb others hothers⟩

end Outcome

namespace Message

variable {L : Type}

section Refusing

variable {limit : Int} {source : Text} {outcome : Outcome}

/-- A refusal names the limit. -/
theorem refused_of_isBounded (h : Number.isBoundedInt limit) (source : Text) :
    refused limit source = .ok (.kept source (.depth (.depthExceeded limit))) := by
  rw [refused, Depth.refusal, Number.integerText, if_pos h]
  rfl

theorem refused_of_not_isBounded (h : ¬Number.isBoundedInt limit) (source : Text) :
    refused limit source = .error .oversizedNumeral := by
  rw [refused, Depth.refusal, Number.integerText, if_neg h]
  rfl

theorem eq_kept_of_refused (h : refused limit source = .ok outcome) :
    outcome = .kept source (.depth (.depthExceeded limit)) := by
  by_cases hlimit : Number.isBoundedInt limit
  · rw [refused_of_isBounded hlimit] at h
    exact (Except.ok.inj h).symm
  · rw [refused_of_not_isBounded hlimit] at h
    cases h

end Refusing

/-- What a token comes to before a branch is entered: it is settled, or the body of a branch has to
be resolved with a numeral. The source stays where the branch is refused. -/
inductive Demand where
  | settled (result : Except Fault Outcome)
  | branch (source : Text) (numeral : Option Text) (body : Text)

namespace Demand

/-- A demand is met by entering the branch or by refusing it, which names the limit. -/
def meet (limit : Int) (enter : Enter) : Demand → Except Fault Outcome
  | .settled result => result
  | .branch source numeral body =>
    match enter with
    | none => refused limit source
    | some resolve => resolve numeral body

section Constructs

variable (c : Construct) (v : Value) (numeral : Option Text)

def ofBranch (label bare : Text) : Demand :=
  match Plural.select c.forms label with
  | none => .settled (.ok (.plain bare))
  | some body => .branch c.source numeral body

def ofCounted (category : Number → Plural.Category) : Demand :=
  match v.number? with
  | none =>
    .settled (.ok (.kept c.source
      (.resolution (.argumentNotNumeric c.argument c.kind.keyword.toList v.typeName))))
  | some n =>
    match n.text with
    | .error fault => .settled (.error fault)
    | .ok digits => ofBranch c (some digits) (category n).name.toList digits

def ofSelected : Demand :=
  match v.message with
  | .error fault => .settled (.error fault)
  | .ok selector => ofBranch c numeral selector selector

variable (ctx : Context L)

def ofConstruct : Demand :=
  match ctx.arguments.get? c.argument with
  | none => .settled (.ok (.kept c.source (.reference (.argumentNotProvided c.argument))))
  | some v =>
    match c.content with
    | .choice .plural _ => ofCounted c v Plural.cardinal
    | .choice .ordinal _ => ofCounted c v Plural.ordinal
    | .choice .select _ => ofSelected c v numeral
    | .field field style => .settled (resolveField ctx c field style v)

end Constructs

/-- The demand of a token. Only a construct may have a branch. -/
def ofToken (ctx : Context L) (numeral : Option Text) : Token → Demand
  | .construct c => ofConstruct c numeral ctx
  | token => .settled (resolveToken ctx none numeral token)

section Meeting

variable (ctx : Context L) (enter : Enter) (numeral : Option Text) (c : Construct)

theorem meet_ofBranch (label bare : Text) :
    (ofBranch c numeral label bare).meet ctx.limit enter =
      resolveBranch ctx enter c label bare numeral := by
  rw [ofBranch, resolveBranch]
  cases Plural.select c.forms label <;> rfl

theorem meet_ofCounted (v : Value) (category : Number → Plural.Category) :
    (ofCounted c v category).meet ctx.limit enter = resolveCounted ctx enter c v category := by
  rw [ofCounted, resolveCounted]
  cases v.number? with
  | none => rfl
  | some n =>
    cases hdigits : n.text with
    | error fault => simp only [hdigits]; rfl
    | ok digits =>
      simp only [hdigits]
      exact meet_ofBranch ctx enter (some digits) c (category n).name.toList digits

theorem meet_ofSelected (v : Value) :
    (ofSelected c v numeral).meet ctx.limit enter = resolveSelected ctx enter c v numeral := by
  rw [ofSelected, resolveSelected]
  cases v.message with
  | error fault => rfl
  | ok selector => exact meet_ofBranch ctx enter numeral c selector selector

theorem meet_ofConstruct :
    (ofConstruct c numeral ctx).meet ctx.limit enter = resolveConstruct ctx enter numeral c := by
  rw [ofConstruct, resolveConstruct]
  cases ctx.arguments.get? c.argument with
  | none => rfl
  | some v =>
    cases c.content with
    | field field style => rfl
    | choice how branches =>
      cases how with
      | plural => exact meet_ofCounted ctx enter c v Plural.cardinal
      | ordinal => exact meet_ofCounted ctx enter c v Plural.ordinal
      | select => exact meet_ofSelected ctx enter numeral c v

/-- Resolving a token is meeting its demand. -/
theorem meet_ofToken (token : Token) :
    (ofToken ctx numeral token).meet ctx.limit enter = resolveToken ctx enter numeral token := by
  cases token with
  | construct c => exact meet_ofConstruct ctx enter numeral c
  | text value => rfl
  | placeholder name span => rfl
  | junk problem position => rfl

/-- The limit counts only when a demand is met. -/
theorem ofToken_limit (limit : Int) (token : Token) :
    ofToken { ctx with limit := limit } numeral token = ofToken ctx numeral token := by
  cases token <;> rfl

end Meeting

/-- What a token comes to if no branch is entered: a fault, a text, or a text that stays because of
an issue. Only a wrong brace raises one of grammar. -/
inductive Settles : Token → Except Fault Outcome → Prop where
  | fault {token : Token} (fault : Fault) : Settles token (.error fault)
  | plain {token : Token} (t : Text) : Settles token (.ok (.plain t))
  | junk (problem : Token.Problem) (position : Nat) (t : Text) :
      Settles (.junk problem position) (.ok (.kept t (.grammar (problem.diagnostic position))))
  | notProvided {token : Token} (t name : Text) :
      Settles token (.ok (.kept t (.reference (.argumentNotProvided name))))
  | notNumeric {token : Token} (t name kind received : Text) :
      Settles token (.ok (.kept t (.resolution (.argumentNotNumeric name kind received))))
  | noFormatter {token : Token} (t kind : Text) :
      Settles token (.ok (.kept t (.resolution (.formatterNotFound kind))))
  | failed {token : Token} (t name kind reason : Text) :
      Settles token (.ok (.kept t (.formatting (.formattingFailed name kind reason) t)))

section Settled

variable {ctx : Context L} {c : Construct} {v : Value} {numeral : Option Text} {token : Token}
  {result : Except Fault Outcome}

theorem settles_of_ofBranch {label bare : Text}
    (h : ofBranch c numeral label bare = .settled result) : Settles token result := by
  rw [ofBranch] at h
  split at h
  · cases h
    exact .plain bare
  · cases h

theorem settles_of_ofCounted {category : Number → Plural.Category}
    (h : ofCounted c v category = .settled result) : Settles token result := by
  rw [ofCounted] at h
  split at h
  · cases h
    exact .notNumeric ..
  · split at h
    · cases h
      exact .fault ..
    · exact settles_of_ofBranch h

theorem settles_of_ofSelected (h : ofSelected c v numeral = .settled result) :
    Settles token result := by
  rw [ofSelected] at h
  split at h
  · cases h
    exact .fault ..
  · exact settles_of_ofBranch h

theorem settles_resolveField (field : Construct.Field) (style : Option Text) :
    Settles token (resolveField ctx c field style v) := by
  rw [resolveField]
  split
  · cases v.message with
    | error fault => exact .fault fault
    | ok text => exact .noFormatter ..
  · cases ctx.locale with
    | error e => exact .fault ..
    | ok locale =>
      simp only [Except.mapError, bind, Except.bind]
      split
      · exact .plain ..
      · exact .failed ..
      · exact .fault ..

theorem settles_of_ofConstruct (h : ofConstruct c numeral ctx = .settled result) :
    Settles token result := by
  rw [ofConstruct] at h
  split at h
  · cases h
    exact .notProvided ..
  · split at h
    · exact settles_of_ofCounted h
    · exact settles_of_ofCounted h
    · exact settles_of_ofSelected h
    · cases h
      exact settles_resolveField _ _

theorem settles_of_settled (h : ofToken ctx numeral token = .settled result) :
    Settles token result := by
  cases token with
  | text value =>
    cases h
    exact .plain ..
  | junk problem position =>
    cases h
    exact .junk ..
  | construct c => exact settles_of_ofConstruct h
  | placeholder name span =>
    obtain rfl : resolveToken ctx none numeral (.placeholder name span) = result :=
      Demand.settled.inj h
    rw [resolveToken]
    split
    · exact .notProvided ..
    · next v hv =>
      cases v.message with
      | error fault => exact .fault ..
      | ok shown => exact .plain ..

/-- Nothing is refused before a branch is entered. -/
theorem Settles.unrefused (h : Settles token result) : Outcome.Unrefused result := by
  cases h with
  | fault fault => exact Outcome.unrefused_error fault
  | plain t => exact (Outcome.noneRefused_plain t).unrefused
  | junk | notProvided | notNumeric | noFormatter | failed =>
    exact (Outcome.noneRefused_kept (by rintro ⟨⟩) _).unrefused

end Settled

/-- The numeral that a branch is resolved with, for the one around its construct: a count gives its
own, and a selection passes on what it was given. -/
def Passes (pick : Option Text → Option Text) : Prop :=
  pick = id ∨ ∃ digits, pick = fun _ => some digits

/-- What a construct can ask for. Only the numeral of a branch hangs on the numeral around it. -/
inductive Asks (ctx : Context L) (c : Construct) : Prop where
  | settled (result : Except Fault Outcome) (hresult : Outcome.Unrefused result)
      (h : ∀ numeral, ofConstruct c numeral ctx = .settled result)
  | branch (b : Construct.Branch) (hb : b ∈ c.branches) (pick : Option Text → Option Text)
      (hpick : Passes pick)
      (h : ∀ numeral, ofConstruct c numeral ctx = .branch c.source (pick numeral) b.body)

section Cases

variable {ctx : Context L} {c : Construct} {v : Value}

theorem Asks.of_fault {fault : Fault}
    (h : ∀ numeral, ofConstruct c numeral ctx = .settled (.error fault)) : Asks ctx c :=
  .settled _ (Outcome.unrefused_error fault) h

theorem Asks.of_kept {t : Text} {issue : Issue} (hissue : issue.family ≠ .depth)
    (h : ∀ numeral, ofConstruct c numeral ctx = .settled (.ok (.kept t issue))) : Asks ctx c :=
  .settled _ (Outcome.noneRefused_kept hissue t).unrefused h

theorem Asks.of_branch (pick : Option Text → Option Text) (hpick : Passes pick)
    {label bare : Text}
    (h : ∀ numeral, ofConstruct c numeral ctx = ofBranch c (pick numeral) label bare) :
    Asks ctx c := by
  cases hselect : Plural.select c.forms label with
  | none =>
    exact .settled (.ok (.plain bare)) (Outcome.noneRefused_plain bare).unrefused
      fun numeral => by rw [h, ofBranch, hselect]
  | some body =>
    obtain ⟨b, hb, rfl⟩ := Construct.exists_branch_of_select hselect
    exact .branch b hb pick hpick fun numeral => by rw [h, ofBranch, hselect]

theorem Asks.of_counted {category : Number → Plural.Category}
    (h : ∀ numeral, ofConstruct c numeral ctx = ofCounted c v category) : Asks ctx c := by
  rw [ofCounted] at h
  cases hnumber : v.number? with
  | none =>
    rw [hnumber] at h
    exact .of_kept (by rintro ⟨⟩) h
  | some n =>
    rw [hnumber] at h
    cases hdigits : n.text with
    | error fault =>
      simp only [hdigits] at h
      exact .of_fault h
    | ok digits =>
      simp only [hdigits] at h
      exact .of_branch (fun _ => some digits) (.inr ⟨digits, rfl⟩) h

theorem Asks.of_selected (h : ∀ numeral, ofConstruct c numeral ctx = ofSelected c v numeral) :
    Asks ctx c := by
  cases hselector : v.message with
  | error fault => exact .of_fault fun numeral => by rw [h, ofSelected, hselector]
  | ok selector =>
    exact .of_branch id (.inl rfl) fun numeral => by rw [h, ofSelected, hselector]; rfl

theorem asks (ctx : Context L) (c : Construct) : Asks ctx c := by
  cases hargument : ctx.arguments.get? c.argument with
  | none =>
    have hkept : (Issue.reference (.argumentNotProvided c.argument)).family ≠ .depth := by
      rintro ⟨⟩
    exact .of_kept hkept fun numeral => by rw [ofConstruct, hargument]
  | some v =>
    have hvalue : ∀ numeral, ofConstruct c numeral ctx = match c.content with
        | .choice .plural _ => ofCounted c v Plural.cardinal
        | .choice .ordinal _ => ofCounted c v Plural.ordinal
        | .choice .select _ => ofSelected c v numeral
        | .field field style => .settled (resolveField ctx c field style v) := by
      intro numeral
      rw [ofConstruct, hargument]
    cases hcontent : c.content with
    | field field style =>
      rw [hcontent] at hvalue
      have hsettles : Settles (.construct c) (resolveField ctx c field style v) :=
        settles_resolveField field style
      exact .settled _ hsettles.unrefused hvalue
    | choice how branches =>
      rw [hcontent] at hvalue
      cases how with
      | plural => exact .of_counted hvalue
      | ordinal => exact .of_counted hvalue
      | select => exact .of_selected hvalue

end Cases

section Tokens

variable {ctx : Context L} {numeral : Option Text} {token : Token}

/-- A branch that is asked for is one of a construct. -/
theorem exists_branch_of_eq {source body : Text} {inner : Option Text}
    (h : ofToken ctx numeral token = .branch source inner body) :
    ∃ c, token = .construct c ∧ ∃ b ∈ c.branches, b.body = body := by
  cases token with
  | text value => cases h
  | junk problem position => cases h
  | placeholder name span => cases h
  | construct c =>
    refine ⟨c, rfl, ?_⟩
    cases asks ctx c with
    | settled result hresult hsettled =>
      rw [ofToken, hsettled] at h
      cases h
    | branch b hb pick hpick hbranch =>
      rw [ofToken, hbranch] at h
      cases h
      exact ⟨b, hb, rfl⟩

/-- The body of a branch that is asked for stands in the pattern behind two opening braces. -/
theorem exists_body_inside {pattern source body : Text} {inner : Option Text}
    (htoken : token ∈ Token.ofPattern pattern)
    (h : ofToken ctx numeral token = .branch source inner body) :
    ∃ before between after,
      pattern = before ++ '{' :: (between ++ '{' :: (body ++ '}' :: after)) := by
  obtain ⟨c, rfl, b, hb, rfl⟩ := exists_branch_of_eq h
  exact Token.exists_body_inside htoken hb

end Tokens

end Demand

end Message

end Parlance
