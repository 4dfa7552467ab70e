import Parlance.Proofs.Message.Seam
import Parlance.Sample
/-!
Messages whose arguments are absent. Nothing of the pattern is lost: every token stays as it is
written, and every token but literal text raises one issue, in the order of the tokens
(resolve_of_absent).
-/

namespace Parlance

namespace Token

/-- The argument that a token names. -/
def argument? : Token → Option Text
  | .text _ => none
  | .placeholder name _ => some name
  | .construct c => some c.argument
  | .junk _ _ => none

/-- What is wrong with a token whose argument is absent. -/
inductive Raises : Token → Issue → Prop where
  | placeholder (name : Text) (span : Span) :
      Raises (.placeholder name span) (.reference (.argumentNotProvided name))
  | construct (c : Construct) :
      Raises (.construct c) (.reference (.argumentNotProvided c.argument))
  | junk (problem : Problem) (position : Nat) :
      Raises (.junk problem position) (.grammar (problem.diagnostic position))

theorem rightUnique_raises : Relator.RightUnique Raises := by
  intro token issue other h hother
  cases h <;> cases hother <;> rfl

end Token

namespace Message

variable {L : Type}

open Token (Raises)

/-- None of the tokens names an argument that is given. -/
def Absent (arguments : Arguments) (tokens : List Token) : Prop :=
  ∀ token ∈ tokens, ∀ name, token.argument? = some name → arguments.get? name = none

variable {ctx : Context L} (enter : Enter) {token : Token} {tokens : List Token}

/-- A token whose argument is absent stays as it is written. -/
theorem resolveToken_of_absent (h : ∀ name, token.argument? = some name →
    ctx.arguments.get? name = none) :
    ∃ issues, resolveToken ctx enter none token = .ok ⟨token.source, issues⟩ ∧
      List.Forall₂ Raises ([token].filter (!·.isText)) issues := by
  cases token with
  | text value => exact ⟨[], rfl, .nil⟩
  | placeholder name span =>
    refine ⟨[_], ?_, .cons (.placeholder name span) .nil⟩
    rw [resolveToken, h name rfl]
    rfl
  | construct c =>
    refine ⟨[_], ?_, .cons (.construct c) .nil⟩
    rw [resolveToken, resolveConstruct, h c.argument rfl]
    rfl
  | junk problem position => exact ⟨[_], rfl, .cons (.junk problem position) .nil⟩

theorem resolveTokens_of_absent (h : Absent ctx.arguments tokens) :
    ∃ issues, resolveTokens ctx enter none tokens = .ok ⟨tokens.flatMap Token.source, issues⟩ ∧
      List.Forall₂ Raises (tokens.filter (!·.isText)) issues := by
  induction tokens with
  | nil => exact ⟨[], rfl, .nil⟩
  | cons token tokens ih =>
    rw [Absent, List.forall_mem_cons] at h
    obtain ⟨first, hfirst, hraised⟩ := resolveToken_of_absent enter h.1
    obtain ⟨others, hothers, hrest⟩ := ih h.2
    refine ⟨first ++ others, ?_, ?_⟩
    · rw [resolveTokens_cons, hfirst, hothers]
      rfl
    · rw [← List.singleton_append, List.filter_append]
      exact List.rel_append hraised hrest

end Message

namespace Resolver

variable {L : Type}

open Token (Raises)

/-- Where no argument that a pattern names is given, the pattern stays as it is, and there is one
issue for each token that is no literal text, in their order: it names the argument that is absent,
or says what is wrong with the brace. -/
theorem resolve_of_absent (r : Resolver L) {arguments : Arguments} {pattern : Text}
    (hgiven : arguments.isEmpty = false)
    (habsent : Message.Absent arguments (Token.ofPattern pattern)) :
    ∃ issues, r.resolve arguments pattern = .ok ⟨pattern, issues⟩ ∧
      List.Forall₂ Raises ((Token.ofPattern pattern).filter (!·.isText)) issues := by
  obtain ⟨enter, henter⟩ :=
    Message.exists_resolve_eq (r.context arguments) (r.context arguments).limit.toNat
  have hcontext : Message.Absent (r.context arguments).arguments (Token.ofPattern pattern) :=
    habsent
  have htokens := Message.resolveTokens_of_absent enter hcontext
  rw [resolve_of_isEmpty_eq_false hgiven, henter, Message.resolveWith_eq_resolveTokens]
  rwa [Token.flatMap_source_ofPattern] at htokens

/-- A placeholder, a selection and a brace that never closes. -/
theorem resolve_of_absent_selection :
    ((∅ : Arguments).insert "x" .absent).isEmpty = false ∧
    Message.Absent ((∅ : Arguments).insert "x" .absent)
      (Token.ofPattern "\x7ba\x7d \x7bn, select, x\x7bb\x7d\x7d\x7b") ∧
    (ofLocale Sample.host "en_US").resolve ((∅ : Arguments).insert "x" .absent)
        "\x7ba\x7d \x7bn, select, x\x7bb\x7d\x7d\x7b" =
      .ok ⟨"\x7ba\x7d \x7bn, select, x\x7bb\x7d\x7d\x7b",
        [.reference (.argumentNotProvided "a"), .reference (.argumentNotProvided "n"),
          .grammar (.unbalancedBrace 21)]⟩ := by
  have hpattern : Token.ofPattern "\x7ba\x7d \x7bn, select, x\x7bb\x7d\x7d\x7b" =
      [.placeholder "a" (.ofLength 0 3), .text " ",
        .construct ⟨"n", .choice .select [⟨"x", "b"⟩], "\x7bn, select, x\x7bb\x7d\x7d",
          .ofLength 4 17⟩, .junk .unbalanced 21] := by cbv
  have hgiven : ((∅ : Arguments).insert "x" .absent).isEmpty = false :=
    OrderedMap.isEmpty_insert ..
  have habsent : Message.Absent ((∅ : Arguments).insert "x" .absent)
      (Token.ofPattern "\x7ba\x7d \x7bn, select, x\x7bb\x7d\x7d\x7b") := by
    rw [hpattern]
    intro token htoken name hname
    have hnamed : name = "a" ∨ name = "n" := by
      simp only [List.mem_cons, List.not_mem_nil, or_false] at htoken
      rcases htoken with rfl | rfl | rfl | rfl
      · exact .inl (Option.some.inj hname).symm
      · cases hname
      · exact .inr (Option.some.inj hname).symm
      · cases hname
    rcases hnamed with rfl | rfl
    · rfl
    · rfl
  obtain ⟨issues, hresolve, hraised⟩ :=
    resolve_of_absent (ofLocale Sample.host "en_US") hgiven habsent
  have hraises : List.Forall₂ Raises
      ((Token.ofPattern "\x7ba\x7d \x7bn, select, x\x7bb\x7d\x7d\x7b").filter (!·.isText))
      [.reference (.argumentNotProvided "a"), .reference (.argumentNotProvided "n"),
        .grammar (.unbalancedBrace 21)] := by
    rw [hpattern]
    exact .cons (.placeholder ..) (.cons (.construct _) (.cons (.junk ..) .nil))
  rw [Token.rightUnique_raises.forall₂ hraised hraises] at hresolve
  exact ⟨hgiven, habsent, hresolve⟩

end Resolver

end Parlance
