import Parlance.Proofs.Construct.Group
import Parlance.Proofs.Token.Tiling
/-!
Patterns put together from parts. Parts are literal text, escapes, placeholders and constructs, and
each of the latter two is one token of the pattern, whatever stands next to it
(ofPattern_parts). Escapes and stray closing braces take part in the pairing of braces, but a
group is paired by what it holds alone, and a scan that starts at a part ends at the next one.
-/

namespace Parlance.Token

open Brace

/-- What a pattern can be put together from. -/
inductive Part where
  /-- Text without an opening brace; closing braces may stand in it. -/
  | plain (t : Text) (no_open : '{' ∉ t)
  | escape
  | placeholder (name : Text) (name_ne_nil : name ≠ []) (all_word : name.all Text.isWord)
  /-- A whole group that is read as a construct on its own. -/
  | construct (source : Text) (c : Construct) (closes : close? source 0 = some source.length)
      (reads : Construct.parse? source 0 = .ok (some c))

namespace Part

def text : Part → Text
  | .plain t _ => t
  | .escape => ['{', '{']
  | .placeholder name _ _ => '{' :: (name ++ ['}'])
  | .construct source _ _ _ => source

/-- The pattern that parts make side by side. -/
def pattern (parts : List Part) : Text := parts.flatMap text

/-- The token that a part at a position is, if it is one of its own. -/
def token? (pos : Nat) : Part → Option Token
  | .plain _ _ | .escape => none
  | .placeholder name _ _ => some (.placeholder name (Span.ofLength pos (name.length + 2)))
  | .construct source c _ _ => some (.construct { c with span := Span.ofLength pos source.length })

/-- A run of literal text is one token, unless it is empty. -/
def literal (run : Text) : List Token := if run.isEmpty then [] else [.text run]

/-- The tokens of parts from a position on, behind a run of literal text that they may go on. -/
def tokens (run : Text) (pos : Nat) : List Part → List Token
  | [] => literal run
  | part :: rest =>
    match part.token? pos with
    | some token => literal run ++ token :: tokens [] (pos + part.text.length) rest
    | none => tokens (run ++ part.text) (pos + part.text.length) rest

theorem pattern_cons (part : Part) (rest : List Part) :
    pattern (part :: rest) = part.text ++ pattern rest :=
  List.flatMap_cons

section Tokens

variable {part : Part} {pos : Nat}

theorem tokens_cons_of_some {token : Token} (h : part.token? pos = some token) (run : Text)
    (rest : List Part) :
    tokens run pos (part :: rest) =
      literal run ++ token :: tokens [] (pos + part.text.length) rest := by
  rw [tokens, h]

theorem tokens_cons_of_none (h : part.token? pos = none) (run : Text) (rest : List Part) :
    tokens run pos (part :: rest) = tokens (run ++ part.text) (pos + part.text.length) rest := by
  rw [tokens, h]

end Tokens

section Reading

variable {pos : Nat} {part : Part} {token : Token}

/-- A construct of its own is a group with the construct inside. -/
theorem exists_body {source : Text} {c : Construct} (closes : close? source 0 = some source.length)
    (reads : Construct.parse? source 0 = .ok (some c)) :
    ∃ body, source = '{' :: (body ++ ['}']) ∧
      close? ('{' :: (body ++ ['}'])) 0 = some (body.length + 2) ∧
      Construct.ofInterior? ((mark (body ++ ['}'])).take body.length) =
        some (c.argument, c.content) ∧ c.source = source := by
  obtain ⟨body, hsource⟩ : ∃ body, source = '{' :: (body ++ ['}']) := by
    rw [Construct.parse?, Construct.ofGroup?] at reads
    cases hinner : Construct.interior? (mark source) with
    | none => simp [hinner] at reads
    | some inner =>
      obtain ⟨body, hbody, -⟩ := Construct.exists_body_of_interior? hinner
      exact ⟨body, hbody⟩
  rw [hsource] at closes reads
  have hclose : close? ('{' :: (body ++ ['}'])) 0 = some (body.length + 2) := by
    simpa using closes
  rw [Construct.parse?_group, Except.ok.injEq, Option.map_eq_some_iff] at reads
  obtain ⟨said, hread, rfl⟩ := reads
  exact ⟨body, hsource, hclose, hread, hsource.symm⟩

/-- A placeholder is found where it stands, whatever follows it. -/
theorem find_placeholder {name : Text} (hne : name ≠ []) (hword : name.all Text.isWord)
    (pos : Nat) (rest : Text) :
    find pos (mark ('{' :: (name ++ '}' :: rest))) =
      some (.placeholder name (Span.ofLength pos (name.length + 2)), name.length + 2) := by
  -- braces are no word characters, so the group ends at the first closing brace
  have hbrace : ∀ brace, Text.isWord brace = false → brace ∉ name := by
    intro brace hbrace hmem
    rw [List.all_eq_true.1 hword brace hmem] at hbrace
    cases hbrace
  have hclose : close? ('{' :: (name ++ '}' :: rest)) 0 = some (name.length + 2) :=
    close?_inside (hbrace '{' (by decide +kernel)) (hbrace '}' (by decide +kernel)) rest
  have hread : Construct.ofInterior? ((mark (name ++ '}' :: rest)).take name.length) = none := by
    apply Construct.ofInterior?_of_word
    rw [text_take_mark, List.take_left]
    exact hword
  rw [find_of_closed rfl hclose, hread, name?_take_mark rfl, if_pos ⟨hne, hword⟩]

/-- A construct is found where it stands, whatever follows it. -/
theorem find_construct {body : Text} {c : Construct}
    (hclose : close? ('{' :: (body ++ ['}'])) 0 = some (body.length + 2))
    (hread : Construct.ofInterior? ((mark (body ++ ['}'])).take body.length) =
      some (c.argument, c.content)) (hsource : c.source = '{' :: (body ++ ['}']))
    (pos : Nat) (rest : Text) :
    find pos (mark ('{' :: (body ++ '}' :: rest))) =
      some (.construct { c with span := Span.ofLength pos (body.length + 2) },
        body.length + 2) := by
  rw [find_of_closed rfl ((close?_group_append_iff rest).2 hclose), mark_group_append hclose rest,
    hread, ← hsource]

/-- A part with a token of its own is found where it stands. -/
theorem cut_found_part (h : part.token? pos = some token) (rest : Text) :
    Piece.cut find pos (mark (part.text ++ rest)) =
      .found token :: Piece.cut find (pos + part.text.length) (mark rest) := by
  cases part with
  | plain t hopen => cases h
  | escape => cases h
  | placeholder name hne hword =>
    cases h
    have hhead : name.head? ≠ some '{' := by
      intro hhead
      obtain ⟨tail, rfl⟩ := List.head?_eq_some_iff.1 hhead
      exact absurd (List.all_eq_true.1 hword '{' List.mem_cons_self) (by decide +kernel)
    rw [text, length_group]
    exact Piece.cut_group find pos hhead rest (find_placeholder hne hword pos rest)
  | construct source c closes reads =>
    obtain ⟨body, rfl, hclose, hread, hsource⟩ := exists_body closes reads
    cases h
    rw [text, length_group]
    exact Piece.cut_group find pos (Construct.head?_of_ofInterior? hread) rest
      (find_construct hclose hread hsource pos rest)

/-- A part without a token of its own is literal text. -/
theorem cut_literal_part (h : part.token? pos = none) (rest : Text) :
    Piece.cut find pos (mark (part.text ++ rest)) =
      Piece.lead part.text (Piece.cut find (pos + part.text.length) (mark rest)) := by
  cases part with
  | plain t hopen => exact Piece.cut_plain hopen find pos rest
  | escape => exact Piece.cut_escape find pos rest
  | placeholder name hne hword => cases h
  | construct source c closes reads => cases h

end Reading

theorem map_ofPiece_lead_found (run : Text) (token : Token) (pieces : List (Piece Token)) :
    (Piece.lead run (.found token :: pieces)).map ofPiece =
      literal run ++ token :: pieces.map ofPiece := by
  cases run <;> rfl

theorem map_ofPiece_lead_nil (run : Text) : (Piece.lead run []).map ofPiece = literal run := by
  cases run <;> rfl

/-- The tokens of a pattern that goes on with a run of literal text. -/
theorem map_ofPiece_cut_pattern (parts : List Part) (run : Text) (pos : Nat) :
    (Piece.lead run (Piece.cut find pos (mark (pattern parts)))).map ofPiece =
      tokens run pos parts := by
  induction parts generalizing run pos with
  | nil =>
    rw [pattern, List.flatMap_nil, Piece.cut_mark_nil, map_ofPiece_lead_nil, tokens]
  | cons part rest ih =>
    rw [pattern_cons]
    cases htoken : part.token? pos with
    | some token =>
      rw [cut_found_part htoken, map_ofPiece_lead_found, tokens_cons_of_some htoken, ← ih]
      rfl
    | none => rw [cut_literal_part htoken, Piece.lead_lead, ih, tokens_cons_of_none htoken]

/-- The pattern of parts has the tokens of the parts. -/
theorem ofPattern_pattern (parts : List Part) : ofPattern (pattern parts) = tokens [] 0 parts :=
  map_ofPiece_cut_pattern parts [] 0

/-- The token of a part is written as the part and stands where the part stands. -/
theorem source_of_token? {part : Part} {pos : Nat} {token : Token}
    (h : part.token? pos = some token) :
    token.source = part.text ∧ token.span? = some (Span.ofLength pos part.text.length) := by
  cases part with
  | plain t hopen => cases h
  | escape => cases h
  | placeholder name hne hword =>
    cases h
    rw [text, length_group]
    exact ⟨rfl, rfl⟩
  | construct source c closes reads =>
    obtain ⟨-, -, -, -, hsource⟩ := exists_body closes reads
    cases h
    exact ⟨hsource, rfl⟩

/-- What is found at an opening brace is a part, unless the brace is wrong. -/
theorem exists_part_of_found {pos n : Nat} {t : Text} {token : Token} (h : Found pos t token n) :
    (∃ problem, token = .junk problem pos) ∨ ∃ part : Part, part.token? pos = some token := by
  cases h with
  | unbalanced hclose => exact Or.inl ⟨_, rfl⟩
  | malformed ht hclose hread hname hresembles => exact Or.inl ⟨_, rfl⟩
  | placeholder ht hclose hread hne hword => exact Or.inr ⟨.placeholder _ hne hword, rfl⟩
  | @construct body rest argument content ht hclose hread =>
    subst ht
    -- the group says the same when it is cut out of the pattern
    have hgroup := (close?_group_append_iff rest).1 hclose
    rw [mark_group_append hgroup] at hread
    have hreads := Construct.parse?_group body
    rw [hread, Option.map_some] at hreads
    refine Or.inr ⟨.construct _ _ (by rw [length_group, hgroup]) hreads, ?_⟩
    rw [token?, length_group]

/-- Every token of a pattern but literal text was found at an opening brace. -/
theorem exists_found_of_mem {pattern : Text} {token : Token} (h : token ∈ ofPattern pattern)
    (htext : token.isText = false) : ∃ pos t n, Found pos t token n := by
  obtain ⟨piece, hmem, rfl⟩ := List.mem_map.1 h
  cases piece with
  | literal t => cases htext
  | found token =>
    obtain ⟨before, after, hpieces⟩ := List.append_of_mem hmem
    obtain ⟨rest, n, hfind⟩ := find_of_pieces_eq hpieces
    exact ⟨_, _, n, found_of_find hfind⟩

/-- A token of a pattern that is neither literal text nor a wrong brace is a part. -/
theorem exists_part_of_mem {pattern : Text} {token : Token} (h : token ∈ ofPattern pattern)
    (htext : token.isText = false) (hjunk : ∀ problem position, token ≠ .junk problem position) :
    ∃ part : Part, part.text = token.source := by
  obtain ⟨pos, t, n, hfound⟩ := exists_found_of_mem h htext
  rcases exists_part_of_found hfound with ⟨problem, hproblem⟩ | ⟨part, hpart⟩
  · exact absurd hproblem (hjunk problem pos)
  · exact ⟨part, (source_of_token? hpart).1.symm⟩

theorem mem_literal {run : Text} {token : Token} (h : token ∈ literal run) :
    token = .text run := by
  cases run with
  | nil => cases h
  | cons c run => exact List.mem_singleton.1 h

/-- All tokens are literal text or those of a part. -/
theorem isText_or_token?_of_mem {parts : List Part} {run : Text} {pos : Nat} {token : Token}
    (h : token ∈ tokens run pos parts) :
    token.isText ∨ ∃ part ∈ parts, ∃ place, part.token? place = some token := by
  induction parts generalizing run pos with
  | nil =>
    rw [mem_literal h]
    exact Or.inl rfl
  | cons part rest ih =>
    have hrest : (∃ other ∈ rest, ∃ place, other.token? place = some token) →
        ∃ other ∈ part :: rest, ∃ place, other.token? place = some token := by
      rintro ⟨other, hother, hplace⟩
      exact ⟨other, List.mem_cons_of_mem _ hother, hplace⟩
    cases hown : part.token? pos with
    | some own =>
      rw [tokens_cons_of_some hown] at h
      rcases List.mem_append.1 h with hrun | h
      · rw [mem_literal hrun]
        exact Or.inl rfl
      · rcases List.mem_cons.1 h with rfl | h
        · exact Or.inr ⟨part, List.mem_cons_self, pos, hown⟩
        · exact (ih h).imp_right hrest
    | none =>
      rw [tokens_cons_of_none hown] at h
      exact (ih h).imp_right hrest

theorem not_junk_of_mem {parts : List Part} {run : Text} {pos : Nat} (problem : Problem)
    (position : Nat) : .junk problem position ∉ tokens run pos parts := by
  intro h
  rcases isText_or_token?_of_mem h with htext | ⟨part, -, place, htoken⟩
  · cases htext
  · cases part <;> cases htoken

/-- The token of a part is there, at the offset of the part. -/
theorem mem_tokens {part : Part} {token : Token} (before after : List Part) (run : Text) (pos : Nat)
    (h : part.token? (pos + (pattern before).length) = some token) :
    token ∈ tokens run pos (before ++ part :: after) := by
  induction before generalizing run pos with
  | nil =>
    have hpart : part.token? pos = some token := h
    rw [List.nil_append, tokens_cons_of_some hpart]
    exact List.mem_append_right _ List.mem_cons_self
  | cons first before ih =>
    rw [pattern_cons, List.length_append, ← Nat.add_assoc] at h
    rw [List.cons_append]
    cases hfirst : first.token? pos with
    | some own =>
      rw [tokens_cons_of_some hfirst]
      exact List.mem_append_right _ (List.mem_cons_of_mem _ (ih _ _ h))
    | none =>
      rw [tokens_cons_of_none hfirst]
      exact ih _ _ h

/-- Parts side by side are read as what they are. Runs of text and escapes are one token each; every
placeholder and every construct is a token of its own, which is written as the part and stands at
its offset; and no brace is wrong. -/
theorem ofPattern_parts (parts : List Part) :
    ofPattern (pattern parts) = tokens [] 0 parts ∧
    (∀ before part after token, parts = before ++ part :: after →
      part.token? (pattern before).length = some token →
      token ∈ ofPattern (pattern parts) ∧ token.source = part.text ∧
        token.span? = some (Span.ofLength (pattern before).length part.text.length)) ∧
    ∀ problem position, .junk problem position ∉ ofPattern (pattern parts) := by
  rw [ofPattern_pattern]
  refine ⟨rfl, ?_, not_junk_of_mem⟩
  rintro before part after token rfl htoken
  have hplace : part.token? (0 + (pattern before).length) = some token := by
    rw [Nat.zero_add]
    exact htoken
  exact ⟨mem_tokens before after [] 0 hplace, source_of_token? htoken⟩

/-- An escape in front and braces behind leave a placeholder alone. -/
example : ofPattern "\x7b\x7b\x7bname\x7d\x7d\x7d" =
    [.text "\x7b\x7b", .placeholder "name" (Span.ofLength 2 6), .text "\x7d\x7d"] := by
  cbv

end Part

end Parlance.Token
