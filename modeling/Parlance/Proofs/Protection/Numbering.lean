import Parlance.Proofs.Protection.Offers
import Parlance.Proofs.Protection.Substitution
import Parlance.Proofs.Text.Digits
import Parlance.Proofs.Text.Run
/-!
Numbered placeholders. A token is read back as its number, and tokens of different numbers differ,
so the map of a protected text has one entry for each placeholder (entries_ofPieces) and can be
restored from unless there are too many of them (exists_ranked, ranked_eq_error). Numbering the
placeholders changes no other character of a text.
-/

namespace Parlance

open Brace Placeholder

namespace Protection

/-- Braces around digits. -/
def numberedKey (digits : Text.FilledRun Text.isDigit) : Text := '{' :: (digits.text ++ ['}'])

/-- The digits of the token with an index. -/
def indexDigits (index : Nat) : Text.FilledRun Text.isDigit :=
  ⟨⟨Text.ofNat index, fun _ => Text.isDigit_of_mem_ofNat⟩, Text.ofNat_ne_nil index⟩

section Keys

variable (digits : Text.FilledRun Text.isDigit)

theorem open_notMem_digits : '{' ∉ digits.text :=
  fun hmem => absurd (digits.all _ hmem) (by decide)

theorem close_notMem_digits : '}' ∉ digits.text :=
  fun hmem => absurd (digits.all _ hmem) (by decide)

theorem bracketed_numberedKey : Bracketed (numberedKey digits) :=
  ⟨digits.text, rfl, digits.text_ne_nil, open_notMem_digits digits, close_notMem_digits digits⟩

/-- The number of a key is read unless it has too many digits. -/
theorem number_numberedKey :
    ∃ n, number (numberedKey digits) =
      if digits.text.length ≤ numberLimit then .ok n else .error .oversizedNumeral := by
  obtain ⟨n, hn⟩ := Text.exists_digitsValue? digits.text_ne_nil digits.all
  refine ⟨n, ?_⟩
  rw [number, numberedKey, inside?_group]
  simp only [hn]

end Keys

section Tokens

theorem bracketed_token (index : Nat) : Bracketed (token index) :=
  bracketed_numberedKey (indexDigits index)

theorem token_injective : Function.Injective token := by
  intro i j h
  simp only [token, List.cons_append, List.cons.injEq, true_and] at h
  exact Text.ofNat_injective (List.append_cancel_right h)

theorem inside?_token (index : Nat) : inside? (token index) = some (Text.ofNat index) :=
  inside?_group (Text.ofNat index)

theorem isIndexed_token (index : Nat) : isIndexed (token index) := by
  have hdigits : (Text.ofNat index).all Text.isDigit :=
    List.all_eq_true.2 fun c hc => Text.isDigit_of_mem_ofNat hc
  simp [isIndexed, inside?_token, Token.isPositional, hdigits, Text.ofNat_ne_nil]

/-- The number of a token is read unless it has too many digits. -/
theorem number_token (index : Nat) :
    ∃ n, number (token index) =
      if index < tenTo numberLimit then .ok n else .error .oversizedNumeral := by
  obtain ⟨n, hn⟩ := number_numberedKey (indexDigits index)
  have hlength : (Text.ofNat index).length ≤ numberLimit ↔ index < tenTo numberLimit :=
    Text.length_ofNat_le_iff index (by decide)
  refine ⟨n, ?_⟩
  simp only [← hlength]
  exact hn

end Tokens

section Map

variable {pieces : List (Piece Placed)}

theorem entries_ofPieces (pieces : List (Piece Placed)) :
    (ofPieces pieces).map.entries = (placed pieces).mapIdx fun i p => (token i, p.source) := by
  apply OrderedMap.entries_ofPairs
  apply List.pairwise_iff_getElem.2
  intro i j hi hj hij
  simpa using token_injective.ne (Nat.ne_of_lt hij)

theorem size_ofPieces : (ofPieces pieces).map.size = (placed pieces).length := by
  rw [OrderedMap.size, entries_ofPieces, List.length_mapIdx]

theorem mem_keys_ofPieces {key : Text} :
    key ∈ (ofPieces pieces).map.keys ↔ ∃ i < (placed pieces).length, key = token i := by
  rw [OrderedMap.keys, entries_ofPieces, List.mem_map]
  simp only [List.mem_mapIdx]
  constructor
  · rintro ⟨entry, ⟨i, hi, rfl⟩, rfl⟩
    exact ⟨i, hi, rfl⟩
  · rintro ⟨i, hi, rfl⟩
    exact ⟨_, ⟨i, hi, rfl⟩, rfl⟩

theorem get?_token_ofPieces {i : Nat} {p : Placed} (h : (placed pieces)[i]? = some p) :
    (ofPieces pieces).map.get? (token i) = some p.source := by
  obtain ⟨hi, hp⟩ := List.getElem?_eq_some_iff.1 h
  rw [OrderedMap.get?_eq_some_iff, entries_ofPieces, List.mem_mapIdx]
  exact ⟨i, hi, by rw [hp]⟩

theorem bracketed_of_mem_keys : ∀ key ∈ (ofPieces pieces).map.keys, Bracketed key := by
  intro key hkey
  obtain ⟨i, -, rfl⟩ := mem_keys_ofPieces.1 hkey
  exact bracketed_token i

/-- The entries can be ranked unless a number has too many digits. -/
theorem exists_ranked (h : (placed pieces).length ≤ tenTo numberLimit) :
    ∃ entries, ranked (ofPieces pieces).map = .ok entries := by
  apply exists_ranked_of_number
  intro key hkey
  obtain ⟨i, hi, rfl⟩ := mem_keys_ofPieces.1 hkey
  obtain ⟨n, hn⟩ := number_token i
  exact ⟨n, by rw [hn, if_pos (Nat.lt_of_lt_of_le hi h)]⟩

theorem ranked_eq_error (h : tenTo numberLimit < (placed pieces).length) :
    ranked (ofPieces pieces).map = .error .oversizedNumeral := by
  apply ranked_eq_error_of_number (mem_keys_ofPieces.2 ⟨_, h, rfl⟩)
  · obtain ⟨n, hn⟩ := number_token (tenTo numberLimit)
    rw [hn, if_neg (Nat.lt_irrefl _)]
  · intro key hkey e he
    obtain ⟨i, -, rfl⟩ := mem_keys_ofPieces.1 hkey
    obtain ⟨n, hn⟩ := number_token i
    rw [hn] at he
    split at he
    · cases he
    · exact (Except.error.inj he).symm

end Map

section Numbering

theorem numbered_prepend (index : Nat) (u : Text) (pieces : List (Piece Placed)) :
    numbered index (Piece.prepend u pieces) = u ++ numbered index pieces := by
  match pieces with
  | [] => rfl
  | .literal v :: rest => exact List.append_assoc u v _
  | .found p :: rest => rfl

variable {kinds : Kinds}

/-- Numbering leaves the first character alone. -/
theorem head?_numbered (index pos : Nat) (t : Text) :
    (numbered index (Piece.cut (fun _ => find kinds) pos (mark t))).head? = t.head? := by
  induction pos, t using Piece.scan_induction (exact_find kinds) with
  | nil pos => rw [Piece.cut_mark_nil]; rfl
  | escape pos t ih => rw [Piece.cut_escape, numbered_prepend]; rfl
  | found pos u rest p ht hwrite hfind ih => rw [Piece.cut_found _ pos ht hfind]; rfl
  | bare pos t ht hfind ih => rw [Piece.cut_bare _ pos ht hfind, numbered_prepend]; rfl
  | other pos c t hc ih => rw [Piece.cut_other _ pos hc, numbered_prepend]; rfl

theorem prefix_of_prefix_open {w t u : Text} (hw : '{' ∉ w) (h : w <+: '{' :: t) : w <+: u := by
  cases w with
  | nil => exact List.nil_prefix
  | cons c w =>
    rw [List.cons_prefix_cons] at h
    exact absurd List.mem_cons_self (h.1 ▸ hw)

/-- Where numbering brings in characters, the first of them is an opening brace; so what begins
without one was there before. -/
theorem prefix_of_prefix_numbered {w : Text} (hw : '{' ∉ w) (index pos : Nat) (t : Text)
    (h : w <+: numbered index (Piece.cut (fun _ => find kinds) pos (mark t))) : w <+: t := by
  induction pos, t using Piece.scan_induction (exact_find kinds) generalizing w with
  | nil pos => simpa [Piece.cut_mark_nil, numbered] using h
  | escape pos t ih =>
    rw [Piece.cut_escape, numbered_prepend] at h
    exact prefix_of_prefix_open hw h
  | found pos u rest p ht hwrite hfind ih =>
    rw [Piece.cut_found _ pos ht hfind] at h
    exact prefix_of_prefix_open hw h
  | bare pos t ht hfind ih =>
    rw [Piece.cut_bare _ pos ht hfind, numbered_prepend] at h
    exact prefix_of_prefix_open hw h
  | other pos c t hc ih =>
    rw [Piece.cut_other _ pos hc, numbered_prepend] at h
    cases w with
    | nil => exact List.nil_prefix
    | cons d w =>
      rw [List.singleton_append, List.cons_prefix_cons] at h
      simp only [List.mem_cons, not_or] at hw
      rw [h.1, List.cons_prefix_cons]
      exact ⟨rfl, ih hw.2 h.2⟩

end Numbering

end Protection

end Parlance
