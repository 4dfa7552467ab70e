import Parlance.Proofs.Protection.Numbering
/-!
Restoring what was protected gives the text back (restore_protect). The scan that protects and the
pass that restores read different texts; they stay in step because a character that begins no
placeholder begins no key either. That can fail in one way only: a group of the text is spelled
like one of the numbers and no kind takes it for a placeholder. A registry that holds the kind of
numbered placeholders excludes it.
-/

namespace Parlance

open Brace Placeholder

namespace Protection

/-- At an opening brace that begins nothing no key fits: the text of the key would be a group that
was offered and taken. -/
theorem not_key_of_bare {kinds : Kinds} {map : PlaceholderMap}
    (hkeys : ∀ key ∈ map.keys, Bracketed key) {t : Text} (ht : t.head? ≠ some '{')
    (hfind : find kinds (mark ('{' :: t)) = none)
    (hoffers : ∀ group ∈ offers kinds (mark ('{' :: t)), group.text ∈ map.keys →
      (kinds.ofGroup? group).isSome) (index pos : Nat) :
    ∀ key ∈ map.keys,
      ¬key <+: '{' :: numbered index (Piece.cut (fun _ => find kinds) pos (mark t)) := by
  intro key hkey hfits
  obtain ⟨w, rfl, -, hopen, hclose⟩ := hkeys key hkey
  -- numbering brings in no text that begins without a brace, so the rest of the key is in t
  have hinside : '{' ∉ w ++ ['}'] := by simp [hopen]
  obtain ⟨rest, rfl⟩ : w ++ ['}'] <+: t :=
    prefix_of_prefix_numbered hinside index pos t (List.cons_prefix_cons.1 hfits).2
  obtain ⟨hgroups, hnone⟩ := offers_bare kinds ht hfind
  have hgroup : close? ('{' :: (w ++ ['}'] ++ rest)) 0 = some (w.length + 2) := by
    simpa using close?_inside hopen hclose rest
  have htext : (groupAt ('{' :: (w ++ ['}'] ++ rest)) (w.length + 2)).text =
      '{' :: (w ++ ['}']) := by
    rw [text_groupAt, ← List.append_cons, take_group]
  have haccepted := hoffers (groupAt ('{' :: (w ++ ['}'] ++ rest)) (w.length + 2))
    (by rw [hgroups, hgroup]; exact List.mem_cons_self) (htext ▸ hkey)
  rw [hnone _ hgroup] at haccepted
  contradiction

/-- Substituting in a text whose placeholders are numbered puts their sources back, if the map has
them under these numbers and every offered group that is spelled like a key is a placeholder. -/
theorem substitute_numbered {kinds : Kinds} {map : PlaceholderMap} {entries : List Ranked}
    (hkeys : ∀ key ∈ map.keys, Bracketed key) (hranked : ranked map = .ok entries)
    (index pos : Nat) (t : Text)
    (hplaced : ∀ i p, (placed (Piece.cut (fun _ => find kinds) pos (mark t)))[i]? = some p →
      map.get? (token (index + i)) = some p.source)
    (hoffers : ∀ group ∈ offers kinds (mark t), group.text ∈ map.keys →
      (kinds.ofGroup? group).isSome) :
    substitute map entries (numbered index (Piece.cut (fun _ => find kinds) pos (mark t))) = t := by
  induction pos, t using Piece.scan_induction (exact_find kinds) generalizing index with
  | nil pos => rw [Piece.cut_mark_nil, numbered, substitute_nil hkeys]
  | escape pos t ih =>
    rw [Piece.cut_escape, placed_prepend] at hplaced
    rw [offers_escape] at hoffers
    rw [Piece.cut_escape, numbered_prepend, List.cons_append, List.singleton_append,
      substitute_escape hkeys, ih index hplaced hoffers]
  | found pos u rest p ht hwrite hfind ih =>
    -- the placeholder has its number as key, and the pass goes on behind it
    obtain ⟨group, hgroups, -⟩ := offers_found kinds ht hfind
    rw [Piece.cut_found _ pos ht hfind, placed] at hplaced
    rw [hgroups] at hoffers
    have hsource : map.get? (token index) = some p.source := hplaced 0 p rfl
    rw [Piece.cut_found _ pos ht hfind, numbered, substitute_key hkeys hranked hsource, hwrite,
      ih (index + 1)]
    · rfl
    · intro i q hq
      rw [Nat.add_right_comm]
      exact hplaced (i + 1) q hq
    · exact fun group hmem => hoffers group (List.mem_cons_of_mem _ hmem)
  | bare pos t ht hfind ih =>
    have hnone := not_key_of_bare hkeys ht hfind hoffers index (pos + 1)
    rw [Piece.cut_bare _ pos ht hfind, placed_prepend] at hplaced
    rw [(offers_bare kinds ht hfind).1] at hoffers
    rw [Piece.cut_bare _ pos ht hfind, numbered_prepend, List.singleton_append,
      substitute_cons hkeys hranked ?_ hnone, ih index hplaced]
    · exact fun group hmem => hoffers group (List.mem_append_right _ hmem)
    · -- no escape comes about: the next character is that of the text
      intro hescape
      obtain ⟨rest, hrest⟩ := (List.cons_prefix_cons.1 hescape).2
      apply ht
      rw [← head?_numbered index (pos + 1) t, ← hrest]
      rfl
  | other pos c t hc ih =>
    rw [Piece.cut_other _ pos hc, placed_prepend] at hplaced
    rw [offers_other kinds hc] at hoffers
    rw [Piece.cut_other _ pos hc, numbered_prepend, List.singleton_append,
      substitute_cons hkeys hranked, ih index hplaced hoffers]
    · intro hescape
      exact hc (List.cons_prefix_cons.1 hescape).1.symm
    · intro key hkey hfits
      obtain ⟨w, rfl, -⟩ := hkeys key hkey
      exact hc (List.cons_prefix_cons.1 hfits).1.symm

/-- Every group on the way through a text that is spelled like one of its numbers is taken for a
placeholder. -/
def NumbersAccepted (kinds : Kinds) (t : Text) : Prop :=
  ∀ group ∈ offers kinds (mark t), ∀ index < (protect kinds t).map.size,
    group.text = token index → (kinds.ofGroup? group).isSome

theorem restore_of_ranked {map : PlaceholderMap} {entries : List Ranked}
    (hne : map.isEmpty = false) (hranked : ranked map = .ok entries) (t : Text) :
    restore map t = .ok (substitute map entries t) := by
  rw [restore, hne, hranked]
  rfl

theorem restore_of_isEmpty {map : PlaceholderMap} (h : map.isEmpty) (t : Text) :
    restore map t = .ok t := by
  rw [restore, if_pos h]

theorem size_protect (kinds : Kinds) (t : Text) :
    (protect kinds t).map.size = (placed (pieces kinds t)).length :=
  size_ofPieces

theorem exists_ranked_protect {kinds : Kinds} {t : Text}
    (h : (protect kinds t).map.size ≤ tenTo numberLimit) :
    ∃ entries, ranked (protect kinds t).map = .ok entries := by
  rw [size_protect] at h
  exact exists_ranked h

theorem isEmpty_map_protect (kinds : Kinds) (t : Text) :
    (protect kinds t).map.isEmpty = (placed (pieces kinds t)).isEmpty := by
  rw [protect, OrderedMap.isEmpty, entries_ofPieces]
  cases placed (pieces kinds t) with
  | nil => rfl
  | cons p rest => rw [List.mapIdx_cons]; rfl

theorem numbered_of_placed_eq_nil {pieces : List (Piece Placed)} (h : placed pieces = [])
    (index : Nat) : numbered index pieces = pieces.flatMap (Piece.text Placed.source) := by
  induction pieces with
  | nil => rfl
  | cons piece rest ih =>
    cases piece with
    | literal u => rw [numbered, ih h, List.flatMap_cons, Piece.text]
    | found p => exact absurd h (by simp [placed])

/-- A text without placeholders is left as it is. -/
theorem replaced_of_isEmpty {kinds : Kinds} {t : Text} (h : (protect kinds t).map.isEmpty) :
    (protect kinds t).replaced = t := by
  rw [isEmpty_map_protect, List.isEmpty_iff] at h
  change numbered 0 (pieces kinds t) = t
  rw [numbered_of_placed_eq_nil h]
  exact Piece.flatMap_cut (exact_find kinds) 0 t

/-- With too many placeholders there is a number that cannot be read, and nothing is restored. -/
theorem restore_of_oversized {kinds : Kinds} {t : Text}
    (h : tenTo numberLimit < (protect kinds t).map.size) (u : Text) :
    restore (protect kinds t).map u = .error .oversizedNumeral := by
  have hne : (protect kinds t).map.isEmpty = false := by
    rw [OrderedMap.isEmpty, List.isEmpty_eq_false_iff, ← List.length_pos_iff]
    exact Nat.lt_of_le_of_lt (Nat.zero_le _) h
  have herror : ranked (protect kinds t).map = .error .oversizedNumeral :=
    ranked_eq_error (size_protect kinds t ▸ h)
  rw [restore, hne, herror]
  rfl

theorem restore_replaced {kinds : Kinds} {t : Text} (h : NumbersAccepted kinds t) :
    restore (protect kinds t).map (protect kinds t).replaced =
      if (protect kinds t).map.size ≤ tenTo numberLimit then .ok t
      else .error .oversizedNumeral := by
  split
  · next hlimit =>
    cases hempty : (protect kinds t).map.isEmpty with
    | true => rw [restore_of_isEmpty hempty, replaced_of_isEmpty hempty]
    | false =>
      obtain ⟨entries, hranked⟩ := exists_ranked_protect hlimit
      rw [restore_of_ranked hempty hranked]
      congr 1
      refine substitute_numbered bracketed_of_mem_keys hranked 0 0 t ?_ ?_
      · intro i p hp
        rw [Nat.zero_add]
        exact get?_token_ofPieces hp
      · intro group hgroup hkey
        obtain ⟨i, hi, htoken⟩ := mem_keys_ofPieces.1 hkey
        exact h group hgroup i (size_protect kinds t ▸ hi) htoken
  · next hlimit => exact restore_of_oversized (Nat.lt_of_not_le hlimit) _

/-- The kind of numbered placeholders is registered, under any name and at any place. -/
def HoldsIndexed (kinds : Kinds) : Prop :=
  ∃ kind ∈ kinds.inOrder, kind.rule = .spelled isIndexed

theorem inOrder_default : Kinds.default.inOrder =
    [.ofConstruct "ICU_Plural" (.choice .plural), .ofConstruct "ICU_Select" (.choice .select),
     .ofConstruct "ICU_Ordinal" (.choice .ordinal), .ofConstruct "ICU_Date" (.field .date),
     .ofConstruct "ICU_Time" (.field .time), .ofConstruct "ICU_Number" (.field .number),
     ⟨"Indexed", .spelled isIndexed, false⟩, ⟨"Named", .spelled isNamed, false⟩] :=
  rfl

theorem holdsIndexed_default : HoldsIndexed .default :=
  ⟨⟨"Indexed", .spelled isIndexed, false⟩, by simp [inOrder_default], rfl⟩

/-- A registry with the kind of numbered placeholders takes every group that is spelled like a
number. -/
theorem HoldsIndexed.isSome_ofGroup? {kinds : Kinds} (h : HoldsIndexed kinds) {group : Group}
    {index : Nat} (hgroup : group.text = token index) : (kinds.ofGroup? group).isSome := by
  obtain ⟨kind, hkind, hrule⟩ := h
  rw [Kinds.ofGroup?, List.find?_isSome]
  refine ⟨kind, hkind, ?_⟩
  rw [Kind.accepts, hrule, hgroup]
  exact isIndexed_token index

theorem HoldsIndexed.numbersAccepted {kinds : Kinds} (h : HoldsIndexed kinds) (t : Text) :
    NumbersAccepted kinds t := by
  intro group _ index _ hgroup
  exact h.isSome_ofGroup? hgroup

/-- Restoring the protected text gives the text back if every group that is spelled like one of
its numbers is a placeholder, as it is wherever the kind of numbered placeholders is registered.
Only numbers of too many digits, of which no text in any memory has one, cannot be restored. -/
theorem restore_protect (kinds : Kinds) (t : Text) :
    (NumbersAccepted kinds t →
      restore (protect kinds t).map (protect kinds t).replaced =
        if (protect kinds t).map.size ≤ tenTo numberLimit then .ok t
        else .error .oversizedNumeral) ∧
    (HoldsIndexed kinds → NumbersAccepted kinds t) ∧ HoldsIndexed .default :=
  ⟨restore_replaced, fun h => h.numbersAccepted t, holdsIndexed_default⟩

/-- Without that kind a group of the text can pass for a number. -/
example :
    let kinds := Kinds.ofList [⟨"Named", .spelled isNamed, false⟩]
    (protect kinds "{0}{a}").replaced = "{0}{0}".toList ∧
      restore (protect kinds "{0}{a}").map "{0}{0}" = .ok "{a}{a}".toList := by
  cbv

end Protection

end Parlance
