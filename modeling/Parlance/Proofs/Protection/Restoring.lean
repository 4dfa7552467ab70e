import Parlance.Proofs.Protection.RoundTrip
/-!
Restoring from a map of numbered keys is simultaneous substitution (restore_stretches): every
numbered key in a text gives way to its value, digits of any script count, and neither keys that
share digits nor values that look like keys interfere. The order of the entries is of no account,
since at most one key fits at a place.
-/

namespace Parlance

open Placeholder

namespace Protection

/-- All keys are braces around digits, of which there are not too many. -/
def NumberedKeys (map : PlaceholderMap) : Prop :=
  ∀ key ∈ map.keys, ∃ digits : Text.FilledRun Text.isDigit,
    digits.text.length ≤ numberLimit ∧ key = numberedKey digits

/-- A stretch of a text that is restored. -/
inductive Stretch where
  /-- Text without an opening brace; closing braces may stand in it. -/
  | plain (t : Text) (no_open : '{' ∉ t)
  | escape
  /-- A numbered key, which need not be in the map. -/
  | key (digits : Text.FilledRun Text.isDigit)

namespace Stretch

/-- A stretch as it is written. -/
def text : Stretch → Text
  | .plain t _ => t
  | .escape => ['{', '{']
  | .key digits => numberedKey digits

/-- A stretch with the value of the map in the place of its key. -/
def filled (map : PlaceholderMap) : Stretch → Text
  | .plain t _ => t
  | .escape => ['{', '{']
  | .key digits => (map.get? (numberedKey digits)).getD (numberedKey digits)

end Stretch

section Keys

variable {map : PlaceholderMap}

theorem NumberedKeys.bracketed (h : NumberedKeys map) : ∀ key ∈ map.keys, Bracketed key := by
  intro key hkey
  obtain ⟨digits, -, rfl⟩ := h key hkey
  exact bracketed_numberedKey digits

/-- Every number can be read, so the entries have an order. -/
theorem NumberedKeys.exists_ranked (h : NumberedKeys map) :
    ∃ entries, ranked map = .ok entries := by
  apply exists_ranked_of_number
  intro key hkey
  obtain ⟨digits, hlength, rfl⟩ := h key hkey
  obtain ⟨n, hn⟩ := number_numberedKey digits
  exact ⟨n, by rw [hn, if_pos hlength]⟩

end Keys

section Places

variable {map : PlaceholderMap} {entries : List Ranked}

/-- A key that is not in the map stays, and nothing in it is replaced. -/
theorem substitute_absent (hkeys : ∀ key ∈ map.keys, Bracketed key)
    (hranked : ranked map = .ok entries) {digits : Text.FilledRun Text.isDigit}
    (habsent : map.get? (numberedKey digits) = none) (t : Text) :
    substitute map entries (numberedKey digits ++ t) =
      numberedKey digits ++ substitute map entries t := by
  have hbracketed := bracketed_numberedKey digits
  have hnone : ∀ key ∈ map.keys, ¬key <+: numberedKey digits ++ t := by
    intro key hkey hfits
    rw [(hkeys key hkey).eq_of_begins hbracketed hfits] at hkey
    exact OrderedMap.get?_eq_none_iff.1 habsent hkey
  have hinside : '{' ∉ digits.text ++ ['}'] := by simp [open_notMem_digits]
  have hescape := hbracketed.not_escape t
  have hcons : numberedKey digits ++ t = '{' :: (digits.text ++ ['}'] ++ t) := rfl
  rw [hcons] at hescape hnone ⊢
  rw [substitute_cons hkeys hranked hescape hnone, substitute_plain hkeys hranked hinside]
  rfl

theorem substitute_stretches (hkeys : ∀ key ∈ map.keys, Bracketed key)
    (hranked : ranked map = .ok entries) (stretches : List Stretch) :
    substitute map entries (stretches.flatMap Stretch.text) =
      stretches.flatMap (Stretch.filled map) := by
  induction stretches with
  | nil => exact substitute_nil hkeys
  | cons stretch stretches ih =>
    rw [List.flatMap_cons, List.flatMap_cons, ← ih]
    cases stretch with
    | plain t hopen => exact substitute_plain hkeys hranked hopen _
    | escape => exact substitute_escape hkeys _
    | key digits =>
      rw [Stretch.text, Stretch.filled]
      cases hvalue : map.get? (numberedKey digits) with
      | none => exact substitute_absent hkeys hranked hvalue _
      | some value => exact substitute_key hkeys hranked hvalue _

/-- Induction along the places at which keys are tried: an escape, a key, a character at which
nothing begins. -/
@[elab_as_elim]
theorem place_induction {keys : List Text} (hkeys : ∀ key ∈ keys, Bracketed key)
    {motive : Text → Prop} (nil : motive [])
    (escape : ∀ t, motive t → motive ('{' :: '{' :: t))
    (key : ∀ key ∈ keys, ∀ t, motive t → motive (key ++ t))
    (other : ∀ c t, ¬['{', '{'] <+: c :: t → (∀ key ∈ keys, ¬key <+: c :: t) → motive t →
      motive (c :: t)) (t : Text) : motive t := by
  -- on the length, since a key takes more than one character
  induction hlength : t.length using Nat.strongRecOn generalizing t with
  | ind n ih =>
    have behind {u v : Text} (hu : u ≠ []) (h : u ++ v = t) : motive v := by
      have hpos := List.length_pos_iff.2 hu
      refine ih v.length ?_ v rfl
      rw [← hlength, ← h, List.length_append]
      omega
    cases t with
    | nil => exact nil
    | cons c t =>
      by_cases hescape : ['{', '{'] <+: c :: t
      · obtain ⟨rest, hrest⟩ := hescape
        exact hrest ▸ escape rest (behind (List.cons_ne_nil _ _) hrest)
      · by_cases hfits : ∃ key ∈ keys, key <+: c :: t
        · obtain ⟨k, hk, rest, hrest⟩ := hfits
          obtain ⟨inside, rfl, -⟩ := hkeys k hk
          exact hrest ▸ key _ hk rest (behind (List.cons_ne_nil _ _) hrest)
        · have hnone : ∀ key ∈ keys, ¬key <+: c :: t := by simpa using hfits
          exact other c t hescape hnone (behind (List.cons_ne_nil c []) rfl)

/-- What is substituted hangs on the look-ups alone: two maps that agree on them fill every place
alike, in whichever order their keys are tried. -/
theorem substitute_congr {other : PlaceholderMap} {others : List Ranked}
    (hkeys : ∀ key ∈ map.keys, Bracketed key) (hranked : ranked map = .ok entries)
    (hothers : ranked other = .ok others) (hsame : ∀ key, other.get? key = map.get? key)
    (t : Text) :
    substitute other others t = substitute map entries t := by
  have hmem (key : Text) : key ∈ other.keys ↔ key ∈ map.keys := by
    rw [← not_iff_not, ← OrderedMap.get?_eq_none_iff, ← OrderedMap.get?_eq_none_iff, hsame]
  have hotherKeys : ∀ key ∈ other.keys, Bracketed key := fun key h => hkeys key ((hmem key).1 h)
  induction t using place_induction hkeys with
  | nil => rw [substitute_nil hkeys, substitute_nil hotherKeys]
  | escape t ih => rw [substitute_escape hkeys, substitute_escape hotherKeys, ih]
  | key key hkey t ih =>
    obtain ⟨value, hvalue⟩ : ∃ value, map.get? key = some value :=
      Option.ne_none_iff_exists'.1 fun hnone => OrderedMap.get?_eq_none_iff.1 hnone hkey
    have hother : other.get? key = some value := (hsame key).trans hvalue
    rw [substitute_key hkeys hranked hvalue, substitute_key hotherKeys hothers hother, ih]
  | other c t hescape hnone ih =>
    have hotherNone : ∀ key ∈ other.keys, ¬key <+: c :: t := fun key h => hnone key ((hmem key).1 h)
    rw [substitute_cons hkeys hranked hescape hnone,
      substitute_cons hotherKeys hothers hescape hotherNone, ih]

end Places

section Orders

variable {map other : PlaceholderMap}

/-- The same entries in another order are looked up alike. -/
theorem get?_eq_of_perm (h : other.entries.Perm map.entries) (key : Text) :
    other.get? key = map.get? key := by
  apply Option.ext
  intro value
  rw [OrderedMap.get?_eq_some_iff, OrderedMap.get?_eq_some_iff, h.mem_iff]

theorem NumberedKeys.of_perm (hkeys : NumberedKeys map) (h : other.entries.Perm map.entries) :
    NumberedKeys other :=
  fun key hkey => hkeys key ((h.map Prod.fst).mem_iff.1 hkey)

theorem filled_of_isEmpty (h : map.isEmpty) (stretch : Stretch) :
    stretch.filled map = stretch.text := by
  cases stretch with
  | plain t hopen => rfl
  | escape => rfl
  | key digits =>
    rw [Stretch.filled, OrderedMap.get?, List.isEmpty_iff.1 h]
    rfl

theorem NumberedKeys.restore_stretches (hkeys : NumberedKeys map) (stretches : List Stretch) :
    restore map (stretches.flatMap Stretch.text) =
      .ok (stretches.flatMap (Stretch.filled map)) := by
  cases hempty : map.isEmpty with
  | true => rw [restore_of_isEmpty hempty, funext (filled_of_isEmpty hempty)]
  | false =>
    obtain ⟨entries, hranked⟩ := hkeys.exists_ranked
    rw [restore_of_ranked hempty hranked, substitute_stretches hkeys.bracketed hranked]

theorem NumberedKeys.restore_perm (hkeys : NumberedKeys map)
    (h : other.entries.Perm map.entries) (t : Text) : restore other t = restore map t := by
  have hsize : other.isEmpty = map.isEmpty := h.isEmpty_eq
  cases hempty : map.isEmpty with
  | true => rw [restore_of_isEmpty hempty, restore_of_isEmpty (hsize.trans hempty)]
  | false =>
    obtain ⟨entries, hranked⟩ := hkeys.exists_ranked
    obtain ⟨others, hothers⟩ := (hkeys.of_perm h).exists_ranked
    rw [restore_of_ranked hempty hranked, restore_of_ranked (hsize.trans hempty) hothers,
      substitute_congr hkeys.bracketed hranked hothers (get?_eq_of_perm h)]

theorem NumberedKeys.exists_restore (hkeys : NumberedKeys map) (t : Text) :
    ∃ u, restore map t = .ok u := by
  cases hempty : map.isEmpty with
  | true => exact ⟨t, restore_of_isEmpty hempty t⟩
  | false =>
    obtain ⟨entries, hranked⟩ := hkeys.exists_ranked
    exact ⟨_, restore_of_ranked hempty hranked t⟩

end Orders

/-- Restoring from numbered keys puts the value of each key in the place of every stretch that
spells the key, as it is, and leaves all other stretches; and it gives every text the same result
for all orders of the entries. -/
theorem restore_numbered {map : PlaceholderMap} (hkeys : NumberedKeys map) :
    (∀ stretches : List Stretch,
      restore map (stretches.flatMap Stretch.text) =
        .ok (stretches.flatMap (Stretch.filled map))) ∧
    ∀ t, ∃ u, restore map t = .ok u ∧
      ∀ other : PlaceholderMap, other.entries.Perm map.entries → restore other t = .ok u := by
  refine ⟨hkeys.restore_stretches, fun t => ?_⟩
  obtain ⟨u, hu⟩ := hkeys.exists_restore t
  exact ⟨u, hu, fun other h => (hkeys.restore_perm h t).trans hu⟩

/-- Digits of ASCII. -/
def asciiDigits (t : Text) (hall : t.all Char.isDigit) (hne : t ≠ []) :
    Text.FilledRun Text.isDigit :=
  ⟨⟨t, fun c hc => Text.isDigit_of_ascii (List.all_eq_true.1 hall c hc)⟩, hne⟩

/-- Keys that share digits; the value of the first looks like the second. -/
def sharedDigits : PlaceholderMap :=
  ⟨[("\x7b1\x7d", "\x7b10\x7d"), ("\x7b10\x7d", "b"), ("\x7b01\x7d", "c")], by decide⟩

theorem numberedKeys_sharedDigits : NumberedKeys sharedDigits := by
  intro key hkey
  have hkeys : key = "\x7b1\x7d" ∨ key = "\x7b10\x7d" ∨ key = "\x7b01\x7d" := by
    simpa [sharedDigits, OrderedMap.keys] using hkey
  obtain rfl | rfl | rfl := hkeys
  · exact ⟨asciiDigits ['1'] rfl (by decide), by decide, rfl⟩
  · exact ⟨asciiDigits ['1', '0'] rfl (by decide), by decide, rfl⟩
  · exact ⟨asciiDigits ['0', '1'] rfl (by decide), by decide, rfl⟩

theorem restore_sharedDigits :
    NumberedKeys sharedDigits ∧
      restore sharedDigits "\x7b10\x7d\x7b\x7b1\x7d\x7b1\x7d" = .ok "b\x7b\x7b1\x7d\x7b10\x7d" :=
  ⟨numberedKeys_sharedDigits,
    (restore_numbered numberedKeys_sharedDigits).1
      [.key (asciiDigits ['1', '0'] rfl (by decide)), .escape,
        .plain ['1', '}'] (by decide), .key (asciiDigits ['1'] rfl (by decide))]⟩

end Protection

end Parlance
