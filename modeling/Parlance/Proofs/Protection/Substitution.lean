import Parlance.Proofs.Text.Numeral
import Parlance.Proofs.Traverse
import Parlance.Protection.Restore
/-!
Substituting keys that are braces around a text without braces (Bracketed). Of such keys at most
one fits at a place, so the order in which they are tried is of no account: a key gives way to its
value, an escape stays, and so does every character at which no key fits.
-/

namespace Parlance

namespace Protection

/-- Braces around characters that are no braces. -/
def Bracketed (key : Text) : Prop :=
  ∃ inside, key = '{' :: (inside ++ ['}']) ∧ inside ≠ [] ∧ '{' ∉ inside ∧ '}' ∉ inside

/-- Of two keys that fit at one place neither goes on behind the closing brace of the other. -/
theorem Bracketed.eq_of_begins {key other t : Text} (hkey : Bracketed key)
    (hother : Bracketed other) (h : key <+: other ++ t) : key = other := by
  obtain ⟨w, rfl, -, -, hw⟩ := hkey
  obtain ⟨v, rfl, -, -, hv⟩ := hother
  suffices hsame : ∀ w v : Text, '}' ∉ w → '}' ∉ v → w ++ ['}'] <+: v ++ '}' :: t → w = v by
    rw [hsame w v hw hv (by simpa using h)]
  intro w
  induction w with
  | nil =>
    intro v _ hv hbegins
    cases v with
    | nil => rfl
    | cons c v => simp_all
  | cons c w ih =>
    intro v hw hv hbegins
    cases v with
    | nil => simp_all
    | cons d v =>
      simp only [List.mem_cons, not_or] at hw hv
      rw [List.cons_append, List.cons_append, List.cons_prefix_cons] at hbegins
      rw [hbegins.1, ih v hw.2 hv.2 hbegins.2]

section Ranking

/-- Rank one entry of a map. -/
def rank (entry : Text × Text) : Except Fault Ranked :=
  return ⟨entry.1, entry.2, ← number entry.1⟩

theorem ranked_eq (map : PlaceholderMap) :
    ranked map = (map.entries.mapM rank >>= fun entries => pure (entries.foldr place [])) :=
  rfl

/-- The entries that are tried are those of the map. -/
theorem mem_place {a b : Ranked} {entries : List Ranked} :
    b ∈ place a entries ↔ b = a ∨ b ∈ entries := by
  induction entries with
  | nil => simp [place]
  | cons c entries ih =>
    rw [place]
    split
    · rw [List.mem_cons]
    · rw [List.mem_cons, ih, List.mem_cons]
      exact or_left_comm

theorem mem_foldr_place {b : Ranked} {entries : List Ranked} :
    b ∈ entries.foldr place [] ↔ b ∈ entries := by
  induction entries with
  | nil => rfl
  | cons a entries ih => rw [List.foldr_cons, mem_place, ih, List.mem_cons]

theorem mem_ranked {map : PlaceholderMap} {entries : List Ranked} (h : ranked map = .ok entries)
    {key value : Text} :
    map.get? key = some value ↔ ∃ e ∈ entries, e.key = key ∧ e.value = value := by
  rw [ranked_eq] at h
  -- placing changes the order only, and ranking adds a number to every entry
  obtain ⟨results, hresults, hplaced⟩ := bind_eq_ok_iff.1 h
  rw [mapM_eq_ok_iff] at hresults
  rw [OrderedMap.get?_eq_some_iff, ← Except.ok.inj hplaced]
  simp only [mem_foldr_place]
  clear h hplaced
  obtain ⟨pairs, hnodup⟩ := map
  change List.Forall₂ _ pairs results at hresults
  change (key, value) ∈ pairs ↔ _
  clear hnodup
  induction hresults with
  | nil => simp
  | cons hstep _ ih =>
    obtain ⟨n, -, hn⟩ := bind_eq_ok_iff.1 hstep
    obtain rfl := Except.ok.inj hn
    simp [ih, Prod.ext_iff, eq_comm]

/-- The entries of a map can be ranked if the number of every key can be read. -/
theorem exists_ranked_of_number {map : PlaceholderMap}
    (h : ∀ key ∈ map.keys, ∃ n, number key = .ok n) : ∃ entries, ranked map = .ok entries := by
  have hall : ∃ results, map.entries.mapM rank = .ok results := by
    apply exists_mapM_eq_ok
    intro entry hentry
    obtain ⟨n, hn⟩ := h entry.1 (List.mem_map_of_mem hentry)
    exact ⟨⟨entry.1, entry.2, n⟩, by rw [rank, hn]; rfl⟩
  obtain ⟨results, hresults⟩ := hall
  exact ⟨results.foldr place [], by rw [ranked_eq, hresults]; rfl⟩

/-- One number that cannot be read is enough to rank nothing. -/
theorem ranked_eq_error_of_number {map : PlaceholderMap} {fault : Fault} {key : Text}
    (hkey : key ∈ map.keys) (hfault : number key = .error fault)
    (hsame : ∀ other ∈ map.keys, ∀ e, number other = .error e → e = fault) :
    ranked map = .error fault := by
  have hall : map.entries.mapM rank = .error fault := by
    obtain ⟨entry, hentry, rfl⟩ := List.mem_map.1 hkey
    refine mapM_eq_error ?_ hentry ?_
    · intro other hother e he
      apply hsame other.1 (List.mem_map_of_mem hother) e
      rw [rank] at he
      cases hnumber : number other.1 with
      | error e' => simpa [hnumber, bind, Except.bind] using he
      | ok n => simp [hnumber, bind, Except.bind, pure, Except.pure] at he
    · rw [rank, hfault]
      rfl
  rw [ranked_eq, hall]
  rfl

end Ranking

section Steps

variable {map : PlaceholderMap} {entries : List Ranked}

theorem mem_keys_of_mem {e : Ranked} (hranked : ranked map = .ok entries) (he : e ∈ entries) :
    e.key ∈ map.keys :=
  List.mem_map_of_mem (OrderedMap.get?_eq_some_iff.1 ((mem_ranked hranked).2 ⟨e, he, rfl, rfl⟩))

theorem get?_eq_none_of_not_bracketed (hkeys : ∀ key ∈ map.keys, Bracketed key) {key : Text}
    (h : ¬Bracketed key) : map.get? key = none :=
  OrderedMap.get?_eq_none_iff.2 fun hmem => h (hkeys key hmem)

theorem not_bracketed_nil : ¬Bracketed [] := by
  rintro ⟨inside, h, -⟩
  exact absurd h (by simp)

theorem not_bracketed_escape (t : Text) : ¬Bracketed ('{' :: '{' :: t) := by
  rintro ⟨inside, h, hne, hopen, -⟩
  cases inside with
  | nil => exact hne rfl
  | cons c inside =>
    simp only [List.cons_append, List.cons.injEq] at h
    exact hopen (h.2.1 ▸ List.mem_cons_self)

/-- An escape is looked for by its two braces. -/
theorem not_isPrefixOf_escape {t : Text} (h : ¬['{', '{'] <+: t) :
    ¬"\x7b\x7b".toList.isPrefixOf t :=
  fun hbegins => h (List.isPrefixOf_iff_prefix.1 hbegins)

theorem Bracketed.not_escape {key : Text} (h : Bracketed key) (t : Text) :
    ¬['{', '{'] <+: key ++ t := by
  rintro ⟨rest, hrest⟩
  obtain ⟨w, rfl, hne, hopen, -⟩ := h
  cases w with
  | nil => exact hne rfl
  | cons c w =>
    simp only [List.cons_append, List.cons.injEq] at hrest
    exact hopen (hrest.2.1 ▸ List.mem_cons_self)

variable (hkeys : ∀ key ∈ map.keys, Bracketed key) (hranked : ranked map = .ok entries)

include hkeys

theorem fill_eq_nil : (map.get? []).getD [] = [] := by
  rw [get?_eq_none_of_not_bracketed hkeys not_bracketed_nil]
  rfl

theorem substitute_nil : substitute map entries [] = [] := by
  rw [substitute]
  exact fill_eq_nil hkeys

theorem substitute_escape (t : Text) :
    substitute map entries ('{' :: '{' :: t) = '{' :: '{' :: substitute map entries t := by
  have hescape : map.get? "\x7b\x7b".toList = none :=
    get?_eq_none_of_not_bracketed hkeys (not_bracketed_escape [])
  rw [substitute, if_pos (by simp [List.isPrefixOf]), hescape]
  rfl

include hranked

/-- A character stays where no escape and no key begins. -/
theorem substitute_cons {c : Char} {t : Text} (hescape : ¬['{', '{'] <+: c :: t)
    (hnone : ∀ key ∈ map.keys, ¬key <+: c :: t) :
    substitute map entries (c :: t) = c :: substitute map entries t := by
  have hfind : (entries.find? fun e => !e.key.isEmpty && e.key.isPrefixOf (c :: t)) = none := by
    rw [List.find?_eq_none]
    intro e he hfits
    simp only [Bool.and_eq_true, List.isPrefixOf_iff_prefix] at hfits
    exact hnone e.key (mem_keys_of_mem hranked he) hfits.2
  rw [substitute, if_neg (not_isPrefixOf_escape hescape), hfind]
  simp only [fill_eq_nil hkeys, List.nil_append]

/-- Text without an opening brace stays. -/
theorem substitute_plain {u : Text} (hu : '{' ∉ u) (t : Text) :
    substitute map entries (u ++ t) = u ++ substitute map entries t := by
  induction u with
  | nil => rfl
  | cons c u ih =>
    simp only [List.mem_cons, not_or] at hu
    rw [List.cons_append, substitute_cons hkeys hranked, ih hu.2, List.cons_append]
    · intro hescape
      exact hu.1 (List.cons_prefix_cons.1 hescape).1
    · intro key hkey hfits
      obtain ⟨w, rfl, -⟩ := hkeys key hkey
      exact hu.1 (List.cons_prefix_cons.1 hfits).1

/-- At the place of a key it is found with its value, whatever the order of the entries. -/
theorem exists_find?_key {key value : Text} (h : map.get? key = some value) (t : Text) :
    ∃ e, (entries.find? fun e => !e.key.isEmpty && e.key.isPrefixOf (key ++ t)) = some e ∧
      e.key = key ∧ e.value = value := by
  obtain ⟨e, he, hkey, -⟩ := (mem_ranked hranked).1 h
  have hbracketed : Bracketed key := hkeys key (hkey ▸ mem_keys_of_mem hranked he)
  cases hfind : entries.find? fun e => !e.key.isEmpty && e.key.isPrefixOf (key ++ t) with
  | none =>
    obtain ⟨w, hw, -⟩ := hbracketed
    rw [List.find?_eq_none] at hfind
    exact absurd (hfind e he) (by simp [hkey, hw])
  | some f =>
    -- whatever entry is found first fits at the same place, so it has the same key
    have hfits := List.find?_some hfind
    simp only [Bool.and_eq_true, List.isPrefixOf_iff_prefix] at hfits
    have hmem := List.mem_of_find?_eq_some hfind
    have hsame : f.key = key :=
      (hkeys f.key (mem_keys_of_mem hranked hmem)).eq_of_begins hbracketed hfits.2
    have hvalue := (mem_ranked hranked).2 ⟨f, hmem, hsame, rfl⟩
    rw [h, Option.some.injEq] at hvalue
    exact ⟨f, rfl, hsame, hvalue.symm⟩

/-- A key gives way to its value. -/
theorem substitute_key {key value : Text} (h : map.get? key = some value) (t : Text) :
    substitute map entries (key ++ t) = value ++ substitute map entries t := by
  obtain ⟨e, hfind, hkey, hvalue⟩ := exists_find?_key hkeys hranked h t
  have hmem : key ∈ map.keys :=
    List.mem_map_of_mem (OrderedMap.get?_eq_some_iff.1 h)
  have hescape := (hkeys key hmem).not_escape t
  obtain ⟨w, hw, -⟩ := hkeys key hmem
  have hcons : key ++ t = '{' :: (w ++ '}' :: t) := by simp [hw]
  have hdrop : (w ++ '}' :: t).drop (e.key.length - 1) = t := by
    rw [hkey, hw]
    simp
  rw [hcons] at hescape hfind ⊢
  rw [substitute, if_neg (not_isPrefixOf_escape hescape), hfind]
  simp only [hdrop, hvalue]

end Steps

end Protection

end Parlance
