import Parlance.MapStore.Document
import Parlance.Proofs.Json.Values
import Parlance.Proofs.OrderedMap
import Parlance.Proofs.Traverse
/-!
What texts are loaded as stores: the documents of objects whose values are objects of texts, where
of two members with one key the later counts. Every other text is refused as invalid, unless it is
excessive; then loading stops with a fault of another kind (ofDocument_of_excessive).
-/

namespace Parlance.MapStore.Loaded

open Json OrderedMap

/-- An object all of whose values are good; of members with one key the last one counts. -/
def ObjectWith (Good : Json → Prop) (j : Json) : Prop :=
  ∃ members, j = .object members ∧ ∀ key v, lastValue? members key = some v → Good v

/-- An object of texts. -/
def IsMap : Json → Prop := ObjectWith fun v => ∃ t, v = .text t

/-- An object of objects of texts. -/
def IsStore : Json → Prop := ObjectWith IsMap

section Objects

variable {α : Type} {Value : Json → α → Prop} {j : Json} {m : OrderedMap Letters α}

/-- An object has the keys of a map, and for each a value that stands for that of the map. -/
def ObjectOf (Value : Json → α → Prop) (j : Json) (m : OrderedMap Letters α) : Prop :=
  ∃ members, j = .object members ∧
    ∀ key, Option.Rel Value (lastValue? members key) (m.get? key)

/-- An object stands for a map of texts. -/
def MapOf : Json → OrderedMap Letters Letters → Prop := ObjectOf fun v t => v = .text t

/-- An object stands for a store. -/
def StoreOf : Json → Loaded → Prop := ObjectOf MapOf

theorem ObjectOf.objectWith (h : ObjectOf Value j m) : ObjectWith (fun v => ∃ a, Value v a) j := by
  obtain ⟨members, rfl, hvalues⟩ := h
  refine ⟨members, rfl, fun key v hv => ?_⟩
  have hrel := hvalues key
  rw [hv] at hrel
  generalize m.get? key = value? at hrel
  cases hrel with
  | some hvalue => exact ⟨_, hvalue⟩

theorem lastValue?_of_mem {members : List (Letters × Json)} {entry : Letters × Json}
    (h : entry ∈ (ofPairs members).entries) : lastValue? members entry.1 = some entry.2 := by
  rw [← get?_ofPairs, get?_eq_some_iff]
  exact h

/-- Values that are read one by one make a map that the object stands for. -/
theorem objectOf_ofPairs {members : List (Letters × Json)} {results : List (Letters × α)}
    (h : List.Forall₂ (RelatedEntry Value) (ofPairs members).entries results) :
    ObjectOf Value (.object members) (.ofPairs results) := by
  refine ⟨members, rfl, fun key => ?_⟩
  rw [← get?_ofPairs]
  exact rel_get?_ofPairs h key

theorem ObjectWith.mono {Good Good' : Json → Prop} (h : ObjectWith Good j)
    (hgood : ∀ v, Good v → Good' v) : ObjectWith Good' j := by
  obtain ⟨members, rfl, hvalues⟩ := h
  exact ⟨members, rfl, fun key v hv => hgood v (hvalues key v hv)⟩

theorem MapOf.isMap {map : OrderedMap Letters Letters} (h : MapOf j map) : IsMap j := h.objectWith

theorem StoreOf.isStore {store : Loaded} (h : StoreOf j store) : IsStore j :=
  h.objectWith.mono fun _ ⟨_, hmap⟩ => hmap.isMap

end Objects

section Maps

variable {j : Json} {map : OrderedMap Letters Letters}

theorem eq_text_of_text? {t : Letters} (h : text? j = some t) : j = .text t := by
  unfold text? at h
  split at h
  · rw [Option.some.inj h]
  · cases h

/-- A map that is read is the one that the object stands for. -/
theorem mapOf_of_map? (h : map? j = some map) : MapOf j map := by
  unfold map? at h
  split at h
  · next members =>
    obtain ⟨results, hresults, hmap⟩ := Option.bind_eq_some_iff.1 h
    cases hmap
    refine objectOf_ofPairs ((mapM_eq_some_iff.1 hresults).imp ?_)
    rintro ⟨key, v⟩ ⟨key', t⟩ hentry
    obtain ⟨t', ht, hpair⟩ := Option.bind_eq_some_iff.1 hentry
    cases hpair
    exact ⟨rfl, eq_text_of_text? ht⟩
  · cases h

theorem exists_map? (h : IsMap j) : ∃ map, map? j = some map := by
  obtain ⟨members, rfl, hvalues⟩ := h
  have hread : ∀ entry ∈ (ofPairs members).entries,
      ∃ result : Letters × Letters, (do return (entry.1, ← text? entry.2)) = some result := by
    intro entry hentry
    obtain ⟨t, ht⟩ := hvalues entry.1 entry.2 (lastValue?_of_mem hentry)
    exact ⟨(entry.1, t), by rw [ht]; rfl⟩
  obtain ⟨results, hresults⟩ := exists_mapM_eq_some hread
  exact ⟨.ofPairs results, by rw [map?]; exact Option.bind_eq_some_iff.2 ⟨results, hresults, rfl⟩⟩

end Maps

section Stores

variable {j : Json} {store : Loaded} {issue : Issue}

theorem storeOf_of_ofJson (h : ofJson j = .ok store) : StoreOf j store := by
  unfold ofJson at h
  split at h
  · next members =>
    obtain ⟨results, hresults, hstore⟩ := bind_eq_ok_iff.1 h
    cases hstore
    refine objectOf_ofPairs ((mapM_eq_ok_iff.1 hresults).imp ?_)
    rintro ⟨key, v⟩ ⟨key', map⟩ hentry
    simp only at hentry
    split at hentry
    · next map' hmap =>
      cases hentry
      exact ⟨rfl, mapOf_of_map? hmap⟩
    · cases hentry
  · cases h

theorem exists_ofJson (h : IsStore j) : ∃ store, ofJson j = .ok store := by
  obtain ⟨members, rfl, hvalues⟩ := h
  cases hread : ofJson (.object members) with
  | ok store => exact ⟨store, rfl⟩
  | error issue =>
    obtain ⟨entry, hentry, herror⟩ := exists_of_mapM_eq_error (bind_pure_eq_error_iff.1 hread)
    obtain ⟨map, hmap⟩ := exists_map? (hvalues entry.1 entry.2 (lastValue?_of_mem hentry))
    simp only [hmap] at herror
    cases herror

theorem invalid_of_ofJson (h : ofJson j = .error issue) : ∃ reason, issue = invalid reason := by
  unfold ofJson at h
  split at h
  · next members =>
    obtain ⟨entry, -, hentry⟩ := exists_of_mapM_eq_error (bind_pure_eq_error_iff.1 h)
    simp only at hentry
    split at hentry
    · cases hentry
    · exact ⟨_, (Except.error.inj hentry).symm⟩
  · exact ⟨_, (Except.error.inj h).symm⟩

end Stores

section Documents

variable {limit : Limit} {t : Text} {j : Json}

theorem ofDocument_of_excessive (h : Excessive limit t) :
    ofDocument limit t = .error .oversizedNumeral ∨
      ∃ container, ofDocument limit t = .error (.tooDeep container) := by
  rcases (overruns_ofText_iff.2 h).exists_eq_error with hread | ⟨container, hread⟩ <;>
    rw [ofDocument, hread]
  · exact Or.inl rfl
  · exact Or.inr ⟨container, rfl⟩

theorem exists_ofDocument (hdocument : Document j t) (hstore : IsStore j) (h : ¬Excessive limit t) :
    ∃ store, ofDocument limit t = .ok store ∧ StoreOf j store := by
  obtain ⟨store, hread⟩ := exists_ofJson hstore
  refine ⟨store, ?_, storeOf_of_ofJson hread⟩
  rw [ofDocument, ofText_eq_ok_iff.2 ⟨hdocument, h⟩]
  exact mapError_eq_ok_iff.2 hread

theorem ofDocument_invalid (hnone : ∀ j, Document j t → ¬IsStore j) (h : ¬Excessive limit t) :
    ∃ reason, ofDocument limit t = .error (.issue (invalid reason)) := by
  by_cases hdocument : ∃ j, Document j t
  · obtain ⟨j, hj⟩ := hdocument
    rw [ofDocument, ofText_eq_ok_iff.2 ⟨hj, h⟩]
    cases hread : ofJson j with
    | ok store => exact absurd (storeOf_of_ofJson hread).isStore (hnone j hj)
    | error issue =>
      obtain ⟨reason, rfl⟩ := invalid_of_ofJson hread
      exact ⟨reason, by simp only [hread]; rfl⟩
  · obtain ⟨problem, place, hread⟩ := ofText_refused (not_exists.1 hdocument) h
    exact ⟨_, by rw [ofDocument, hread]; rfl⟩

end Documents

/-- A text that is not excessive is loaded as the store that it is a document of, or it is invalid
if it is the document of none. An excessive text is neither: loading stops with a fault. -/
theorem ofDocument_total (limit : Limit) (t : Text) :
    (¬Excessive limit t →
      (∀ j, Document j t → IsStore j → ∃ store, ofDocument limit t = .ok store ∧ StoreOf j store) ∧
      ((¬∃ j, Document j t ∧ IsStore j) →
        ∃ reason, ofDocument limit t = .error (.issue (invalid reason)))) ∧
    (Excessive limit t → ofDocument limit t = .error .oversizedNumeral ∨
      ∃ container, ofDocument limit t = .error (.tooDeep container)) := by
  refine ⟨fun h => ⟨fun j hj hstore => exists_ofDocument hj hstore h, fun hnone => ?_⟩,
    ofDocument_of_excessive⟩
  exact ofDocument_invalid (fun j hj hstore => hnone ⟨j, hj, hstore⟩) h

section Excessive

/-- One digit more than an integer may have. -/
def manyOnes : Digits :=
  ⟨⟨List.replicate (digitLimit + 1) '1', fun _ hc => by rw [List.eq_of_mem_replicate hc]; rfl⟩,
    List.cons_ne_nil _ _⟩

def onesNumeral : Numeral := ⟨false, manyOnes, (fun h => nomatch h), none, none⟩

theorem isOversized_onesNumeral : onesNumeral.isOversized := by
  have hlength : digitLimit < manyOnes.text.length := by
    rw [manyOnes, List.length_replicate]
    exact Nat.lt_succ_self _
  rw [Numeral.isOversized, Bool.and_eq_true, decide_eq_true_eq]
  exact ⟨rfl, hlength⟩

theorem read_oversized {n : Numeral} (h : n.isOversized) (depth : Nat) :
    (value (depth + 1)).read n.text = .error .oversizedNumeral := by
  have hends : EndsNumber [] := Stops.endsNumber fun c hc => nomatch hc
  have hread := readNumber_append n hends
  rw [if_pos h, ← readValue_number (some (value depth)), List.append_nil] at hread
  exact hread

/-- Lists inside each other, the innermost one empty. -/
def nested : Nat → Json
  | 0 => .array []
  | depth + 1 => .array [nested depth]

def brackets (count : Nat) (rest : Text) : Text := List.replicate count '[' ++ rest

theorem spells_nested (depth : Nat) :
    Spells (nested depth) (brackets (depth + 1) (List.replicate (depth + 1) ']')) := by
  induction depth with
  | zero => exact .array (.empty ⟨[], by simp⟩)
  | succ depth ih =>
    have hlist : SpellsList Spells ']' [nested depth] _ :=
      .filled ⟨[], by simp⟩ (.last ih ⟨[], by simp⟩)
    simp only [brackets, List.nil_append, List.append_assoc, ← List.replicate_succ'] at hlist
    exact .array hlist

theorem read_brackets (depth : Nat) (rest : Text) :
    (value depth).read (brackets (depth + 1) rest) = .error (.tooDeep "array") := by
  induction depth with
  | zero => rfl
  | succ depth ih =>
    change readValue (some (value depth)) ('[' :: brackets (depth + 1) rest) = _
    have hopens : Opens (brackets (depth + 1) rest) := ⟨'[', _, rfl, by decide, by decide⟩
    have hskip : skipBlank (brackets (depth + 1) rest) = brackets (depth + 1) rest :=
      skipBlank_cons (by decide) _
    rw [readValue_array, readList_of_opens List.mem_cons_self hopens hskip, readItems_of_error ih]
    rfl

/-- Two documents that stop loading with a fault: an integer with too many digits, and as many lists
inside each other as there may be, in one more. -/
theorem ofDocument_ones_brackets :
    (∃ n, Document (.integer n) onesNumeral.text) ∧
      (∀ limit, ofDocument limit onesNumeral.text = .error .oversizedNumeral) ∧
    ∀ limit : Limit,
      Document (nested limit.depth)
        (brackets (limit.depth + 1) (List.replicate (limit.depth + 1) ']')) ∧
      ofDocument limit (brackets (limit.depth + 1) (List.replicate (limit.depth + 1) ']')) =
        .error (.tooDeep "array") := by
  refine ⟨⟨_, (Spells.number onesNumeral).document⟩, fun limit => ?_, fun limit =>
    ⟨(spells_nested limit.depth).document, ?_⟩⟩
  · have hopens : Opens onesNumeral.text := (Spells.number onesNumeral).opens
    obtain ⟨depth, hdepth⟩ := Nat.exists_eq_add_of_le' limit.two_le
    have hread : ofText limit onesNumeral.text = .error .oversizedNumeral :=
      ofText_eq_error ⟨[], by simp⟩ hopens
        (hdepth ▸ read_oversized isOversized_onesNumeral (depth + 1))
    rw [ofDocument, hread]
  · have hopens := (spells_nested limit.depth).opens
    have hread : ofText limit (brackets (limit.depth + 1) _) = .error (.tooDeep "array") :=
      ofText_eq_error ⟨[], by simp⟩ hopens (read_brackets limit.depth _)
    rw [ofDocument, hread]

end Excessive

end Parlance.MapStore.Loaded
