import Parlance.Proofs.Brace.Seam
import Parlance.Proofs.Construct.InPlace
import Parlance.Proofs.Protection.Tokens
/-!
Default kinds in any order. No two of them accept the same part of a text (eq_of_accepts): the
inside of a construct holds a comma and that of a name holds none, and no digit begins an
identifier. So the order in which they are asked decides nothing, and protecting a text comes to the
same with every registry that holds them and no others (protect_of_holdsDefaults).
-/

namespace Parlance

open Brace Placeholder

namespace Placeholder

section Groups

variable {ms : Marks} {body : Text}

/-- The text between the outer braces is that of the marks between them. -/
theorem inside?_text (ms : Marks) :
    inside? ms.text = (Construct.interior? ms).map Marks.text := by
  cases ms with
  | nil => rfl
  | cons first rest =>
    obtain ⟨c, reach⟩ := first
    have hlast : (Marks.text rest).getLast? = rest.getLast?.map (·.char) := List.getLast?_map
    have hdrop : (Marks.text rest).dropLast = Marks.text rest.dropLast := List.map_dropLast.symm
    change inside? (c :: Marks.text rest) = _
    by_cases hc : c = '{'
    · rw [hc, inside?, hlast, hdrop, Construct.interior?]
      cases rest.getLast? with
      | none => rfl
      | some last =>
        simp only [Option.map_some, Option.some.injEq, true_and]
        split <;> rfl
    · have hinterior : Construct.interior? (⟨c, reach⟩ :: rest) = none := by
        rw [Construct.interior?]
        cases rest.getLast? with
        | none => rfl
        | some last => exact if_neg fun h => hc h.1
      rw [hinterior, inside?]
      · rfl
      · exact fun _ h => hc (List.cons.inj h).1

/-- A group of word characters is no construct. -/
theorem construct?_of_word (hinside : inside? ms.text = some body) (hword : body.all Text.isWord) :
    (Group.ofMarks ms).construct? = none := by
  rw [inside?_text, Option.map_eq_some_iff] at hinside
  obtain ⟨inner, hinner, rfl⟩ := hinside
  rw [Group.ofMarks, Construct.ofGroup?_eq, hinner, Option.bind_some,
    Construct.ofInterior?_of_word hword]
  rfl

theorem construct?_of_isIndexed (h : isIndexed ms.text) :
    (Group.ofMarks ms).construct? = none := by
  rw [isIndexed, Option.any_eq_true] at h
  obtain ⟨body, hinside, hpositional⟩ := h
  exact construct?_of_word hinside (all_isWord_of_isPositional hpositional).2

theorem construct?_of_isNamed (h : isNamed ms.text) : (Group.ofMarks ms).construct? = none := by
  rw [isNamed, Option.any_eq_true] at h
  obtain ⟨body, hinside, hidentifier⟩ := h
  exact construct?_of_word hinside (all_isWord_of_isIdentifier hidentifier).2

theorem not_isIndexed_of_isNamed {group : Text} (h : isNamed group) : ¬isIndexed group := by
  intro hindexed
  rw [isNamed, Option.any_eq_true] at h
  rw [isIndexed, Option.any_eq_true] at hindexed
  obtain ⟨body, hinside, hidentifier⟩ := h
  obtain ⟨other, hother, hpositional⟩ := hindexed
  obtain rfl : body = other := Option.some.inj (hinside.symm.trans hother)
  exact not_isIdentifier_of_isPositional hpositional hidentifier

end Groups

end Placeholder

namespace Protection

section Exclusion

variable {k k' : Kind} {ms : Marks}

/-- A default kind is that of a kind of construct, or one of the two kinds of names. -/
theorem eq_of_mem_default (h : k ∈ Kinds.default.inOrder) :
    (∃ kind : Construct.Kind, k = .ofConstruct kind.placeholderName kind) ∨
      k = ⟨"Indexed", .spelled isIndexed, false⟩ ∨ k = ⟨"Named", .spelled isNamed, false⟩ := by
  simp only [inOrder_default, List.mem_cons, List.not_mem_nil, or_false] at h
  rcases h with rfl | rfl | rfl | rfl | rfl | rfl | hname
  · exact .inl ⟨.choice .plural, rfl⟩
  · exact .inl ⟨.choice .select, rfl⟩
  · exact .inl ⟨.choice .ordinal, rfl⟩
  · exact .inl ⟨.field .date, rfl⟩
  · exact .inl ⟨.field .time, rfl⟩
  · exact .inl ⟨.field .number, rfl⟩
  · exact .inr hname

/-- A default kind that accepts a group is the first one that does. -/
theorem ofGroup?_of_accepts (hk : k ∈ Kinds.default.inOrder) (h : k.accepts (.ofMarks ms)) :
    Kinds.default.ofGroup? (.ofMarks ms) = some k := by
  rw [ofGroup?_default]
  rcases eq_of_mem_default hk with ⟨kind, rfl⟩ | rfl | rfl
  · have hkind : (Group.ofMarks ms).construct? = some kind := of_decide_eq_true h
    rw [hkind]
  · have hindexed : isIndexed ms.text := h
    rw [construct?_of_isIndexed hindexed]
    exact if_pos hindexed
  · have hnamed : isNamed ms.text := h
    rw [construct?_of_isNamed hnamed]
    exact (if_neg (not_isIndexed_of_isNamed hnamed)).trans (if_pos hnamed)

theorem eq_of_accepts (hk : k ∈ Kinds.default.inOrder) (hk' : k' ∈ Kinds.default.inOrder)
    (h : k.accepts (.ofMarks ms)) (h' : k'.accepts (.ofMarks ms)) : k = k' :=
  Option.some.inj ((ofGroup?_of_accepts hk h).symm.trans (ofGroup?_of_accepts hk' h'))

/-- What an index says of a part of its text is what the kind says of the part alone. -/
theorem ask_acceptsAt {text : Text} {start stop : Nat} (hstart : start ≤ stop)
    (hstop : stop ≤ text.length) (earlier : List Construct.Index.Question) (k : Kind) :
    ((earlier.foldl Construct.Index.after (.ofPattern text)).ask (k.acceptsAt start stop)).1 =
      .ok (k.accepts (.ofMarks (mark ((text.drop start).take (stop - start))))) := by
  have hsplit : text.take start ++ ((text.drop start).take (stop - start) ++
      (text.drop start).drop (stop - start)) = text := by
    rw [List.take_append_drop, List.take_append_drop]
  have hbefore : (text.take start).length = start := List.length_take_of_le (by omega)
  have hpart : ((text.drop start).take (stop - start)).length = stop - start := by
    rw [List.length_take, List.length_drop]
    omega
  have hfaithful := (Construct.Index.faithful_ofPattern text).foldl_after earlier
  rw [(Construct.Index.answers_acceptsAt start stop k _ hfaithful).1, ← hsplit]
  rw [Construct.Index.acceptsBetween_cut (by rw [hbefore]) (by rw [hbefore, hpart]; omega), hsplit]

end Exclusion

section Orders

variable {kinds : Kinds}

/-- The registry holds the default kinds and no others, in whatever order it asks them, and whatever
their flags. -/
def HoldsDefaults (kinds : Kinds) : Prop :=
  ∀ name rule, (∃ icu, ⟨name, rule, icu⟩ ∈ kinds.inOrder) ↔
    ∃ icu, ⟨name, rule, icu⟩ ∈ Kinds.default.inOrder

theorem mem_inOrder {k : Kind} : k ∈ kinds.inOrder ↔ k ∈ kinds.entries.entries.map Prod.snd := by
  rw [Kinds.inOrder, List.mem_append, List.mem_filter, List.mem_filter, ← and_or_left]
  cases k.icu <;> simp

theorem mem_inOrder_ofList {list : List Kind} (hnames : (list.map Kind.name).Nodup) {k : Kind} :
    k ∈ (Kinds.ofList list).inOrder ↔ k ∈ list := by
  have hkeys : ((list.map fun k => (k.name, k)).map Prod.fst).Nodup := by
    rwa [List.map_map]
  rw [mem_inOrder, Kinds.ofList, Registry.ofPairs, OrderedMap.entries_ofPairs hkeys, List.map_map]
  simp

/-- The default kinds may be registered in any order and with any flags. -/
theorem holdsDefaults_ofList {order : List Kind} (h : order.Perm Kinds.default.inOrder)
    (icu : Kind → Bool) : HoldsDefaults (.ofList (order.map fun k => { k with icu := icu k })) := by
  have hnames : ((order.map fun k => { k with icu := icu k }).map Kind.name).Nodup := by
    rw [List.map_map]
    have hdefault : (Kinds.default.inOrder.map Kind.name).Nodup := by decide
    exact (h.map Kind.name).nodup_iff.2 hdefault
  intro name rule
  simp only [mem_inOrder_ofList hnames, List.mem_map, Kind.mk.injEq]
  constructor
  · rintro ⟨-, k, hk, rfl, rfl, -⟩
    exact ⟨k.icu, h.mem_iff.1 hk⟩
  · rintro ⟨flag, hk⟩
    exact ⟨_, _, h.mem_iff.2 hk, rfl, rfl, rfl⟩

/-- The kind that is found goes by the same name in every order. -/
theorem HoldsDefaults.name_ofGroup? (h : HoldsDefaults kinds) (ms : Marks) :
    (kinds.ofGroup? (.ofMarks ms)).map Kind.name =
      (Kinds.default.ofGroup? (.ofMarks ms)).map Kind.name := by
  cases hfind : kinds.ofGroup? (.ofMarks ms) with
  | some k =>
    obtain ⟨icu, hdefault⟩ := (h k.name k.rule).1 ⟨k.icu, List.mem_of_find?_eq_some hfind⟩
    have haccepts := List.find?_some (p := fun k : Kind => k.accepts (.ofMarks ms)) hfind
    rw [ofGroup?_of_accepts hdefault haccepts]
    rfl
  | none =>
    cases hdefault : Kinds.default.ofGroup? (.ofMarks ms) with
    | none => rfl
    | some k =>
      obtain ⟨icu, hmem⟩ := (h k.name k.rule).2 ⟨k.icu, List.mem_of_find?_eq_some hdefault⟩
      have haccepts := List.find?_some (p := fun k : Kind => k.accepts (.ofMarks ms)) hdefault
      have hrefuses := List.find?_eq_none.1 hfind _ hmem
      exact absurd haccepts hrefuses

end Orders

section Names

/-- What of a placeholder shows in the result: its source, and the name of its kind. -/
def Placed.shown (p : Placed) : Text × Text := (p.source, p.kind.name)

theorem shown_placed_and_numbered {pieces others : List (Piece Placed)}
    (h : pieces.map (Piece.map Placed.shown) = others.map (Piece.map Placed.shown)) :
    (placed pieces).map Placed.shown = (placed others).map Placed.shown ∧
      ∀ index, numbered index pieces = numbered index others := by
  induction pieces generalizing others with
  | nil =>
    rw [List.map_nil, eq_comm, List.map_eq_nil_iff] at h
    rw [h]
    exact ⟨rfl, fun _ => rfl⟩
  | cons piece pieces ih =>
    rw [List.map_cons, eq_comm, List.map_eq_cons_iff] at h
    obtain ⟨other, others, rfl, hpiece, hrest⟩ := h
    obtain ⟨hplaced, hnumbered⟩ := ih hrest.symm
    cases piece with
    | literal t =>
      cases other with
      | found q => cases hpiece
      | literal u =>
        obtain rfl : u = t := Piece.literal.inj hpiece
        exact ⟨hplaced, fun index => congrArg (u ++ ·) (hnumbered index)⟩
    | found p =>
      cases other with
      | literal u => cases hpiece
      | found q =>
        have hshown : q.shown = p.shown := Piece.found.inj hpiece
        rw [placed, placed, List.map_cons, List.map_cons, hshown, hplaced]
        exact ⟨rfl, fun index => congrArg (token index ++ ·) (hnumbered (index + 1))⟩

/-- Pieces that show the same are protected alike. -/
theorem ofPieces_congr {pieces others : List (Piece Placed)}
    (h : pieces.map (Piece.map Placed.shown) = others.map (Piece.map Placed.shown)) :
    ofPieces pieces = ofPieces others := by
  obtain ⟨hplaced, hnumbered⟩ := shown_placed_and_numbered h
  have hentries (list : List Placed) : list.mapIdx (fun i p => (token i, p.source)) =
      (list.map Placed.shown).mapIdx fun i shown => (token i, shown.1) := by
    apply List.ext_getElem?
    intro i
    rw [List.getElem?_mapIdx, List.getElem?_mapIdx, List.getElem?_map, Option.map_map]
    rfl
  have hkinds (list : List Placed) :
      list.map (·.kind.name) = (list.map Placed.shown).map Prod.snd := by
    rw [List.map_map]
    rfl
  rw [ofPieces, ofPieces, hentries, hentries, hkinds, hkinds, hplaced, hnumbered]

/-- Of two registries that find kinds of the same names the texts are protected alike. -/
theorem protect_congr {kinds others : Kinds}
    (h : ∀ ms, (kinds.ofGroup? (.ofMarks ms)).map Kind.name =
      (others.ofGroup? (.ofMarks ms)).map Kind.name) (t : Text) :
    protect kinds t = protect others t := by
  have hfind (kinds : Kinds) (ms : Marks) :
      (find kinds ms).map (fun (p, n) => (p.shown, n)) =
        (ms.head?.bind Mark.reach).bind fun n =>
          ((kinds.ofGroup? (.ofMarks (ms.take n))).map Kind.name).map fun name =>
            ((Marks.text (ms.take n), name), n) := by
    rw [find]
    cases ms.head?.bind Mark.reach with
    | none => rfl
    | some n =>
      simp only [Option.bind_eq_bind, Option.bind_some]
      cases kinds.ofGroup? (.ofMarks (ms.take n)) <;> rfl
  have hsame (ms : Marks) : (find kinds ms).map (fun (p, n) => (p.shown, n)) =
      (find others ms).map (fun (p, n) => (p.shown, n)) := by
    simp only [hfind, h]
  have hpieces (kinds : Kinds) :
      Piece.cut (fun _ ms => (find kinds ms).map fun (p, n) => (p.shown, n)) 0 (mark t) =
        (pieces kinds t).map (Piece.map Placed.shown) :=
    Piece.cut_add (k := 0) (fun _ _ => rfl) 0 (mark t)
  apply ofPieces_congr
  rw [← hpieces, ← hpieces, funext hsame]

end Names

/-- Of the default kinds at most one accepts a part of a text, whatever an index of the text was
asked before. So with a registry that holds these kinds and no others, registered in any order and
with any flags, every text is protected as it is with the default one. -/
theorem protect_of_holdsDefaults :
    (∀ (text : Text) (start stop : Nat) (earlier : List Construct.Index.Question),
      start ≤ stop → stop ≤ text.length →
      ∀ k ∈ Kinds.default.inOrder, ∀ k' ∈ Kinds.default.inOrder,
        ((earlier.foldl Construct.Index.after (.ofPattern text)).ask (k.acceptsAt start stop)).1 =
          .ok true →
        ((earlier.foldl Construct.Index.after (.ofPattern text)).ask (k'.acceptsAt start stop)).1 =
          .ok true →
        k = k') ∧
    (∀ (order : List Kind) (icu : Kind → Bool), order.Perm Kinds.default.inOrder →
      HoldsDefaults (.ofList (order.map fun k => { k with icu := icu k }))) ∧
    ∀ kinds : Kinds, HoldsDefaults kinds → ∀ t, protect kinds t = protect .default t := by
  refine ⟨?_, fun order icu h => holdsDefaults_ofList h icu, fun kinds h => ?_⟩
  · intro text start stop earlier hstart hstop k hk k' hk' h h'
    rw [ask_acceptsAt hstart hstop, Except.ok.injEq] at h h'
    exact eq_of_accepts hk hk' h h'
  · exact protect_congr h.name_ofGroup?

end Protection

end Parlance
