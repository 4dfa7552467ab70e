import Parlance.Proofs.Brace.Closed
/-!
Texts whose braces pair up (Balanced), counted without regard to where the text stands. A text
between two braces makes a group with them exactly if it is balanced (close?_group_iff), so the text
of a group is known from where the group starts (Balanced.append_close_inj). Balanced texts side by
side, and groups of them, are balanced (Balanced.append, Balanced.group), and every brace that opens
in a balanced text closes in it (BalancedFrom.closed).
-/

namespace Parlance.Brace

/-- As many braces open as close after some have been opened before, and no prefix closes more than
are open by then. -/
structure BalancedFrom (opened : Nat) (t : Text) : Prop where
  total : t.count '}' = t.count '{' + opened
  within : ∀ p, p <+: t → p.count '}' ≤ p.count '{' + opened

/-- As many braces open as close, and no prefix closes more than it opens. -/
abbrev Balanced : Text → Prop := BalancedFrom 0

section Counting

variable {opened pos : Nat} {c : Char} {t : Text}

theorem forall_prefix_cons {motive : Text → Prop} :
    (∀ p, p <+: c :: t → motive p) ↔ motive [] ∧ ∀ p, p <+: t → motive (c :: p) := by
  constructor
  · intro h
    refine ⟨h [] List.nil_prefix, fun p hp => h (c :: p) ?_⟩
    exact (List.prefix_cons_inj c).2 hp
  · rintro ⟨hnil, hcons⟩ p hp
    rcases List.prefix_cons_iff.1 hp with rfl | ⟨q, rfl, hq⟩
    · exact hnil
    · exact hcons q hq

theorem balancedFrom_nil : BalancedFrom opened [] ↔ opened = 0 := by
  constructor
  · intro h
    exact (Nat.zero_add opened ▸ h.total).symm
  · rintro rfl
    refine ⟨rfl, fun p hp => ?_⟩
    rw [List.prefix_nil.1 hp]
    exact Nat.le_refl _

theorem balancedFrom_open : BalancedFrom opened ('{' :: t) ↔ BalancedFrom (opened + 1) t := by
  have hopen (u : Text) : ('{' :: u).count '{' = u.count '{' + 1 := List.count_cons_self
  have hclose (u : Text) : ('{' :: u).count '}' = u.count '}' := List.count_cons_of_ne (by decide)
  constructor
  · rintro ⟨htotal, hwithin⟩
    rw [forall_prefix_cons] at hwithin
    simp only [hopen, hclose] at htotal hwithin
    exact ⟨by omega, fun p hp => by have := hwithin.2 p hp; omega⟩
  · rintro ⟨htotal, hwithin⟩
    refine ⟨by rw [hopen, hclose]; omega, forall_prefix_cons.2 ⟨by simp, fun p hp => ?_⟩⟩
    have := hwithin p hp
    rw [hopen, hclose]
    omega

theorem balancedFrom_close :
    BalancedFrom opened ('}' :: t) ↔ ∃ before, opened = before + 1 ∧ BalancedFrom before t := by
  have hopen (u : Text) : ('}' :: u).count '{' = u.count '{' := List.count_cons_of_ne (by decide)
  have hclose (u : Text) : ('}' :: u).count '}' = u.count '}' + 1 := List.count_cons_self
  constructor
  · rintro ⟨htotal, hwithin⟩
    rw [forall_prefix_cons] at hwithin
    simp only [hopen, hclose] at htotal hwithin
    -- the closing brace alone is a prefix, so a brace was open before it
    have hfirst := hwithin.2 [] List.nil_prefix
    simp only [List.count_nil] at hfirst
    exact ⟨opened - 1, by omega, by omega, fun p hp => by have := hwithin.2 p hp; omega⟩
  · rintro ⟨before, rfl, htotal, hwithin⟩
    refine ⟨by rw [hopen, hclose]; omega, forall_prefix_cons.2 ⟨by simp, fun p hp => ?_⟩⟩
    have := hwithin p hp
    rw [hopen, hclose]
    omega

theorem balancedFrom_other (hopen : c ≠ '{') (hclose : c ≠ '}') :
    BalancedFrom opened (c :: t) ↔ BalancedFrom opened t := by
  have hcount (brace : Char) (hc : c ≠ brace) (u : Text) : (c :: u).count brace = u.count brace :=
    List.count_cons_of_ne hc
  constructor
  · rintro ⟨htotal, hwithin⟩
    rw [forall_prefix_cons] at hwithin
    simp only [hcount _ hopen, hcount _ hclose] at htotal hwithin
    exact ⟨htotal, hwithin.2⟩
  · rintro ⟨htotal, hwithin⟩
    refine ⟨by rw [hcount _ hopen, hcount _ hclose, htotal], ?_⟩
    refine forall_prefix_cons.2 ⟨by simp, fun p hp => ?_⟩
    rw [hcount _ hopen, hcount _ hclose]
    exact hwithin p hp

/-- Where braces are open, the count ends behind a text if the text closes all but the first. -/
theorem closeFrom_close_iff (rest : Text) :
    closeFrom (opened + 1) pos (t ++ '}' :: rest) = some (pos + t.length + 1) ↔
      BalancedFrom opened t := by
  induction t generalizing opened pos with
  | nil =>
    rw [balancedFrom_nil, List.nil_append, closeFrom, if_neg (by decide), if_pos rfl]
    split
    · simp only [List.length_nil, Nat.add_zero, true_iff]
      omega
    · next hdepth =>
      constructor
      · intro h
        have := (lt_closeFrom h).1
        simp at this
      · intro h
        omega
  | cons c t ih =>
    have hlength : pos + (c :: t).length + 1 = pos + 1 + t.length + 1 := by
      rw [List.length_cons]; omega
    rw [hlength, List.cons_append, closeFrom]
    split
    · next hc =>
      rw [hc, balancedFrom_open]
      exact @ih (opened + 1) (pos + 1)
    · next hopen =>
      split
      · next hc =>
        rw [hc, balancedFrom_close]
        split
        · next hdepth =>
          constructor
          · intro h
            simp only [Option.some.injEq] at h
            omega
          · rintro ⟨before, hbefore, -⟩
            omega
        · next hdepth =>
          obtain ⟨before, rfl⟩ : ∃ before, opened = before + 1 :=
            Nat.exists_eq_succ_of_ne_zero (by omega)
          rw [show ((before + 1 : Nat) : Int) + 1 - 1 = (before : Int) + 1 by omega, ih]
          simp
      · next hclose =>
        rw [balancedFrom_other hopen hclose]
        exact ih

/-- A count from the open braces ends within a text that closes them all. -/
theorem BalancedFrom.isSome_closeFrom (h : BalancedFrom (opened + 1) t) :
    (closeFrom (opened + 1) pos t).isSome := by
  induction t generalizing opened pos with
  | nil => exact absurd (balancedFrom_nil.1 h) (Nat.succ_ne_zero opened)
  | cons c t ih =>
    rw [closeFrom]
    split
    · next hc =>
      rw [hc, balancedFrom_open] at h
      exact ih h
    · next hopen =>
      split
      · next hc =>
        rw [hc, balancedFrom_close] at h
        obtain ⟨before, hbefore, hrest⟩ := h
        obtain rfl : opened = before := Nat.succ.inj hbefore
        split
        · rfl
        · next hdepth =>
          obtain ⟨deeper, rfl⟩ : ∃ deeper, opened = deeper + 1 :=
            Nat.exists_eq_succ_of_ne_zero (by omega)
          rw [show ((deeper + 1 : Nat) : Int) + 1 - 1 = (deeper : Int) + 1 by omega]
          exact ih hrest
      · next hclose => exact ih ((balancedFrom_other hopen hclose).1 h)

/-- Whatever is open before, every brace that opens in such a text closes in it. -/
theorem BalancedFrom.closed (h : BalancedFrom opened t) : Closed t := by
  induction t generalizing opened with
  | nil => exact closed_nil
  | cons c t ih =>
    rw [closed_cons]
    by_cases hopen : c = '{'
    · rw [hopen, balancedFrom_open] at h
      have hcount : (closeFrom (opened + 1) 0 t).isSome := h.isSome_closeFrom
      refine ⟨fun _ => ?_, ih h⟩
      rw [hopen, close?_open]
      exact isSome_closeFrom_one hcount
    · refine ⟨fun hc => absurd hc hopen, ?_⟩
      by_cases hclose : c = '}'
      · rw [hclose, balancedFrom_close] at h
        obtain ⟨before, -, hrest⟩ := h
        exact ih hrest
      · exact ih ((balancedFrom_other hopen hclose).1 h)

end Counting

variable {body : Text}

/-- A text makes a group with two braces around it exactly if it is balanced. -/
theorem close?_group_iff (rest : Text) :
    close? ('{' :: (body ++ '}' :: rest)) 0 = some (body.length + 2) ↔ Balanced body := by
  have hlength : body.length + 2 = 1 + body.length + 1 := by omega
  rw [close?_open, hlength]
  exact @closeFrom_close_iff 0 1 body rest

/-- A group that opens is a balanced text between braces. -/
theorem exists_balanced_of_close? {t : Text} {n : Nat} (h : close? ('{' :: t) 0 = some n) :
    ∃ body rest, t = body ++ '}' :: rest ∧ n = body.length + 2 ∧ Balanced body := by
  obtain ⟨body, rest, rfl, rfl⟩ := closing_of_close? h
  exact ⟨body, rest, rfl, rfl, (close?_group_iff rest).1 h⟩

/-- Of two balanced texts that a closing brace follows neither goes on where the other ends. -/
theorem Balanced.append_close_inj {body' rest rest' : Text} (h : Balanced body)
    (h' : Balanced body') (hsame : body ++ '}' :: rest = body' ++ '}' :: rest') :
    body = body' ∧ rest = rest' := by
  have hclose := (close?_group_iff rest).2 h
  have hclose' := (close?_group_iff rest').2 h'
  rw [hsame, hclose'] at hclose
  have hlength : body.length = body'.length := by
    simp only [Option.some.injEq] at hclose
    omega
  obtain ⟨hbody, hrest⟩ := List.append_inj hsame hlength
  exact ⟨hbody, (List.cons.inj hrest).2⟩

section Composition

variable {opened : Nat} {s t : Text}

theorem forall_prefix_append {α : Type} {s t : List α} {motive : List α → Prop} :
    (∀ p, p <+: s ++ t → motive p) ↔
      (∀ p, p <+: s → motive p) ∧ ∀ p, p <+: t → motive (s ++ p) := by
  constructor
  · intro h
    refine ⟨fun p hp => h p (hp.trans (List.prefix_append s t)), fun p hp => h (s ++ p) ?_⟩
    exact (List.prefix_append_right_inj s).2 hp
  · rintro ⟨hfirst, hsecond⟩ p hp
    rcases List.prefix_or_prefix_of_prefix hp (List.prefix_append s t) with hps | ⟨q, rfl⟩
    · exact hfirst p hps
    · exact hsecond q ((List.prefix_append_right_inj s).1 hp)

/-- A balanced text in front changes nothing. -/
theorem Balanced.append (hs : Balanced s) (ht : BalancedFrom opened t) :
    BalancedFrom opened (s ++ t) := by
  have hcount (brace : Char) (p : Text) : (s ++ p).count brace = s.count brace + p.count brace :=
    List.count_append
  have htotal := hs.total
  refine ⟨?_, forall_prefix_append.2 ⟨fun p hp => ?_, fun p hp => ?_⟩⟩
  · rw [hcount, hcount, ht.total]
    omega
  · exact Nat.le_trans (hs.within p hp) (Nat.le_add_right ..)
  · have := ht.within p hp
    rw [hcount, hcount]
    omega

theorem balanced_of_no_brace (hopen : '{' ∉ t) (hclose : '}' ∉ t) : Balanced t := by
  have hnone {c : Char} (hc : c ∉ t) (p : Text) (hp : p <+: t) : p.count c = 0 :=
    List.count_eq_zero.2 fun hmem => hc (hp.subset hmem)
  refine ⟨?_, fun p hp => ?_⟩
  · rw [hnone hopen t List.prefix_rfl, hnone hclose t List.prefix_rfl]
  · rw [hnone hclose p hp]
    exact Nat.zero_le _

/-- With braces around it a balanced text may stand in front of another. -/
theorem Balanced.group (hbody : Balanced body) (ht : Balanced t) :
    Balanced ('{' :: (body ++ '}' :: t)) :=
  balancedFrom_open.2 (hbody.append (balancedFrom_close.2 ⟨0, rfl, ht⟩))

end Composition

end Parlance.Brace
