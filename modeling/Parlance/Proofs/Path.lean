import Mathlib.Data.List.TakeWhile
import Parlance.Path
/-!
Suffixes of paths. A name ends in its suffix, which holds no dot but its first, so that a new
suffix with more dots gives another name (name?_ne_of_withSuffix?).
-/

namespace Parlance.Path

/-- A name is what comes before its suffix, and its suffix. -/
theorem suffixOf_suffix (name : Text) : suffixOf name <:+ name := by
  simp only [suffixOf]
  split
  · exact List.nil_suffix
  · next hlong =>
    rw [not_or, Nat.not_le] at hlong
    have hsplit := List.takeWhile_append_dropWhile (p := (· ≠ '.')) (l := name.reverse)
    have hhead := List.head?_dropWhile_not (· ≠ '.') name.reverse
    cases hrest : name.reverse.dropWhile (· ≠ '.') with
    | nil =>
      rw [hrest, List.append_nil] at hsplit
      have hlength := congrArg List.length hsplit
      rw [List.length_reverse] at hlength
      omega
    | cons c rest =>
      rw [hrest] at hsplit hhead
      obtain rfl : c = '.' := by simpa using hhead
      refine ⟨rest.reverse, ?_⟩
      rw [← List.reverse_inj, List.reverse_append, List.reverse_cons, List.reverse_reverse,
        List.reverse_reverse, List.append_assoc]
      exact hsplit

theorem count_suffixOf (name : Text) : (suffixOf name).count '.' ≤ 1 := by
  simp only [suffixOf]
  split
  · exact Nat.zero_le 1
  · have hafter : '.' ∉ (name.reverse.takeWhile (· ≠ '.')).reverse := by
      intro hmem
      have hdot := List.mem_takeWhile_imp (List.mem_reverse.1 hmem)
      simp at hdot
    rw [List.count_cons_self, List.count_eq_zero_of_not_mem hafter]

/-- Another suffix with more than one dot gives another name. -/
theorem name?_ne_of_withSuffix? {p q : Path} {suffix : Text} (hdots : 1 < suffix.count '.')
    (h : p.withSuffix? suffix = some q) : q.name? ≠ p.name? := by
  rw [withSuffix?, Option.bind_eq_bind, Option.bind_eq_some_iff] at h
  obtain ⟨name, hname, hq⟩ := h
  cases hq
  rw [name?, List.getLast?_concat, hname]
  intro hsame
  have hstem := List.suffix_iff_eq_append.1 (suffixOf_suffix name)
  have hsuffix : suffix = suffixOf name :=
    List.append_cancel_left ((Option.some.inj hsame).trans hstem.symm)
  have hcount := count_suffixOf name
  rw [← hsuffix] at hcount
  omega

end Parlance.Path
