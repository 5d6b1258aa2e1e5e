import Mathlib.Data.List.DropRight
import Savitools.Strings.CodeUnits

namespace Strings.Trimming

open Strings.CodeUnits

section

variable {α : Type} {p : α → Bool}

theorem rdropWhile_eq_iff {t l : List α} :
    t.rdropWhile p = l ↔ (∃ after, t = l ++ after ∧ ∀ u ∈ after, p u = true) ∧ ∀ h : l ≠ [], p (l.getLast h) = false := by
  constructor
  · rintro rfl
    exact ⟨⟨t.rtakeWhile p, List.rdropWhile_append_rtakeWhile.symm, fun u hu => List.mem_rtakeWhile_imp hu⟩,
      fun h => Bool.eq_false_iff.mpr (List.rdropWhile_last_not p t h)⟩
  · rintro ⟨⟨after, rfl, hafter⟩, hlast⟩
    induction after using List.reverseRecOn with
    | nil =>
        rw [List.append_nil]
        exact List.rdropWhile_eq_self_iff.mpr fun h => Bool.eq_false_iff.mp (hlast h)
    | append_singleton after u ih =>
        obtain ⟨hafter, hu⟩ := List.forall_mem_append.mp hafter
        rw [← List.append_assoc, List.rdropWhile_concat_pos p _ u (hu u (List.mem_singleton_self u))]
        exact ih hafter

theorem rdropWhile_append_singleton {l after : List α} {u : α} (hu : p u = false) (hafter : ∀ v ∈ after, p v = true) :
    (l ++ u :: after).rdropWhile p = l ++ [u] := by
  refine rdropWhile_eq_iff.mpr ⟨⟨after, (List.append_cons l u after), hafter⟩, fun h => ?_⟩
  rw [List.getLast_append_singleton]
  exact hu

/-- What is dropped at the start ends before the first that is kept. -/
theorem dropWhile_append_cons {u : α} (hu : p u = false) (l rest : List α) :
    (l ++ u :: rest).dropWhile p = l.dropWhile p ++ u :: rest := by
  rw [List.dropWhile_append, List.dropWhile_cons_of_neg (Bool.eq_false_iff.mp hu)]
  split
  next h => rw [List.isEmpty_iff.mp h, List.nil_append]
  next => rfl

end

theorem trim_eq_rdropWhile (t : Text) : trim t = (trimStart t).rdropWhile isSpace := rfl

theorem trimStart_trimStart (t : Text) : trimStart (trimStart t) = trimStart t := List.dropWhile_idempotent isSpace t

/-- White space at the end is what `trim` takes off besides. -/
theorem trimStart_eq_append (t : Text) : ∃ after, (∀ u ∈ after, isSpace u = true) ∧ trimStart t = trim t ++ after := by
  obtain ⟨after, heq, hafter⟩ := (rdropWhile_eq_iff.mp (trim_eq_rdropWhile t).symm).1
  exact ⟨after, hafter, heq⟩

theorem not_space_getLast_trim {t : Text} (h : trim t ≠ []) : isSpace ((trim t).getLast h) = false :=
  (rdropWhile_eq_iff.mp (trim_eq_rdropWhile t).symm).2 h

theorem trim_isInfix (t : Text) : trim t <:+: t := by
  have hprefix : trim t <+: trimStart t := List.rdropWhile_prefix isSpace _
  have hsuffix : trimStart t <:+ t := List.dropWhile_suffix isSpace
  exact hprefix.isInfix.trans hsuffix.isInfix

theorem length_trim_le (t : Text) : (trim t).length ≤ t.length := (trim_isInfix t).length_le

/-- A text that starts where another starts after its white space has none at its start. -/
theorem trimStart_of_prefix {s t : Text} (h : s <+: trimStart t) : trimStart s = s := by
  cases s with
  | nil => rfl
  | cons u s =>
      obtain ⟨rest, hrest⟩ := h
      have hu : isSpace u = false := by
        have hhead := List.head?_dropWhile_not isSpace t
        rw [show t.dropWhile isSpace = u :: (s ++ rest) from hrest.symm] at hhead
        simpa using hhead
      exact List.dropWhile_cons_of_neg (Bool.eq_false_iff.mp hu)

theorem trim_of_prefix {s t : Text} (h : s <+: trimStart t) (hlast : ∀ hne : s ≠ [], isSpace (s.getLast hne) = false) :
    trim s = s := by
  rw [trim_eq_rdropWhile, trimStart_of_prefix h]
  exact List.rdropWhile_eq_self_iff.mpr fun hne => Bool.eq_false_iff.mp (hlast hne)

theorem trim_trim (t : Text) : trim (trim t) = trim t :=
  trim_of_prefix (List.rdropWhile_prefix isSpace _) fun hne => not_space_getLast_trim hne

/-- White space is taken off around a text of which the last unit is none. -/
theorem trim_append_cons {front rest blanks : Text} {u : UInt16} (hu : isSpace u = false)
    (hrest : ∀ v ∈ rest, isSpace v = false) (hblanks : ∀ v ∈ blanks, isSpace v = true) :
    trim (front ++ u :: (rest ++ blanks)) = trimStart front ++ u :: rest := by
  rw [trim_eq_rdropWhile, trimStart, dropWhile_append_cons hu]
  refine rdropWhile_eq_iff.mpr ⟨⟨blanks, by simp [trimStart], hblanks⟩, fun h => ?_⟩
  rw [List.getLast_append_of_ne_nil h (List.cons_ne_nil _ _)]
  have hall : ∀ v ∈ u :: rest, isSpace v = false := List.forall_mem_cons.mpr ⟨hu, hrest⟩
  exact hall _ (List.getLast_mem _)

theorem trimStart_append_kept {kept : Text} (hne : kept ≠ []) (hkept : ∀ u ∈ kept, isSpace u = false) (before after : Text) :
    trimStart (before ++ kept ++ after) = trimStart before ++ kept ++ after := by
  cases kept with
  | nil => exact absurd rfl hne
  | cons u kept =>
      rw [List.append_assoc, List.append_assoc]
      exact dropWhile_append_cons (hkept u List.mem_cons_self) before (kept ++ after)

/-- White space is taken off on both sides of what has none. -/
theorem trim_append_kept {kept : Text} (hne : kept ≠ []) (hkept : ∀ u ∈ kept, isSpace u = false) (before after : Text) :
    trim (before ++ kept ++ after) = trimStart before ++ kept ++ (trimStart after.reverse).reverse := by
  have hback : (trimStart before ++ kept ++ after).reverse = after.reverse ++ kept.reverse ++ (trimStart before).reverse := by
    simp
  have hreverse : kept.reverse ≠ [] := by simpa using hne
  rw [trim, trimStart_append_kept hne hkept, hback, trimStart_append_kept hreverse (by simpa using hkept)]
  simp

end Strings.Trimming
