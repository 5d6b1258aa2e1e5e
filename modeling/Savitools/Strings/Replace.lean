import Mathlib.Data.List.Infix

namespace Strings.Replace

variable {α : Type*}

/-- Every match replaced, from left to right. `matchAt` gives the length of the match at
the start of a text, which is positive; `skip` is what is left of the match under way. -/
def replaceFrom (matchAt : List α → Option Nat) (replacement : List α) : Nat → List α → List α
  | _, [] => []
  | skip + 1, _ :: rest => replaceFrom matchAt replacement skip rest
  | 0, a :: rest =>
      match matchAt (a :: rest) with
      | none => a :: replaceFrom matchAt replacement 0 rest
      | some length => replacement ++ replaceFrom matchAt replacement (length - 1) rest

def replaceAll (matchAt : List α → Option Nat) (replacement : List α) : List α → List α :=
  replaceFrom matchAt replacement 0

/-- No part of the text satisfies the pattern. -/
def Free (P : List α → Prop) (t : List α) : Prop :=
  ∀ w, w <:+: t → ¬P w

/-- The pattern is only met by non-empty texts without the two separators. -/
def Avoids (P : List α → Prop) (left right : α) : Prop :=
  ∀ w, P w → w ≠ [] ∧ left ∉ w ∧ right ∉ w

/-- The matcher finds a match at the start of a text exactly when the pattern has one. -/
def Recognises (matchAt : List α → Option Nat) (P : List α → Prop) : Prop :=
  ∀ t, matchAt t = none ↔ ∀ w, w <+: t → ¬P w

variable {matchAt : List α → Option Nat} {P : List α → Prop} {left right : α} {body : List α}

theorem Free.of_isInfix {s t : List α} (ht : Free P t) (h : s <:+: t) : Free P s :=
  fun w hw => ht w (hw.trans h)

theorem free_of_mem {a : α} {t : List α} (hmem : ∀ w, P w → a ∈ w) (ht : a ∉ t) : Free P t :=
  fun w hw hp => ht (hw.subset (hmem w hp))

theorem free_of_length {n : Nat} {t : List α} (hlength : ∀ w, P w → w.length = n) (ht : t.length < n) : Free P t := by
  intro w hw hp
  have hle := hw.length_le
  rw [hlength w hp] at hle
  omega

theorem mem_of_suffix_concat {a : α} {s x : List α} (hne : x ≠ []) (hsuffix : x <:+ s ++ [a]) : a ∈ x := by
  obtain ⟨y, u, rfl⟩ := (List.eq_nil_or_concat' x).resolve_left hne
  obtain ⟨front, hfront⟩ := hsuffix
  rw [← List.append_assoc] at hfront
  obtain ⟨-, hlast⟩ := List.append_inj' hfront rfl
  rw [← List.singleton_inj.mp hlast]
  exact List.mem_append_right _ List.mem_cons_self

/-- A separator between two texts keeps a match in one of them. -/
theorem Free.append {s t : List α} (hs : Free P (s ++ [right])) (ht : Free P t) (havoids : Avoids P left right) :
    Free P (s ++ right :: t) := by
  intro w hw hp
  rw [← List.concat_append, List.concat_eq_append] at hw
  rcases List.infix_append_iff_ne_nil.mp hw with hw | hw | ⟨x, y, hx, -, rfl, hsuffix, -⟩
  · exact hs w hw hp
  · exact ht w hw hp
  · exact (havoids _ hp).2.2 (List.mem_append_left _ (mem_of_suffix_concat hx hsuffix))

/-- A separator that no match has keeps the two sides apart. -/
theorem free_append_cons_iff {a : α} {s t : List α} (havoids : ∀ w, P w → w ≠ [] ∧ a ∉ w) :
    Free P (s ++ a :: t) ↔ Free P s ∧ Free P t := by
  have hempty : Free P (s ++ [a]) ↔ Free P s := by
    refine ⟨fun h => h.of_isInfix (List.prefix_append s [a]).isInfix, fun hs w hw hp => ?_⟩
    rcases List.infix_append_iff_ne_nil.mp hw with hw | hw | ⟨x, y, -, hy, rfl, -, hprefix⟩
    · exact hs w hw hp
    · rcases (List.infix_singleton_iff _ _).mp hw with rfl | rfl
      · exact (havoids _ hp).1 rfl
      · exact (havoids _ hp).2 (List.mem_singleton_self a)
    · obtain rfl := ((List.infix_singleton_iff _ _).mp hprefix.isInfix).resolve_left hy
      exact (havoids _ hp).2 (List.mem_append_right _ (List.mem_singleton_self a))
  refine ⟨fun h => ⟨h.of_isInfix (List.prefix_append s _).isInfix, ?_⟩, fun ⟨hs, ht⟩ => ?_⟩
  · exact h.of_isInfix ((List.suffix_cons a t).trans (List.suffix_append s _)).isInfix
  · exact (hempty.mpr hs).append ht fun w hw => ⟨(havoids w hw).1, (havoids w hw).2, (havoids w hw).2⟩

theorem free_label_iff {a : α} {label t : List α} (havoids : ∀ w, P w → w ≠ [] ∧ a ∉ w) (hlabel : Free P label)
    (hlast : label.getLast? = some a) : Free P (label ++ t) ↔ Free P t := by
  obtain ⟨front, rfl⟩ := List.getLast?_eq_some_iff.mp hlast
  rw [List.append_assoc, List.singleton_append, free_append_cons_iff havoids]
  exact and_iff_right (hlabel.of_isInfix (List.prefix_append _ _).isInfix)

/-- The parts of a text between separators that no match has can be looked at one by one. -/
theorem free_intercalate {a : α} {ts : List (List α)} (havoids : ∀ w, P w → w ≠ [] ∧ a ∉ w) (hts : ∀ t ∈ ts, Free P t) :
    Free P ([a].intercalate ts) := by
  induction ts with
  | nil => exact fun w hw hp => (havoids w hp).1 (List.infix_nil.mp hw)
  | cons t ts ih =>
      obtain ⟨ht, hts⟩ := List.forall_mem_cons.mp hts
      cases ts with
      | nil => simpa using ht
      | cons s ts =>
          rw [List.intercalate_cons_cons, List.append_assoc, List.singleton_append]
          exact (free_append_cons_iff havoids).mpr ⟨ht, ih hts⟩

theorem replaceFrom_of_free (hmatch : Recognises matchAt P) {replacement t : List α} (ht : Free P t) :
    replaceFrom matchAt replacement 0 t = t := by
  induction t with
  | nil => rfl
  | cons a t ih =>
      have hnone : matchAt (a :: t) = none := (hmatch _).mpr (fun w hw => ht w hw.isInfix)
      rw [replaceFrom, hnone]
      exact congrArg (a :: ·) (ih (ht.of_isInfix (List.suffix_cons a t).isInfix))

/-- A text without the left separator at the start of the output stands at the start of the input. -/
theorem prefix_of_prefix_replaceFrom {w t : List α} (hleft : left ∉ w)
    (hw : w <+: replaceFrom matchAt (left :: body) 0 t) : w <+: t := by
  induction t generalizing w with
  | nil => exact hw
  | cons a t ih =>
      cases w with
      | nil => exact List.nil_prefix
      | cons b w =>
          rw [replaceFrom] at hw
          split at hw
          next =>
            obtain ⟨hba, hrest⟩ := List.cons_prefix_cons.mp hw
            exact List.cons_prefix_cons.mpr ⟨hba, ih (fun h => hleft (List.mem_cons_of_mem _ h)) hrest⟩
          next =>
            obtain ⟨rfl, -⟩ := List.cons_prefix_cons.mp hw
            exact absurd List.mem_cons_self hleft

/-- What of the output satisfies the pattern lies in the replacement, or starts where the
input has no match. -/
theorem infix_replaceFrom {w t : List α} {skip : Nat} (hne : w ≠ []) (hleft : left ∉ w) (hright : right ∉ w)
    (hw : w <:+: replaceFrom matchAt (left :: body ++ [right]) skip t) :
    w <:+: left :: body ++ [right] ∨ ∃ s, s <:+ t ∧ w <+: s ∧ matchAt s = none := by
  induction t generalizing skip with
  | nil =>
      cases skip <;> exact absurd (List.infix_nil.mp hw) hne
  | cons a t ih =>
      have hlater : ∀ {n}, w <:+: replaceFrom matchAt (left :: body ++ [right]) n t →
          w <:+: left :: body ++ [right] ∨ ∃ s, s <:+ a :: t ∧ w <+: s ∧ matchAt s = none := by
        intro n h
        rcases ih h with h | ⟨s, hs, hstart, hnone⟩
        · exact .inl h
        · exact .inr ⟨s, hs.trans (List.suffix_cons a t), hstart, hnone⟩
      cases skip with
      | succ skip => exact hlater hw
      | zero =>
          rw [replaceFrom] at hw
          split at hw
          next hnone =>
            rcases List.infix_cons_iff.mp hw with hstart | h
            · refine .inr ⟨a :: t, List.suffix_rfl, ?_, hnone⟩
              cases w with
              | nil => exact absurd rfl hne
              | cons b w =>
                  obtain ⟨hba, hrest⟩ := List.cons_prefix_cons.mp hstart
                  exact List.cons_prefix_cons.mpr
                    ⟨hba, prefix_of_prefix_replaceFrom (fun h => hleft (List.mem_cons_of_mem _ h)) hrest⟩
            · exact hlater h
          next =>
            rcases List.infix_append_iff_ne_nil.mp hw with h | h | ⟨x, y, hx, -, rfl, hsuffix, -⟩
            · exact .inl h
            · exact hlater h
            · exact absurd (List.mem_append_left _ (mem_of_suffix_concat hx hsuffix)) hright

/-- Replacing leaves no match of the pattern when the replacement has none. -/
theorem free_replaceFrom (hmatch : Recognises matchAt P) (havoids : Avoids P left right)
    (hreplacement : Free P (left :: body ++ [right])) (skip : Nat) (t : List α) :
    Free P (replaceFrom matchAt (left :: body ++ [right]) skip t) := by
  intro w hw hp
  obtain ⟨hne, hleft, hright⟩ := havoids w hp
  rcases infix_replaceFrom hne hleft hright hw with h | ⟨s, -, hstart, hnone⟩
  · exact hreplacement w h hp
  · exact (hmatch s).mp hnone w hstart hp

/-- Replacing matches of another pattern makes no match of this one. -/
theorem Free.replaceFrom {t : List α} (ht : Free P t) (havoids : Avoids P left right)
    (hreplacement : Free P (left :: body ++ [right])) (skip : Nat) :
    Free P (replaceFrom matchAt (left :: body ++ [right]) skip t) := by
  intro w hw hp
  obtain ⟨hne, hleft, hright⟩ := havoids w hp
  rcases infix_replaceFrom hne hleft hright hw with h | ⟨s, hs, hstart, -⟩
  · exact hreplacement w h hp
  · exact ht w (hstart.isInfix.trans hs.isInfix) hp

end Strings.Replace
