import Mathlib.Data.List.Nodup
import Mathlib.Data.List.Perm.Subperm
import Mathlib.Order.Lattice

namespace Searches.Best

variable {α β γ : Type}

def keepBest (better : α → α → Bool) (best : α) (others : List α) : α :=
  others.foldl (fun best a => if better a best then a else best) best

/-- The one that is left when each in turn replaces the best so far if it is better. -/
def pick (better : α → α → Bool) : List α → Option α
  | [] => none
  | a :: as => some (keepBest better a as)

/-- The first of the greatest ones, with what stands in front of it and behind it. -/
structure FirstGreatest [LinearOrder β] (reading : α → β) (before : List α) (best : α) (after : List α) : Prop where
  above : ∀ a ∈ before, reading a < reading best
  atLeast : ∀ a ∈ after, reading a ≤ reading best

section Reading

variable [LinearOrder β] {reading : α → β} {better : α → α → Bool}

theorem keepBest_first {before between others : List α} {best : α} (hbest : FirstGreatest reading before best between)
    (hbetter : ∀ a ∈ others, ∀ b ∈ best :: others, better a b = true ↔ reading b < reading a) :
    ∃ front back, before ++ best :: between ++ others = front ++ keepBest better best others :: back ∧
      FirstGreatest reading front (keepBest better best others) back := by
  induction others generalizing before between best with
  | nil => exact ⟨before, between, List.append_nil _, hbest⟩
  | cons a others ih =>
      rw [keepBest, List.foldl_cons]
      have hstep := hbetter a List.mem_cons_self best List.mem_cons_self
      by_cases hgreater : reading best < reading a
      · have hlist : before ++ best :: between ++ a :: others = (before ++ best :: between) ++ a :: [] ++ others := by simp
        rw [if_pos (hstep.mpr hgreater), hlist]
        refine ih ⟨fun c hc => ?_, nofun⟩ fun c hc b hb => ?_
        · rcases List.mem_append.mp hc with hc | hc
          · exact (hbest.above c hc).trans hgreater
          · rcases List.mem_cons.mp hc with rfl | hc
            · exact hgreater
            · exact (hbest.atLeast c hc).trans_lt hgreater
        · exact hbetter c (List.mem_cons_of_mem _ hc) b (List.mem_cons_of_mem _ hb)
      · have hlist : before ++ best :: between ++ a :: others = before ++ best :: (between ++ [a]) ++ others := by simp
        rw [if_neg fun h => hgreater (hstep.mp h), hlist]
        refine ih ⟨hbest.above, fun c hc => ?_⟩ fun c hc b hb => ?_
        · rcases List.mem_append.mp hc with hc | hc
          · exact hbest.atLeast c hc
          · rw [List.mem_singleton.mp hc]
            exact not_lt.mp hgreater
        · refine hbetter c (List.mem_cons_of_mem _ hc) b ?_
          rcases List.mem_cons.mp hb with rfl | hb
          · exact List.mem_cons_self
          · exact List.mem_cons_of_mem _ (List.mem_cons_of_mem _ hb)

variable {as : List α} {best : α} (hbetter : ∀ a ∈ as, ∀ b ∈ as, better a b = true ↔ reading b < reading a)
  (hpick : pick better as = some best)

include hbetter hpick

/-- What is picked is the first of the greatest. -/
theorem pick_first : ∃ before after, as = before ++ best :: after ∧ FirstGreatest reading before best after := by
  cases as with
  | nil => cases hpick
  | cons a as =>
      cases hpick
      have hfirst : FirstGreatest reading [] a [] := ⟨nofun, nofun⟩
      exact keepBest_first hfirst
        fun b hb c hc => hbetter b (List.mem_cons_of_mem _ hb) c hc

omit hbetter hpick

theorem FirstGreatest.le {before after : List α} (h : FirstGreatest reading before best after) {a : α}
    (ha : a ∈ before ++ best :: after) : reading a ≤ reading best := by
  rcases List.mem_append.mp ha with ha | ha
  · exact (h.above a ha).le
  · rcases List.mem_cons.mp ha with rfl | ha
    · exact le_rfl
    · exact h.atLeast a ha

/-- There is only one first of the greatest. -/
theorem FirstGreatest.unique {before after front back : List α} {other : α} (h : FirstGreatest reading before best after)
    (hother : FirstGreatest reading front other back) (heq : before ++ best :: after = front ++ other :: back) :
    best = other ∧ after = back := by
  have hle : reading best ≤ reading other := hother.le (by rw [← heq]; simp)
  have hge : reading other ≤ reading best := h.le (by rw [heq]; simp)
  rcases List.append_eq_append_iff.mp heq with ⟨between, hfront, hrest⟩ | ⟨between, hbefore, hrest⟩
  · cases between with
    | nil =>
        rw [List.nil_append] at hrest
        exact List.cons.inj hrest
    | cons a between =>
        rw [List.cons_append] at hrest
        obtain ⟨rfl, -⟩ := List.cons.inj hrest
        exact absurd (hother.above best (by rw [hfront]; simp)) (not_lt.mpr hge)
  · cases between with
    | nil =>
        rw [List.nil_append] at hrest
        exact ⟨(List.cons.inj hrest).1.symm, (List.cons.inj hrest).2.symm⟩
    | cons a between =>
        rw [List.cons_append] at hrest
        obtain ⟨rfl, -⟩ := List.cons.inj hrest
        exact absurd (h.above other (by rw [hbefore]; simp)) (not_lt.mpr hle)

include hbetter hpick

/-- Where what is compared is a coarse reading of the worth, the one that is picked is worth the most exactly when
none behind the first greatest reads the same and is worth more. -/
theorem pick_greatest_iff [LinearOrder γ] {worth : α → γ}
    (hmono : ∀ a ∈ as, ∀ b ∈ as, worth a ≤ worth b → reading a ≤ reading b) :
    (∀ a ∈ as, worth a ≤ worth best) ↔
      ∀ before first after, as = before ++ first :: after → FirstGreatest reading before first after →
        ∀ a ∈ after, reading a = reading first → worth a ≤ worth first := by
  obtain ⟨before, after, heq, hfirst⟩ := pick_first hbetter hpick
  constructor
  · intro hgreatest front first back hsplit hother a ha _
    obtain ⟨rfl, rfl⟩ := hfirst.unique hother (heq.symm.trans hsplit)
    exact hgreatest a (by rw [heq]; simp [ha])
  · intro hnone a ha
    by_contra hless
    have hle := hmono best (by rw [heq]; simp) a ha (not_le.mp hless).le
    have hsame : reading a = reading best := le_antisymm (hfirst.le (heq ▸ ha)) hle
    rw [heq] at ha
    rcases List.mem_append.mp ha with ha | ha
    · exact absurd (hfirst.above a ha) (not_lt.mpr hle)
    · rcases List.mem_cons.mp ha with rfl | ha
      · exact hless le_rfl
      · exact hless (hnone before best after heq hfirst a ha hsame)

end Reading

end Searches.Best

namespace Searches.Upward

variable {α : Type} {p : Int → Bool} {fuel : Nat} {n m : Int}

/-- The first number from `n` on that is free, as far as the fuel lasts. -/
def search (p : Int → Bool) : Nat → Int → Option Int
  | 0, _ => none
  | fuel + 1, n => if p n then some n else search p fuel (n + 1)

theorem search_spec (h : search p fuel n = some m) :
    n ≤ m ∧ p m = true ∧ ∀ k, n ≤ k → k < m → p k = false := by
  induction fuel generalizing n with
  | zero => cases h
  | succ fuel ih =>
      rw [search] at h
      by_cases hn : p n = true
      · rw [if_pos hn] at h
        cases h
        exact ⟨Int.le_refl _, hn, fun k hle hlt => absurd hle (by omega)⟩
      · rw [if_neg hn] at h
        obtain ⟨hle, hm, hbetween⟩ := ih h
        refine ⟨by omega, hm, fun k hnk hkm => ?_⟩
        by_cases hk : k = n
        · rw [hk]
          exact Bool.eq_false_iff.mpr hn
        · exact hbetween k (by omega) hkm

/-- With a free number in its reach the search ends. -/
theorem search_isSome (hm : p m = true) (hle : n ≤ m) (hlt : m < n + fuel) : ∃ k, search p fuel n = some k := by
  induction fuel generalizing n with
  | zero => omega
  | succ fuel ih =>
      rw [search]
      by_cases hn : p n = true
      · exact ⟨n, if_pos hn⟩
      · rw [if_neg hn]
        have hne : n ≠ m := by
          rintro rfl
          exact hn hm
        exact ih (by omega) (by omega)

theorem search_eq_some (hm : p m = true) (hle : n ≤ m) (hbelow : ∀ k, n ≤ k → k < m → p k = false)
    (hlt : m < n + fuel) : search p fuel n = some m := by
  obtain ⟨k, hk⟩ := search_isSome hm hle hlt
  obtain ⟨hnk, hpk, hbefore⟩ := search_spec hk
  have hkm : ¬k < m := fun h => by
    rw [hbelow k hnk h] at hpk
    cases hpk
  have hmk : ¬m < k := fun h => by
    rw [hbefore m hle h] at hm
    cases hm
  rw [hk, Int.le_antisymm (Int.not_lt.mp hmk) (Int.not_lt.mp hkm)]

/-- Of more different candidates than there are entries one is not among them. -/
theorem exists_not_mem {f : Nat → α} (hf : Function.Injective f) (taken : List α) :
    ∃ j, j ≤ taken.length ∧ f j ∉ taken := by
  by_contra hall
  have hsubset : (List.range (taken.length + 1)).map f ⊆ taken := by
    intro a ha
    obtain ⟨j, hj, rfl⟩ := List.mem_map.mp ha
    by_contra hfree
    exact hall ⟨j, Nat.lt_succ_iff.mp (List.mem_range.mp hj), hfree⟩
  have hnodup : ((List.range (taken.length + 1)).map f).Nodup := List.nodup_range.map hf
  have hlength := (List.subperm_of_subset hnodup hsubset).length_le
  rw [List.length_map, List.length_range] at hlength
  omega

end Searches.Upward
