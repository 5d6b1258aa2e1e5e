import Mathlib.Algebra.Order.BigOperators.Group.List
import Mathlib.Algebra.Order.Ring.Defs
import Mathlib.Tactic.Linarith
import Mathlib.Tactic.Ring

namespace Fills.Greedy

/-- So much is offered at a price. -/
structure Offer (R : Type) where
  price : R
  amount : R
deriving DecidableEq

section Sums

variable {R : Type} [CommRing R]

def amountOf (way : List (Offer R × R)) : R := (way.map (·.2)).sum

def costOf (way : List (Offer R × R)) : R := (way.map fun part => part.2 * part.1.price).sum

@[simp]
theorem amountOf_cons (part : Offer R × R) (way : List (Offer R × R)) : amountOf (part :: way) = part.2 + amountOf way := by
  rw [amountOf, List.map_cons, List.sum_cons, amountOf]

@[simp]
theorem costOf_cons (part : Offer R × R) (way : List (Offer R × R)) :
    costOf (part :: way) = part.2 * part.1.price + costOf way := by
  rw [costOf, List.map_cons, List.sum_cons, costOf]

theorem amountOf_append (front back : List (Offer R × R)) : amountOf (front ++ back) = amountOf front + amountOf back := by
  rw [amountOf, List.map_append, List.sum_append, amountOf, amountOf]

theorem costOf_append (front back : List (Offer R × R)) : costOf (front ++ back) = costOf front + costOf back := by
  rw [costOf, List.map_append, List.sum_append, costOf, costOf]

/-- An offer at the opposite price. -/
def Offer.opposite (offer : Offer R) : Offer R := ⟨-offer.price, offer.amount⟩

theorem costOf_opposite (way : List (Offer R × R)) : costOf (way.map (Prod.map Offer.opposite id)) = -costOf way := by
  induction way with
  | nil => simp [costOf]
  | cons part way ih =>
      rw [List.map_cons, costOf_cons, costOf_cons, ih]
      simp only [Prod.map_fst, Prod.map_snd, Offer.opposite, id]
      ring

theorem amountOf_opposite (way : List (Offer R × R)) : amountOf (way.map (Prod.map Offer.opposite id)) = amountOf way := by
  rw [amountOf, List.map_map]
  rfl

theorem amountOf_eq_zero {way : List (Offer R × R)} (h : ∀ part ∈ way, part.2 = 0) : amountOf way = 0 :=
  List.sum_eq_zero (List.forall_mem_map.mpr h)

theorem costOf_eq_zero {way : List (Offer R × R)} (h : ∀ part ∈ way, part.2 = 0) : costOf way = 0 := by
  refine List.sum_eq_zero (List.forall_mem_map.mpr fun part hpart => ?_)
  rw [h part hpart, zero_mul]

end Sums

variable {R : Type} [CommRing R] [LinearOrder R]

/-- A way to fill: from each offer a part of its amount. -/
def Way (way : List (Offer R × R)) : Prop := ∀ part ∈ way, 0 ≤ part.2 ∧ part.2 ≤ part.1.amount

/-- From each offer in turn as much as there is and as is still wanted. -/
def greedy : R → List (Offer R) → List (Offer R × R)
  | _, [] => []
  | wanted, offer :: offers => (offer, min offer.amount wanted) :: greedy (wanted - min offer.amount wanted) offers

/-- The same, which stops when nothing more is wanted. -/
def consumed : R → List (Offer R) → List (Offer R × R)
  | _, [] => []
  | wanted, offer :: offers =>
      if wanted ≤ 0 then []
      else (offer, min offer.amount wanted) :: consumed (wanted - min offer.amount wanted) offers

/-- What an amount costs at least, judged by one price: that of the amount, less what the cheaper offers save. -/
def worth (price total : R) (offers : List (Offer R)) : R :=
  price * total - (offers.map fun offer => offer.amount * max (price - offer.price) 0).sum

/-- All that is cheaper than the price is taken, and nothing that is dearer. -/
def Parted (price : R) (way : List (Offer R × R)) : Prop :=
  ∀ part ∈ way, (part.1.price < price → part.2 = part.1.amount) ∧ (price < part.1.price → part.2 = 0)

theorem worth_cons (price total rest : R) (offer : Offer R) (offers : List (Offer R)) :
    worth price (total + rest) (offer :: offers) =
      price * total - offer.amount * max (price - offer.price) 0 + worth price rest offers := by
  rw [worth, worth, List.map_cons, List.sum_cons]
  ring

theorem worth_perm {price total : R} {offers others : List (Offer R)} (h : offers.Perm others) :
    worth price total offers = worth price total others := by
  rw [worth, worth, (h.map _).sum_eq]

@[simp]
theorem map_fst_greedy (wanted : R) (offers : List (Offer R)) : (greedy wanted offers).map (·.1) = offers := by
  induction offers generalizing wanted with
  | nil => rfl
  | cons offer offers ih => rw [greedy, List.map_cons, ih]

theorem greedy_opposite (wanted : R) (offers : List (Offer R)) :
    greedy wanted (offers.map Offer.opposite) = (greedy wanted offers).map (Prod.map Offer.opposite id) := by
  induction offers generalizing wanted with
  | nil => rfl
  | cons offer offers ih =>
      rw [List.map_cons, greedy, ih]
      rfl

theorem greedy_zero {offers : List (Offer R)} (hamounts : ∀ offer ∈ offers, 0 ≤ offer.amount) :
    ∀ part ∈ greedy 0 offers, part.2 = 0 := by
  induction offers with
  | nil => exact nofun
  | cons offer offers ih =>
      have hoffer := hamounts offer List.mem_cons_self
      rw [greedy, min_eq_right hoffer, sub_zero]
      exact List.forall_mem_cons.mpr ⟨rfl, ih fun other hother => hamounts other (List.mem_cons_of_mem _ hother)⟩

/-- From offers with the cheapest first, the takes are parted by a price. -/
theorem exists_parted {offers : List (Offer R)} (hsorted : offers.Pairwise fun a b => a.price ≤ b.price)
    (hamounts : ∀ offer ∈ offers, 0 ≤ offer.amount) (wanted : R) : ∃ price, Parted price (greedy wanted offers) := by
  induction offers generalizing wanted with
  | nil => exact ⟨0, nofun⟩
  | cons offer offers ih =>
      obtain ⟨hfirst, hrest⟩ := List.pairwise_cons.mp hsorted
      have hothers : ∀ other ∈ offers, 0 ≤ other.amount := fun other hother => hamounts other (List.mem_cons_of_mem _ hother)
      have hlater {rest : R} {part : Offer R × R} (hpart : part ∈ greedy rest offers) : offer.price ≤ part.1.price := by
        refine hfirst _ ?_
        rw [← map_fst_greedy rest offers]
        exact List.mem_map_of_mem hpart
      rcases le_total offer.amount wanted with hle | hle
      · -- The offer is taken in full, and at its own price or a higher one the others are parted.
        obtain ⟨price, hparted⟩ := ih hrest hothers (wanted - offer.amount)
        refine ⟨max price offer.price, ?_⟩
        rw [greedy, min_eq_left hle]
        refine List.forall_mem_cons.mpr ⟨⟨fun _ => rfl, fun hdear => absurd (le_max_right price _) hdear.not_ge⟩, ?_⟩
        intro part hpart
        refine ⟨fun hcheap => (hparted part hpart).1 ?_, fun hdear => (hparted part hpart).2 ((le_max_left _ _).trans_lt hdear)⟩
        exact (lt_max_iff.mp hcheap).resolve_right (hlater hpart).not_gt
      · -- The offer is the last that is taken from.
        refine ⟨offer.price, ?_⟩
        rw [greedy, min_eq_right hle, sub_self]
        refine List.forall_mem_cons.mpr ⟨⟨fun hcheap => absurd hcheap (lt_irrefl _), fun hdear => absurd hdear (lt_irrefl _)⟩, ?_⟩
        intro part hpart
        exact ⟨fun hcheap => absurd hcheap (hlater hpart).not_gt, fun _ => greedy_zero hothers part hpart⟩

theorem consumed_prefix (wanted : R) (offers : List (Offer R)) : (consumed wanted offers).map (·.1) <+: offers := by
  induction offers generalizing wanted with
  | nil => exact List.nil_prefix
  | cons offer offers ih =>
      rw [consumed]
      split
      · exact List.nil_prefix
      · exact List.prefix_cons_inj offer |>.mpr (ih _)

/-- Only from the last offer less may be taken than there is. -/
theorem full_of_mem_dropLast (wanted : R) (offers : List (Offer R)) :
    ∀ part ∈ (consumed wanted offers).dropLast, part.2 = part.1.amount := by
  induction offers generalizing wanted with
  | nil => exact nofun
  | cons offer offers ih =>
      rw [consumed]
      split
      · exact nofun
      · rcases le_total offer.amount wanted with hle | hle
        · intro part hpart
          rw [min_eq_left hle] at hpart
          cases hrest : consumed (wanted - offer.amount) offers with
          | nil =>
              rw [hrest] at hpart
              cases hpart
          | cons next rest =>
              rw [hrest, List.dropLast_cons_cons, ← hrest] at hpart
              rcases List.mem_cons.mp hpart with rfl | hpart
              · rfl
              · exact ih _ part hpart
        · have hnothing : consumed 0 offers = [] := by
            cases offers with
            | nil => rfl
            | cons _ _ => rw [consumed, if_pos le_rfl]
          rw [min_eq_right hle, sub_self, hnothing]
          exact nofun

variable [IsStrictOrderedRing R]

/-- What is left out takes nothing. -/
theorem greedy_eq_append {offers : List (Offer R)} {wanted : R} (hamounts : ∀ offer ∈ offers, 0 ≤ offer.amount) (hwanted : 0 ≤ wanted) :
    ∃ rest, greedy wanted offers = consumed wanted offers ++ rest ∧ ∀ part ∈ rest, part.2 = 0 := by
  induction offers generalizing wanted with
  | nil => exact ⟨[], rfl, nofun⟩
  | cons offer offers ih =>
      by_cases hnone : wanted ≤ 0
      · rw [consumed, if_pos hnone, hwanted.antisymm' hnone]
        exact ⟨_, rfl, greedy_zero hamounts⟩
      · have hothers : ∀ other ∈ offers, 0 ≤ other.amount := fun other hother => hamounts other (List.mem_cons_of_mem _ hother)
        obtain ⟨rest, hrest, hzero⟩ := ih hothers (sub_nonneg.mpr (min_le_right offer.amount wanted))
        rw [greedy, consumed, if_neg hnone, hrest]
        exact ⟨rest, rfl, hzero⟩

theorem consumed_sums {offers : List (Offer R)} {wanted : R} (hamounts : ∀ offer ∈ offers, 0 ≤ offer.amount)
    (hwanted : 0 ≤ wanted) : amountOf (consumed wanted offers) = amountOf (greedy wanted offers) ∧
      costOf (consumed wanted offers) = costOf (greedy wanted offers) := by
  obtain ⟨rest, hrest, hzero⟩ := greedy_eq_append hamounts hwanted
  rw [hrest, amountOf_append, costOf_append, amountOf_eq_zero hzero, costOf_eq_zero hzero, add_zero, add_zero]
  exact ⟨rfl, rfl⟩

/-- No way to fill an amount costs less than it is worth. -/
theorem worth_le_cost (price : R) {way : List (Offer R × R)} (hway : Way way) :
    worth price (amountOf way) (way.map (·.1)) ≤ costOf way := by
  induction way with
  | nil => simp [worth, amountOf, costOf]
  | cons part way ih =>
      obtain ⟨hnonneg, hle⟩ := hway part List.mem_cons_self
      rw [amountOf_cons, costOf_cons, List.map_cons, worth_cons]
      refine add_le_add ?_ (ih fun other hother => hway other (List.mem_cons_of_mem _ hother))
      have hsaved : part.2 * (price - part.1.price) ≤ part.1.amount * max (price - part.1.price) 0 :=
        (mul_le_mul_of_nonneg_left (le_max_left _ _) hnonneg).trans (mul_le_mul_of_nonneg_right hle (le_max_right _ _))
      linarith

/-- A way that is parted by a price costs what its amount is worth. -/
theorem cost_eq_worth {price : R} {way : List (Offer R × R)} (hparted : Parted price way) :
    costOf way = worth price (amountOf way) (way.map (·.1)) := by
  induction way with
  | nil => simp [worth, amountOf, costOf]
  | cons part way ih =>
      obtain ⟨hcheap, hdear⟩ := hparted part List.mem_cons_self
      rw [amountOf_cons, costOf_cons, List.map_cons, worth_cons,
        ih fun other hother => hparted other (List.mem_cons_of_mem _ hother)]
      congr 1
      rcases lt_trichotomy part.1.price price with hlt | heq | hgt
      · rw [max_eq_left (by linarith), ← hcheap hlt]
        ring
      · rw [heq, sub_self, max_self, mul_zero, sub_zero, mul_comm]
      · rw [max_eq_right (by linarith), hdear hgt]
        ring

section Greedy

variable {offers : List (Offer R)} {wanted : R}

/-- All that is wanted is filled, as far as it is offered. -/
theorem amountOf_greedy (hamounts : ∀ offer ∈ offers, 0 ≤ offer.amount) (hwanted : 0 ≤ wanted) :
    amountOf (greedy wanted offers) = min wanted (offers.map (·.amount)).sum := by
  induction offers generalizing wanted with
  | nil => simp [greedy, amountOf, hwanted]
  | cons offer offers ih =>
      have hrest : ∀ other ∈ offers, 0 ≤ other.amount := fun other hother => hamounts other (List.mem_cons_of_mem _ hother)
      have hdepth : 0 ≤ (offers.map (·.amount)).sum := List.sum_nonneg (List.forall_mem_map.mpr hrest)
      rw [greedy, amountOf_cons, ih hrest (sub_nonneg.mpr (min_le_right _ _)), List.map_cons, List.sum_cons]
      rcases le_total offer.amount wanted with hle | hle
      · rw [min_eq_left hle, ← min_add_add_left, add_sub_cancel]
      · rw [min_eq_right hle, sub_self, min_eq_left hdepth, add_zero, min_eq_left (by linarith)]

/-- No way to fill the same amount from the same offers, in whatever order, costs less. -/
theorem costOf_greedy_le (hsorted : offers.Pairwise fun a b => a.price ≤ b.price)
    (hamounts : ∀ offer ∈ offers, 0 ≤ offer.amount) {way : List (Offer R × R)} (hoffers : (way.map (·.1)).Perm offers)
    (hway : Way way) (hamount : amountOf way = amountOf (greedy wanted offers)) :
    costOf (greedy wanted offers) ≤ costOf way := by
  obtain ⟨price, hparted⟩ := exists_parted hsorted hamounts wanted
  calc costOf (greedy wanted offers)
      = worth price (amountOf (greedy wanted offers)) offers := by rw [cost_eq_worth hparted, map_fst_greedy]
    _ = worth price (amountOf way) (way.map (·.1)) := by rw [hamount, worth_perm hoffers]
    _ ≤ costOf way := worth_le_cost price hway

/-- From offers with the dearest first, no way to fill the same amount brings more. -/
theorem le_costOf_greedy (hsorted : offers.Pairwise fun a b => b.price ≤ a.price)
    (hamounts : ∀ offer ∈ offers, 0 ≤ offer.amount) {way : List (Offer R × R)} (hoffers : (way.map (·.1)).Perm offers)
    (hway : Way way) (hamount : amountOf way = amountOf (greedy wanted offers)) :
    costOf way ≤ costOf (greedy wanted offers) := by
  have hcheapest : (offers.map Offer.opposite).Pairwise fun a b => a.price ≤ b.price :=
    List.pairwise_map.mpr (hsorted.imp fun h => neg_le_neg h)
  have hsame : ((way.map (Prod.map Offer.opposite id)).map (·.1)).Perm (offers.map Offer.opposite) := by
    have hmap : ((·.1) ∘ Prod.map Offer.opposite id : Offer R × R → Offer R) = Offer.opposite ∘ (·.1) := rfl
    rw [List.map_map, hmap, ← List.map_map]
    exact hoffers.map _
  have htotal : amountOf (way.map (Prod.map Offer.opposite id)) = amountOf (greedy wanted (offers.map Offer.opposite)) := by
    rw [amountOf_opposite, greedy_opposite, amountOf_opposite, hamount]
  have hleast := costOf_greedy_le hcheapest (List.forall_mem_map.mpr hamounts) hsame (List.forall_mem_map.mpr hway) htotal
  rw [greedy_opposite, costOf_opposite, costOf_opposite] at hleast
  exact neg_le_neg_iff.mp hleast

end Greedy

end Fills.Greedy
