import Mathlib.Data.List.Basic
import Mathlib.Tactic.Ring

namespace Bits.BigEndian

/-- A number in so many bytes, the first of them the highest. What does not fit is cut off. -/
def bytesOf : Nat → Nat → List (BitVec 8)
  | 0, _ => []
  | width + 1, n => bytesOf width (n / 256) ++ [BitVec.ofNat 8 n]

def valueOf (bytes : List (BitVec 8)) : Nat := bytes.foldl (fun n b => 256 * n + b.toNat) 0

@[simp] theorem length_bytesOf (width n : Nat) : (bytesOf width n).length = width := by
  induction width generalizing n with
  | zero => rfl
  | succ width ih => rw [bytesOf, List.length_append, ih]; rfl

theorem valueOf_concat (bytes : List (BitVec 8)) (b : BitVec 8) : valueOf (bytes ++ [b]) = 256 * valueOf bytes + b.toNat := by
  rw [valueOf, List.foldl_append]
  rfl

theorem valueOf_bytesOf {width n : Nat} (h : n < 256 ^ width) : valueOf (bytesOf width n) = n := by
  induction width generalizing n with
  | zero =>
      rw [Nat.pow_zero, Nat.lt_one_iff] at h
      rw [h]
      rfl
  | succ width ih =>
      have hdiv : n / 256 < 256 ^ width := Nat.div_lt_of_lt_mul (by rwa [← Nat.pow_succ'])
      rw [bytesOf, valueOf_concat, ih hdiv, BitVec.toNat_ofNat]
      omega

end Bits.BigEndian

namespace Bits.Groups

variable {α β : Type*}

/-- The `w` low bits of a number given by its bits, the highest first. -/
def lowBits (f : Nat → Bool) : Nat → List Bool
  | 0 => []
  | w + 1 => f w :: lowBits f w

@[simp] theorem length_lowBits (f : Nat → Bool) (w : Nat) : (lowBits f w).length = w := by
  induction w with
  | zero => rfl
  | succ w ih => rw [lowBits, List.length_cons, ih]

theorem lowBits_add (f : Nat → Bool) (v w : Nat) :
    lowBits f (v + w) = lowBits (fun i => f (i + w)) v ++ lowBits f w := by
  induction v with
  | zero => rw [Nat.zero_add]; rfl
  | succ v ih =>
      rw [Nat.succ_add, lowBits, ih]
      rfl

theorem lowBits_congr {f g : Nat → Bool} {w : Nat} (h : ∀ i < w, f i = g i) : lowBits f w = lowBits g w := by
  induction w with
  | zero => rfl
  | succ w ih => rw [lowBits, lowBits, h w (Nat.lt_succ_self w), ih (fun i hi => h i (Nat.lt_succ_of_lt hi))]

theorem eq_of_lowBits {f g : Nat → Bool} {w : Nat} (h : lowBits f w = lowBits g w) : ∀ i < w, f i = g i := by
  induction w with
  | zero => exact fun i hi => absurd hi (Nat.not_lt_zero i)
  | succ w ih =>
      obtain ⟨htop, hrest⟩ := List.cons.inj h
      intro i hi
      rcases Nat.lt_succ_iff_lt_or_eq.mp hi with hlt | rfl
      · exact ih hrest i hlt
      · exact htop

theorem lowBits_eq_replicate {f : Nat → Bool} {w : Nat} :
    lowBits f w = List.replicate w false ↔ ∀ i < w, f i = false := by
  have hfalse : lowBits (fun _ => false) w = List.replicate w false := by
    induction w with
    | zero => rfl
    | succ w ih => rw [lowBits, ih, List.replicate_succ]
  rw [← hfalse]
  exact ⟨eq_of_lowBits, lowBits_congr⟩

theorem length_flatMap_of_width {f : α → List β} {w : Nat} (hwidth : ∀ a, (f a).length = w) (xs : List α) :
    (xs.flatMap f).length = xs.length * w := by
  induction xs with
  | nil => rw [List.flatMap_nil, List.length_nil, List.length_nil, Nat.zero_mul]
  | cons a xs ih => rw [List.flatMap_cons, List.length_append, hwidth, ih, List.length_cons, Nat.succ_mul, Nat.add_comm]

/-- Groups of one width can be read back from their stream. -/
theorem flatMap_inj {f : α → List β} {w : Nat} (hwidth : ∀ a, (f a).length = w) {P : α → Prop}
    (hinj : ∀ a b, P a → P b → f a = f b → a = b) {xs ys : List α} (hxs : ∀ a ∈ xs, P a) (hys : ∀ a ∈ ys, P a)
    (hlength : xs.length = ys.length) (h : xs.flatMap f = ys.flatMap f) : xs = ys := by
  induction xs generalizing ys with
  | nil => exact (List.eq_nil_of_length_eq_zero hlength.symm).symm
  | cons a xs ih =>
      cases ys with
      | nil => cases hlength
      | cons b ys =>
          rw [List.flatMap_cons, List.flatMap_cons] at h
          obtain ⟨hhead, htail⟩ := List.append_inj h ((hwidth a).trans (hwidth b).symm)
          rw [hinj a b (hxs a List.mem_cons_self) (hys b List.mem_cons_self) hhead,
            ih (fun c hc => hxs c (List.mem_cons_of_mem _ hc)) (fun c hc => hys c (List.mem_cons_of_mem _ hc))
              (Nat.succ.inj hlength) htail]

end Bits.Groups
