import Mathlib.Logic.Function.Iterate

namespace Bits.Crc

/-- A linear shift register. A bit enters at the index of the position 0; one that is put into the register at another
position comes there with as many shifts. -/
structure Register (w : Nat) where
  depth : Nat
  shift : BitVec w → BitVec w
  index : Nat → Nat
  linear : ∀ a b, shift (a ^^^ b) = shift a ^^^ shift b
  moves : ∀ k, k + 1 < depth → shift (.twoPow w (index (k + 1))) = .twoPow w (index k)

namespace Register

variable {w : Nat} (R : Register w)

def entry (k : Nat) (b : Bool) : BitVec w := if b then .twoPow w (R.index k) else 0

def feed (r : BitVec w) (b : Bool) : BitVec w := R.shift (r ^^^ R.entry 0 b)

/-- Bits at the positions from `k` on. -/
def placed : Nat → List Bool → BitVec w
  | _, [] => 0
  | k, b :: bits => R.entry k b ^^^ placed (k + 1) bits

theorem shift_zero : R.shift 0 = 0 := by
  have hlinear := R.linear 0 0
  rwa [BitVec.xor_self, BitVec.xor_self] at hlinear

theorem iterate_xor (n : Nat) (a b : BitVec w) : R.shift^[n] (a ^^^ b) = R.shift^[n] a ^^^ R.shift^[n] b := by
  induction n generalizing a b with
  | zero => rfl
  | succ n ih => rw [Function.iterate_succ_apply, R.linear, ih, Function.iterate_succ_apply, Function.iterate_succ_apply]

theorem shift_entry {k : Nat} (h : k + 1 < R.depth) (b : Bool) : R.shift (R.entry (k + 1) b) = R.entry k b := by
  cases b with
  | false => exact R.shift_zero
  | true => exact R.moves k h

theorem shift_placed {k : Nat} {bits : List Bool} (h : k + 1 + bits.length ≤ R.depth) :
    R.shift (R.placed (k + 1) bits) = R.placed k bits := by
  induction bits generalizing k with
  | nil => exact R.shift_zero
  | cons b bits ih =>
      rw [List.length_cons] at h
      rw [placed, placed, R.linear, R.shift_entry (by omega), ih (by omega)]

/-- Bits that fit into the register may enter it at once. -/
theorem foldl_feed {bits : List Bool} (h : bits.length ≤ R.depth) (r : BitVec w) :
    bits.foldl R.feed r = R.shift^[bits.length] (r ^^^ R.placed 0 bits) := by
  induction bits generalizing r with
  | nil => exact (BitVec.xor_zero).symm
  | cons b bits ih =>
      rw [List.length_cons] at h
      rw [List.foldl_cons, ih (by omega), List.length_cons, Function.iterate_succ_apply, placed, ← BitVec.xor_assoc, R.linear,
        R.shift_placed (by omega), feed]

/-- Zeros do not fill an empty register. -/
theorem foldl_replicate (n : Nat) : (List.replicate n false).foldl R.feed 0 = 0 := by
  induction n with
  | zero => rfl
  | succ n ih =>
      have hfeed : R.feed 0 false = 0 := (congrArg R.shift BitVec.xor_zero).trans R.shift_zero
      rw [List.replicate_succ, List.foldl_cons, hfeed, ih]

/-- The states of the register, among which no bit is lost. -/
structure Injective (fits : BitVec w → Prop) : Prop where
  depth_pos : 0 < R.depth
  fits_xor : ∀ {a b}, fits a → fits b → fits (a ^^^ b)
  fits_twoPow : ∀ k < R.depth, fits (.twoPow w (R.index k))
  fits_shift : ∀ {a}, fits a → fits (R.shift a)
  kernel : ∀ {a}, fits a → R.shift a = 0 → a = 0
  index_lt : ∀ k < R.depth, R.index k < w
  index_inj : ∀ j < R.depth, ∀ k < R.depth, R.index j = R.index k → j = k

variable {R} {fits : BitVec w → Prop} (hR : R.Injective fits)

include hR

theorem Injective.fits_zero : fits 0 := by
  have hself := hR.fits_xor (hR.fits_twoPow 0 hR.depth_pos) (hR.fits_twoPow 0 hR.depth_pos)
  rwa [BitVec.xor_self] at hself

theorem Injective.fits_entry {k : Nat} (hk : k < R.depth) (b : Bool) : fits (R.entry k b) := by
  cases b with
  | false => exact hR.fits_zero
  | true => exact hR.fits_twoPow k hk

theorem Injective.shift_inj {a b : BitVec w} (ha : fits a) (hb : fits b) (h : R.shift a = R.shift b) : a = b := by
  have hzero : R.shift (a ^^^ b) = 0 := by
    rw [R.linear, h, BitVec.xor_self]
    rfl
  exact BitVec.xor_eq_zero_iff.mp (hR.kernel (hR.fits_xor ha hb) hzero)

theorem Injective.iterate_inj (n : Nat) {a b : BitVec w} (ha : fits a) (hb : fits b) (h : R.shift^[n] a = R.shift^[n] b) :
    a = b := by
  induction n generalizing a b with
  | zero => exact h
  | succ n ih => exact hR.shift_inj ha hb (ih (hR.fits_shift ha) (hR.fits_shift hb) h)

theorem Injective.fits_feed {r : BitVec w} (hr : fits r) (b : Bool) : fits (R.feed r b) :=
  hR.fits_shift (hR.fits_xor hr (hR.fits_entry hR.depth_pos b))

theorem Injective.fits_foldl (bits : List Bool) {r : BitVec w} (hr : fits r) : fits (bits.foldl R.feed r) := by
  induction bits generalizing r with
  | nil => exact hr
  | cons b bits ih => exact ih (hR.fits_feed hr b)

theorem Injective.foldl_inj (bits : List Bool) {r s : BitVec w} (hr : fits r) (hs : fits s)
    (h : bits.foldl R.feed r = bits.foldl R.feed s) : r = s := by
  induction bits generalizing r s with
  | nil => exact h
  | cons b bits ih =>
      have hfeed := ih (hR.fits_feed hr b) (hR.fits_feed hs b) h
      have hentry := hR.fits_entry hR.depth_pos b
      exact (BitVec.xor_left_inj _).mp (hR.shift_inj (hR.fits_xor hr hentry) (hR.fits_xor hs hentry) hfeed)

theorem Injective.fits_placed {k : Nat} {bits : List Bool} (h : k + bits.length ≤ R.depth) : fits (R.placed k bits) := by
  induction bits generalizing k with
  | nil => exact hR.fits_zero
  | cons b bits ih =>
      rw [List.length_cons] at h
      exact hR.fits_xor (hR.fits_entry (by omega) b) (ih (by omega))

theorem Injective.getLsbD_entry {j k : Nat} (hj : j < R.depth) (hk : k < R.depth) (b : Bool) :
    (R.entry k b).getLsbD (R.index j) = (b && j == k) := by
  cases b with
  | false => exact BitVec.getLsbD_zero
  | true =>
      rw [entry, if_pos rfl, BitVec.getLsbD_twoPow, decide_eq_true (hR.index_lt k hk)]
      by_cases hjk : j = k
      · simp [hjk]
      · have hne : R.index k ≠ R.index j := fun heq => hjk (hR.index_inj k hk j hj heq).symm
        simp [hjk, hne]

/-- What is placed from a position on does not show before it. -/
theorem Injective.getLsbD_placed {j k : Nat} {bits : List Bool} (hjk : j < k) (h : k + bits.length ≤ R.depth) :
    (R.placed k bits).getLsbD (R.index j) = false := by
  induction bits generalizing k with
  | nil => exact BitVec.getLsbD_zero
  | cons b bits ih =>
      rw [List.length_cons] at h
      rw [placed, BitVec.getLsbD_xor, hR.getLsbD_entry (by omega) (by omega), ih (by omega) (by omega)]
      simp [Nat.ne_of_lt hjk]

theorem Injective.placed_inj {k : Nat} {xs ys : List Bool} (hlength : xs.length = ys.length) (h : k + xs.length ≤ R.depth)
    (heq : R.placed k xs = R.placed k ys) : xs = ys := by
  induction xs generalizing k ys with
  | nil => exact (List.eq_nil_of_length_eq_zero hlength.symm).symm
  | cons x xs ih =>
      cases ys with
      | nil => cases hlength
      | cons y ys =>
          have htails : xs.length = ys.length := Nat.succ.inj hlength
          rw [List.length_cons] at h
          have hbit (b : Bool) (bits : List Bool) (hbits : k + 1 + bits.length ≤ R.depth) :
              (R.placed k (b :: bits)).getLsbD (R.index k) = b := by
            rw [placed, BitVec.getLsbD_xor, hR.getLsbD_entry (by omega) (by omega),
              hR.getLsbD_placed (Nat.lt_succ_self k) hbits]
            simp
          have hhead : x = y := by
            have hx := hbit x xs (by omega)
            rw [heq, hbit y ys (by omega)] at hx
            exact hx.symm
          subst hhead
          rw [placed, placed, BitVec.xor_right_inj] at heq
          rw [ih htails (by omega) heq]

/-- Streams that differ in no more bits in a row than the register holds do not leave the same in it. -/
theorem Injective.burst_inj {front xs ys back : List Bool} (hlength : xs.length = ys.length) (hxs : xs.length ≤ R.depth)
    {r : BitVec w} (hr : fits r)
    (h : (front ++ xs ++ back).foldl R.feed r = (front ++ ys ++ back).foldl R.feed r) : xs = ys := by
  simp only [List.foldl_append] at h
  have hfront := hR.fits_foldl front hr
  have hburst := hR.foldl_inj back (hR.fits_foldl xs hfront) (hR.fits_foldl ys hfront) h
  have hys : ys.length ≤ R.depth := hlength ▸ hxs
  rw [R.foldl_feed hxs, R.foldl_feed hys, ← hlength, R.iterate_xor, R.iterate_xor, BitVec.xor_right_inj] at hburst
  exact hR.placed_inj hlength (by omega) (hR.iterate_inj _ (hR.fits_placed (by omega)) (hR.fits_placed (by omega)) hburst)

end Register

end Bits.Crc
