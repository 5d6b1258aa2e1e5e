import Savitools.Bits.Crc
import Savitools.Web.QrHandoff

namespace Savitools.Web.QrChecksums

open Strings.CodeUnits Strings.Utf8 Bits.Crc QrHandoff

section Operators

/-- `ToInt32`, as bits. -/
def toInt32 (n : Int) : BitVec 32 := BitVec.ofInt 32 n

/-- `a ^ b`, which is signed. -/
def bitXor (a b : Int) : Int := (toInt32 a ^^^ toInt32 b).toInt

/-- `a & b`, which is signed. -/
def bitAnd (a b : Int) : Int := (toInt32 a &&& toInt32 b).toInt

/-- `a >>> k`, which is not. -/
def unsignedShift (a : Int) (k : Nat) : Int := (toInt32 a >>> k).toNat

theorem toInt32_bitXor (a b : Int) : toInt32 (bitXor a b) = toInt32 a ^^^ toInt32 b := BitVec.ofInt_toInt

theorem toInt32_unsignedShift (a : Int) (k : Nat) : toInt32 (unsignedShift a k) = toInt32 a >>> k := by
  rw [unsignedShift, toInt32, BitVec.ofInt_natCast, BitVec.ofNat_toNat, BitVec.setWidth_eq]

theorem bitAnd_one_iff (a : Int) : bitAnd a 1 = 1 ↔ toInt32 a &&& 1 = 1 := by
  have hone : (1 : BitVec 32).toInt = 1 := by decide
  have hbits : toInt32 1 = 1 := by decide
  rw [bitAnd, hbits]
  exact ⟨fun h => BitVec.eq_of_toInt_eq (h.trans hone.symm), fun h => (congrArg BitVec.toInt h).trans hone⟩

/-- The index of a row is not negative. -/
theorem toNat_bitAnd (a : Int) : (bitAnd a 0xff).toNat = (toInt32 a &&& 0xff).toNat := by
  have hbits : toInt32 0xff = 0xff := by decide
  have hlt : (toInt32 a &&& 0xff).toNat < 256 := by
    rw [BitVec.toNat_and]
    exact Nat.lt_of_le_of_lt Nat.and_le_right (by decide)
  rw [bitAnd, hbits, BitVec.toInt_eq_toNat_of_lt (by omega), Int.toNat_natCast]

end Operators

/-- A row of the table, before it is stored. -/
def rowValue (index : Nat) : Int :=
  (List.range 8).foldl
    (fun value _ => if bitAnd value 1 = 1 then bitXor 0xedb88320 (unsignedShift value 1) else unsignedShift value 1) index

def CRC_TABLE : List Int := (List.range 256).map fun index => unsignedShift (rowValue index) 0

/-- `crc32` of the bytes of a text. -/
def crc32Bytes (bytes : List Byte) : Int :=
  let crc := bytes.foldl
    (fun crc byte => bitXor (CRC_TABLE.getD (bitAnd (bitXor crc byte.toNat) 0xff).toNat 0) (unsignedShift crc 8)) 0xffffffff
  unsignedShift (bitXor crc 0xffffffff) 0

/-- The bits of a byte, the lowest first. -/
def lowestFirst (byte : Byte) : List Bool := (List.range 8).map byte.getLsbD

/-- One bit of a message: the register is divided by the reflected polynomial. -/
def crc32Bit (crc : BitVec 32) (b : Bool) : BitVec 32 :=
  if (crc.getLsbD 0 ^^ b) = true then (crc >>> 1) ^^^ 0xedb88320 else crc >>> 1

/-- CRC-32 by its definition, bit by bit. -/
def crc32Bitwise (bytes : List Byte) : BitVec 32 := ~~~((bytes.flatMap lowestFirst).foldl crc32Bit (~~~0))

section Register

theorem and_one_iff (r : BitVec 32) : r &&& 1 = 1 ↔ r.getLsbD 0 = true := by
  have hpow : (1 : BitVec 32) = BitVec.twoPow 32 0 := by decide
  rw [hpow, BitVec.and_twoPow]
  cases r.getLsbD 0 with
  | false => exact iff_of_false (by decide) Bool.false_ne_true
  | true => exact iff_of_true rfl rfl

theorem crcShift_eq (r : BitVec 32) :
    crcShift r = if r.getLsbD 0 = true then (r >>> 1) ^^^ 0xedb88320 else r >>> 1 := by
  rw [crcShift]
  refine (if_congr (and_one_iff r) (BitVec.xor_comm _ _) rfl).trans ?_
  rfl

theorem getLsbD_crcShift (r : BitVec 32) (i : Nat) :
    (crcShift r).getLsbD i = (r.getLsbD (1 + i) ^^ (r.getLsbD 0 && (0xedb88320 : BitVec 32).getLsbD i)) := by
  rw [crcShift_eq]
  by_cases h : r.getLsbD 0 = true
  · rw [if_pos h, BitVec.getLsbD_xor, BitVec.getLsbD_ushiftRight, h, Bool.true_and]
  · rw [if_neg h, BitVec.getLsbD_ushiftRight, Bool.eq_false_iff.mpr h, Bool.false_and, Bool.xor_false]

theorem crcShift_xor (a b : BitVec 32) : crcShift (a ^^^ b) = crcShift a ^^^ crcShift b := by
  have hbool : ∀ x y u v g : Bool, ((x ^^ y) ^^ ((u ^^ v) && g)) = ((x ^^ (u && g)) ^^ (y ^^ (v && g))) := by decide
  refine BitVec.eq_of_getLsbD_eq fun i _ => ?_
  rw [BitVec.getLsbD_xor, getLsbD_crcShift, getLsbD_crcShift, getLsbD_crcShift, BitVec.getLsbD_xor, BitVec.getLsbD_xor]
  exact hbool _ _ _ _ _

def reflected : Register 32 where
  depth := 32
  shift := crcShift
  index k := k
  linear := crcShift_xor
  moves k hk := by
    have hmoves : ∀ k < 31, crcShift (.twoPow 32 (k + 1)) = .twoPow 32 k := by decide
    exact hmoves k (by omega)

theorem feed_eq (r : BitVec 32) (b : Bool) : reflected.feed r b = crc32Bit r b := by
  have hentry (i : Nat) : (reflected.entry 0 b).getLsbD i = (b && i == 0) := by
    cases b with
    | false => exact BitVec.getLsbD_zero
    | true =>
        rw [Register.entry, if_pos rfl, BitVec.getLsbD_twoPow]
        cases i <;> rfl
  have hshift (i : Nat) : (crcShift (r ^^^ reflected.entry 0 b)).getLsbD i =
      (r.getLsbD (1 + i) ^^ ((r.getLsbD 0 ^^ b) && (0xedb88320 : BitVec 32).getLsbD i)) := by
    have hlater : (1 + i == 0) = false := beq_false_of_ne (by omega)
    rw [getLsbD_crcShift, BitVec.getLsbD_xor, BitVec.getLsbD_xor, hentry, hentry, hlater, Bool.and_false, Bool.xor_false,
      beq_self_eq_true, Bool.and_true]
  refine BitVec.eq_of_getLsbD_eq fun i _ => (hshift i).trans ?_
  rw [crc32Bit]
  by_cases h : (r.getLsbD 0 ^^ b) = true
  · rw [if_pos h, h, Bool.true_and, BitVec.getLsbD_xor, BitVec.getLsbD_ushiftRight]
  · rw [if_neg h, Bool.eq_false_iff.mpr h, Bool.false_and, Bool.xor_false, BitVec.getLsbD_ushiftRight]

/-- Bits are placed in the register as those of a number, the first of them lowest. -/
theorem getLsbD_placed_range (f : Nat → Bool) {k n start : Nat} (h : k + n ≤ 32) (i : Nat) :
    (reflected.placed k ((List.range' start n).map f)).getLsbD i = (decide (k ≤ i ∧ i < k + n) && f (i - k + start)) := by
  induction n generalizing k start with
  | zero =>
      have hnone : ¬(k ≤ i ∧ i < k + 0) := by omega
      rw [decide_eq_false hnone, Bool.false_and]
      exact BitVec.getLsbD_zero
  | succ n ih =>
      have hentry : (reflected.entry k (f start)).getLsbD i = (f start && decide (k = i)) := by
        cases hf : f start with
        | false => exact BitVec.getLsbD_zero
        | true =>
            rw [Register.entry, if_pos rfl, BitVec.getLsbD_twoPow]
            have hlt : reflected.index k < 32 := Nat.lt_of_lt_of_le (by omega : k < k + (n + 1)) h
            rw [decide_eq_true hlt]
            rfl
      rw [List.range'_succ, List.map_cons, Register.placed, BitVec.getLsbD_xor, hentry, ih (by omega)]
      by_cases hi : k = i
      · have hone : k ≤ i ∧ i < k + (n + 1) := by omega
        have hother : ¬(k + 1 ≤ i ∧ i < k + 1 + n) := by omega
        have hindex : i - k + start = start := by omega
        rw [decide_eq_true hi, decide_eq_true hone, decide_eq_false hother, hindex]
        simp
      · have hsame : decide (k + 1 ≤ i ∧ i < k + 1 + n) = decide (k ≤ i ∧ i < k + (n + 1)) :=
          decide_eq_decide.mpr (by omega)
        rw [decide_eq_false hi, hsame]
        by_cases hin : k ≤ i ∧ i < k + (n + 1)
        · have hindex : i - (k + 1) + (start + 1) = i - k + start := by omega
          rw [hindex]
          simp
        · rw [decide_eq_false hin]
          simp

theorem placed_lowestFirst (byte : Byte) : reflected.placed 0 (lowestFirst byte) = byte.setWidth 32 := by
  refine BitVec.eq_of_getLsbD_eq fun i hi => ?_
  rw [lowestFirst, List.range_eq_range', getLsbD_placed_range _ (by decide), BitVec.getLsbD_setWidth, decide_eq_true hi,
    Bool.true_and]
  by_cases hbyte : i < 8
  · rw [decide_eq_true ⟨Nat.zero_le i, by omega⟩, Bool.true_and]
    rfl
  · rw [decide_eq_false (by omega : ¬(0 ≤ i ∧ i < 0 + 8)), Bool.false_and, BitVec.getLsbD_of_ge byte i (by omega)]

end Register

section Tables

/-- Without ones among the lowest bits, shifting is all that happens. -/
theorem iterate_crcShift {n : Nat} {y : BitVec 32} (h : ∀ i < n, y.getLsbD i = false) : crcShift^[n] y = y >>> n := by
  induction n generalizing y with
  | zero => exact (BitVec.ushiftRight_zero y).symm
  | succ n ih =>
      have hone : ¬y.getLsbD 0 = true := Bool.eq_false_iff.mp (h 0 (Nat.succ_pos n))
      have hlow : ∀ i < n, (y >>> 1).getLsbD i = false := by
        intro i hi
        rw [BitVec.getLsbD_ushiftRight]
        exact h (1 + i) (by omega)
      rw [Function.iterate_succ_apply, crcShift_eq, if_neg hone, ih hlow, ← BitVec.shiftRight_add, Nat.add_comm]

/-- A row of the table does with the lowest byte what eight shifts do. -/
theorem iterate_eight (x : BitVec 32) : crcShift^[8] x = crcTable (x &&& 0xff).toNat ^^^ (x >>> 8) := by
  have hmask (i : Nat) : (0xff : BitVec 32).getLsbD i = decide (i < 8) := by
    have hpow : (0xff : BitVec 32).getLsbD i = (2 ^ 8 - 1 : Nat).testBit i := rfl
    rw [hpow, Nat.testBit_two_pow_sub_one]
  have hsplit : x = (x &&& 0xff) ^^^ (x &&& ~~~0xff) := by
    refine BitVec.eq_of_getLsbD_eq fun i hi => ?_
    rw [BitVec.getLsbD_xor, BitVec.getLsbD_and, BitVec.getLsbD_and, BitVec.getLsbD_not, decide_eq_true hi]
    cases x.getLsbD i <;> cases (0xff : BitVec 32).getLsbD i <;> rfl
  have hlow : ∀ i < 8, (x &&& ~~~0xff).getLsbD i = false := by
    intro i hi
    rw [BitVec.getLsbD_and, BitVec.getLsbD_not, hmask, decide_eq_true hi]
    simp
  have hhigh : (x &&& ~~~0xff) >>> 8 = x >>> 8 := by
    refine BitVec.eq_of_getLsbD_eq fun i _ => ?_
    rw [BitVec.getLsbD_ushiftRight, BitVec.getLsbD_ushiftRight, BitVec.getLsbD_and, BitVec.getLsbD_not, hmask]
    by_cases hi : 8 + i < 32
    · simp [hi]
    · rw [BitVec.getLsbD_of_ge x (8 + i) (by omega), Bool.false_and]
  have htable : crcTable (x &&& 0xff).toNat = crcShift^[8] (x &&& 0xff) := by
    rw [crcTable, BitVec.ofNat_toNat, BitVec.setWidth_eq]
    rfl
  have hlinear := reflected.iterate_xor 8 (x &&& 0xff) (x &&& ~~~0xff)
  rw [← hsplit] at hlinear
  exact hlinear.trans (congrArg₂ (· ^^^ ·) htable.symm ((iterate_crcShift hlow).trans hhigh))

theorem crcByte_eq (crc : BitVec 32) (byte : Byte) : crcByte crc byte = (lowestFirst byte).foldl crc32Bit crc := by
  have hfeed : (lowestFirst byte).foldl crc32Bit crc = (lowestFirst byte).foldl reflected.feed crc := by
    rw [funext₂ feed_eq]
  have hlength : (lowestFirst byte).length ≤ reflected.depth := by
    rw [lowestFirst, List.length_map, List.length_range]
    show 8 ≤ 32
    decide
  have hhigh : (byte.setWidth 32 : BitVec 32) >>> 8 = 0#32 := by
    refine BitVec.eq_of_getLsbD_eq fun i _ => ?_
    rw [BitVec.getLsbD_ushiftRight, BitVec.getLsbD_setWidth, BitVec.getLsbD_of_ge byte (8 + i) (by omega), Bool.and_false]
    exact BitVec.getLsbD_zero.symm
  have height : (lowestFirst byte).length = 8 := by rw [lowestFirst, List.length_map, List.length_range]
  rw [hfeed, reflected.foldl_feed hlength, placed_lowestFirst, height]
  refine Eq.trans ?_ (iterate_eight _).symm
  rw [crcByte, BitVec.ushiftRight_xor_distrib, hhigh, BitVec.xor_zero]

theorem foldl_crcByte (bytes : List Byte) (crc : BitVec 32) :
    bytes.foldl crcByte crc = (bytes.flatMap lowestFirst).foldl crc32Bit crc := by
  induction bytes generalizing crc with
  | nil => rfl
  | cons byte bytes ih => rw [List.foldl_cons, ih, List.flatMap_cons, List.foldl_append, crcByte_eq]

theorem toInt32_rowValue (index : Nat) : toInt32 (rowValue index) = crcTable index := by
  have hfold (steps : List Nat) (value : Int) (bits : BitVec 32) (h : toInt32 value = bits) :
      toInt32 (steps.foldl (fun value _ => if bitAnd value 1 = 1 then bitXor 0xedb88320 (unsignedShift value 1)
        else unsignedShift value 1) value) = steps.foldl (fun value _ => crcShift value) bits := by
    induction steps generalizing value bits with
    | nil => exact h
    | cons step steps ih =>
        refine ih _ _ ?_
        show toInt32 (if bitAnd value 1 = 1 then bitXor 0xedb88320 (unsignedShift value 1) else unsignedShift value 1) =
          crcShift bits
        rw [crcShift_eq, ← h]
        by_cases hone : (toInt32 value).getLsbD 0 = true
        · rw [if_pos ((bitAnd_one_iff value).mpr ((and_one_iff _).mpr hone)), if_pos hone, toInt32_bitXor,
            toInt32_unsignedShift, BitVec.xor_comm]
          rfl
        · rw [if_neg (fun h => hone ((and_one_iff _).mp ((bitAnd_one_iff value).mp h))), if_neg hone, toInt32_unsignedShift]
  exact hfold _ _ _ (BitVec.ofInt_natCast 32 index)

theorem toInt32_row {index : Nat} (h : index < 256) : toInt32 (CRC_TABLE.getD index 0) = crcTable index := by
  rw [CRC_TABLE, List.getD_eq_getElem?_getD, List.getElem?_map, List.getElem?_range h, Option.map_some, Option.getD_some,
    toInt32_unsignedShift, BitVec.ushiftRight_zero, toInt32_rowValue]

/-- The signed numbers of the loop have the bits of the register. -/
theorem toInt32_foldl (bytes : List Byte) {crc : Int} {bits : BitVec 32} (h : toInt32 crc = bits) :
    toInt32 (bytes.foldl (fun crc byte => bitXor (CRC_TABLE.getD (bitAnd (bitXor crc byte.toNat) 0xff).toNat 0)
      (unsignedShift crc 8)) crc) = bytes.foldl crcByte bits := by
  induction bytes generalizing crc bits with
  | nil => exact h
  | cons byte bytes ih =>
      refine ih ?_
      have hbyte : toInt32 byte.toNat = byte.setWidth 32 := by
        rw [toInt32, BitVec.ofInt_natCast, BitVec.ofNat_toNat]
      have hlt : (toInt32 (bitXor crc byte.toNat) &&& 0xff).toNat < 256 := by
        rw [BitVec.toNat_and]
        exact Nat.lt_of_le_of_lt Nat.and_le_right (by decide)
      rw [crcByte, ← h, toInt32_bitXor, toNat_bitAnd, toInt32_row hlt, toInt32_bitXor, toInt32_unsignedShift, hbyte]

end Tables

/-- The checksum by the table is that by the definition, for all bytes and so for those of a text. -/
theorem crc32_bitwise : (∀ bytes, crc32Bytes bytes = (crc32Bitwise bytes).toNat) ∧
    ∀ input, crc32 input = crc32Bitwise (textEncode input) := by
  have hones : (~~~0 : BitVec 32) = 0xffffffff := by decide
  have hcomplement (v : BitVec 32) : ~~~v = v ^^^ 0xffffffff := (BitVec.xor_allOnes).symm
  refine ⟨fun bytes => ?_, fun input => ?_⟩
  · have hstart : toInt32 0xffffffff = 0xffffffff := by decide
    have hfold := toInt32_foldl bytes hstart
    rw [crc32Bytes, unsignedShift, toInt32_bitXor, hfold, hstart, BitVec.ushiftRight_zero, foldl_crcByte, crc32Bitwise, hones,
      hcomplement]
  · rw [crc32, crc32Bitwise, hones, hcomplement, foldl_crcByte]

end Savitools.Web.QrChecksums
