import Savitools.Bits.Crc
import Savitools.Strings.Trimming
import Savitools.Web.StrKeyTexts

namespace Savitools.Web.StrKeyBursts

open Strings.CodeUnits Strings.Trimming Bits.Groups Bits.Crc StrKey Base32Groups StrKeyTexts

section Register

theorem getLsbD_ffff (i : Nat) : (0xffff : BitVec 32).getLsbD i = decide (i < 16) := by
  have hmask : (0xffff : BitVec 32).getLsbD i = (2 ^ 16 - 1 : Nat).testBit i := rfl
  rw [hmask, Nat.testBit_two_pow_sub_one]

/-- The bits of a shifted checksum: the polynomial comes in when the highest bit goes out. -/
theorem getLsbD_crc16Shift (r : BitVec 32) (i : Nat) : (crc16Shift r).getLsbD i =
    (decide (i < 16) && ((decide (0 < i) && r.getLsbD (i - 1)) ^^ (r.getLsbD 15 && (0x1021 : BitVec 32).getLsbD i))) := by
  have htop : r &&& 0x8000 ≠ 0 ↔ r.getLsbD 15 = true := by
    have hpow : (0x8000 : BitVec 32) = BitVec.twoPow 32 15 := by decide
    rw [hpow, BitVec.and_twoPow]
    cases r.getLsbD 15 with
    | false => simp
    | true => exact iff_of_true (by decide) rfl
  have hshift : i < 16 → (r <<< 1).getLsbD i = (decide (0 < i) && r.getLsbD (i - 1)) := by
    intro hi
    rw [BitVec.getLsbD_shiftLeft, decide_eq_true (by omega : i < 32), Bool.true_and]
    congr 1
    rw [← decide_not]
    exact decide_eq_decide.mpr (by omega)
  rw [crc16Shift]
  by_cases hi : i < 16
  · by_cases h : r.getLsbD 15 = true
    · rw [if_pos (htop.mpr h), BitVec.getLsbD_and, BitVec.getLsbD_xor, hshift hi, getLsbD_ffff, h]
      simp [hi]
    · rw [if_neg (fun hne => h (htop.mp hne)), BitVec.getLsbD_and, hshift hi, getLsbD_ffff, Bool.eq_false_iff.mpr h]
      simp [hi]
  · split <;> rw [BitVec.getLsbD_and, getLsbD_ffff, decide_eq_false hi, Bool.and_false, Bool.false_and]

theorem crc16Shift_xor (a b : BitVec 32) : crc16Shift (a ^^^ b) = crc16Shift a ^^^ crc16Shift b := by
  have hbool : ∀ p q x y u v g : Bool, (p && ((q && (x ^^ y)) ^^ ((u ^^ v) && g))) =
      ((p && ((q && x) ^^ (u && g))) ^^ (p && ((q && y) ^^ (v && g)))) := by
    decide
  refine BitVec.eq_of_getLsbD_eq fun i _ => ?_
  rw [BitVec.getLsbD_xor, getLsbD_crc16Shift, getLsbD_crc16Shift, getLsbD_crc16Shift, BitVec.getLsbD_xor, BitVec.getLsbD_xor]
  exact hbool _ _ _ _ _ _ _

def xmodem : Register 32 where
  depth := 16
  shift := crc16Shift
  index k := 15 - k
  linear := crc16Shift_xor
  moves k hk := by
    have hmoves : ∀ k < 15, crc16Shift (.twoPow 32 (15 - (k + 1))) = .twoPow 32 (15 - k) := by decide
    exact hmoves k (by omega)

/-- The values of a checksum. -/
def Short (r : BitVec 32) : Prop := ∀ i, 16 ≤ i → r.getLsbD i = false

theorem injective_xmodem : xmodem.Injective Short where
  depth_pos := by decide
  fits_xor ha hb i hi := by
    rw [BitVec.getLsbD_xor, ha i hi, hb i hi]
    rfl
  fits_twoPow k hk i hi := by
    rw [BitVec.getLsbD_twoPow]
    have hne : ¬15 - k = i := by omega
    simp [xmodem, hne]
  fits_shift _ i hi := (getLsbD_crc16Shift _ i).trans (by rw [decide_eq_false (by omega), Bool.false_and])
  kernel {a} ha h := by
    have hbit (i : Nat) (hi : i < 16) :
        ((decide (0 < i) && a.getLsbD (i - 1)) ^^ (a.getLsbD 15 && (0x1021 : BitVec 32).getLsbD i)) = false := by
      have hshift := (getLsbD_crc16Shift a i).symm.trans ((congrArg (BitVec.getLsbD · i) h).trans BitVec.getLsbD_zero)
      rwa [decide_eq_true hi, Bool.true_and] at hshift
    -- The lowest bit of the polynomial shows whether the highest one went out.
    have htop : a.getLsbD 15 = false := by simpa using hbit 0 (by decide)
    refine BitVec.eq_of_getLsbD_eq fun i _ => Eq.trans ?_ BitVec.getLsbD_zero.symm
    rcases Nat.lt_or_ge i 15 with hlow | hhigh
    · have hnext := hbit (i + 1) (by omega)
      rwa [htop, Bool.false_and, Bool.xor_false, decide_eq_true (Nat.succ_pos i), Bool.true_and, Nat.add_sub_cancel] at hnext
    · rcases Nat.eq_or_lt_of_le hhigh with rfl | hbeyond
      · exact htop
      · exact ha i hbeyond
  index_lt k hk := by
    show 15 - k < 32
    omega
  index_inj j hj k hk h := by
    have heq : 15 - j = 15 - k := h
    have hj' : j < 16 := hj
    have hk' : k < 16 := hk
    omega

/-- Bits are placed in the register as those of a number, the first of them highest. -/
theorem getLsbD_placed_lowBits (f : Nat → Bool) {n k : Nat} (h : k + n ≤ 16) (i : Nat) :
    (xmodem.placed k (lowBits f n)).getLsbD i = (decide (16 ≤ i + k + n ∧ i + k < 16) && f (i + k + n - 16)) := by
  induction n generalizing k with
  | zero =>
      have hnone : ¬(16 ≤ i + k + 0 ∧ i + k < 16) := by omega
      rw [decide_eq_false hnone, Bool.false_and]
      exact BitVec.getLsbD_zero
  | succ n ih =>
      have hentry : (xmodem.entry k (f n)).getLsbD i = (f n && decide (15 - k = i)) := by
        cases hf : f n with
        | false => exact BitVec.getLsbD_zero
        | true =>
            rw [Register.entry, if_pos rfl, BitVec.getLsbD_twoPow]
            have hlt : xmodem.index k < 32 := by
              show 15 - k < 32
              omega
            rw [decide_eq_true hlt]
            rfl
      rw [lowBits, Register.placed, BitVec.getLsbD_xor, hentry, ih (by omega)]
      by_cases hi : 15 - k = i
      · have hone : 16 ≤ i + k + (n + 1) ∧ i + k < 16 := by omega
        have hother : ¬(16 ≤ i + (k + 1) + n ∧ i + (k + 1) < 16) := by omega
        have hindex : i + k + (n + 1) - 16 = n := by omega
        rw [decide_eq_true hi, decide_eq_true hone, decide_eq_false hother, hindex]
        simp
      · have hsame : decide (16 ≤ i + (k + 1) + n ∧ i + (k + 1) < 16) = decide (16 ≤ i + k + (n + 1) ∧ i + k < 16) :=
          decide_eq_decide.mpr (by omega)
        have hindex : i + (k + 1) + n - 16 = i + k + (n + 1) - 16 := by omega
        rw [decide_eq_false hi, hsame, hindex]
        simp

end Register

section Streams

/-- The checksum of bytes is what the stream of their bits leaves in the register. -/
theorem crc16Byte_eq (crc : BitVec 32) (byte : Byte) : crc16Byte crc byte = (byteBits byte).foldl xmodem.feed crc := by
  have hplaced : xmodem.placed 0 (byteBits byte) = byte.setWidth 32 <<< 8 := by
    refine BitVec.eq_of_getLsbD_eq fun i hi => ?_
    rw [byteBits, getLsbD_placed_lowBits _ (by decide), BitVec.getLsbD_shiftLeft, BitVec.getLsbD_setWidth, decide_eq_true hi,
      decide_eq_true (by omega : i - 8 < 32), Bool.true_and, Bool.true_and]
    by_cases hbyte : 8 ≤ i ∧ i < 16
    · have hin : 16 ≤ i + 0 + 8 ∧ i + 0 < 16 := by omega
      have hindex : i + 0 + 8 - 16 = i - 8 := by omega
      rw [decide_eq_true hin, decide_eq_false (by omega : ¬i < 8), hindex]
      rfl
    · have hout : ¬(16 ≤ i + 0 + 8 ∧ i + 0 < 16) := by omega
      rw [decide_eq_false hout, Bool.false_and]
      rcases Nat.lt_or_ge i 8 with hlow | hhigh
      · rw [decide_eq_true hlow]
        rfl
      · rw [BitVec.getLsbD_of_ge byte (i - 8) (by omega), Bool.and_false]
  have hlength : (byteBits byte).length ≤ xmodem.depth := by
    rw [length_byteBits]
    decide
  rw [xmodem.foldl_feed hlength, hplaced, length_byteBits]
  rfl

theorem foldl_crc16Byte (data : List Byte) (crc : BitVec 32) :
    data.foldl crc16Byte crc = (data.flatMap byteBits).foldl xmodem.feed crc := by
  induction data generalizing crc with
  | nil => rfl
  | cons byte data ih => rw [List.foldl_cons, ih, List.flatMap_cons, List.foldl_append, crc16Byte_eq]

theorem crc16XModem_eq (data : List Byte) : crc16XModem data = (data.flatMap byteBits).foldl xmodem.feed 0 := by
  have hshort := injective_xmodem.fits_foldl (data.flatMap byteBits) injective_xmodem.fits_zero
  rw [crc16XModem, foldl_crc16Byte]
  refine BitVec.eq_of_getLsbD_eq fun i _ => ?_
  rw [BitVec.getLsbD_and, getLsbD_ffff]
  by_cases hi : i < 16
  · rw [decide_eq_true hi, Bool.and_true]
  · rw [decide_eq_false hi, Bool.and_false, hshort i (Nat.le_of_not_lt hi)]

/-- Bytes with their own checksum at the end empty the register. -/
theorem foldl_checksummed {data : List Byte} {a b : Byte} (h : crc16XModem data = checksumValue [a, b]) :
    ((data ++ [a, b]).flatMap byteBits).foldl xmodem.feed 0 = 0 := by
  have hplaced : xmodem.placed 0 ([a, b].flatMap byteBits) = crc16XModem data := by
    refine BitVec.eq_of_getLsbD_eq fun i _ => ?_
    rw [← lowBits_checksumValue, ← h, getLsbD_placed_lowBits _ (by decide)]
    by_cases hi : i < 16
    · have hin : 16 ≤ i + 0 + 16 ∧ i + 0 < 16 := by omega
      have hindex : i + 0 + 16 - 16 = i := by omega
      rw [decide_eq_true hin, hindex, Bool.true_and]
    · have hout : ¬(16 ≤ i + 0 + 16 ∧ i + 0 < 16) := by omega
      rw [decide_eq_false hout, Bool.false_and, getLsbD_crc16XModem data (Nat.le_of_not_lt hi)]
  have hlength : ([a, b].flatMap byteBits).length ≤ xmodem.depth := by
    rw [length_flatMap_of_width length_byteBits]
    exact le_rfl
  rw [List.flatMap_append, List.foldl_append, ← crc16XModem_eq, xmodem.foldl_feed hlength, hplaced, BitVec.xor_self]
  exact Function.iterate_fixed xmodem.shift_zero _

/-- A valid key empties the register, with the bits that are left over after its bytes. -/
theorem foldl_valid {input : Text} {decoded : StrKeyDecoded} (hdecode : decodeStrKey input = .ok decoded)
    (hvalid : decoded.valid = true) : ((trim input).flatMap charBits).foldl xmodem.feed 0 = 0 := by
  obtain ⟨version, payload, a, b, hraw, rfl⟩ := decodeStrKey_eq_ok hdecode
  have hchecksum : crc16XModem (version :: payload) = checksumValue [a, b] := by
    rw [strKeyParts_eq] at hvalid
    simp only [Bool.and_eq_true, decide_eq_true_eq] at hvalid
    exact hvalid.1.2
  obtain ⟨output, tail, -, hsplit, -, hunique⟩ :=
    base32DecodeFrom_spec (trim input) 0 0 (by decide) (mem_of_base32DecodeFrom hraw)
  obtain ⟨rfl, hzero⟩ := hunique _ hraw
  rw [lowBits, List.nil_append] at hsplit
  rw [hsplit, List.foldl_append, foldl_checksummed hchecksum, hzero]
  exact xmodem.foldl_replicate _

end Streams

/-- Three adjacent characters of a valid key cannot be replaced by others so that it stays valid. -/
theorem burst_detected {before old new after : Text} {decoded : StrKeyDecoded}
    (hdecode : decodeStrKey (before ++ old ++ after) = .ok decoded) (hvalid : decoded.valid = true)
    (hthree : old.length ≤ 3) (hlength : old.length = new.length) (hne : old ≠ new)
    (hold : ∀ u ∈ old, u ∈ base32Alphabet) (hnew : ∀ u ∈ new, u ∈ base32Alphabet) :
    ¬∃ changed, decodeStrKey (before ++ new ++ after) = .ok changed ∧ changed.valid = true := by
  rintro ⟨changed, hchanged, hstill⟩
  have hspace {t : Text} (ht : ∀ u ∈ t, u ∈ base32Alphabet) : ∀ u ∈ t, isSpace u = false := by
    have hfin : base32Alphabet.any isSpace = false := by decide
    exact fun u hu => Bool.eq_false_iff.mpr (List.any_eq_false.mp hfin u (ht u hu))
  have holdNe : old ≠ [] := by
    rintro rfl
    exact hne (List.eq_nil_of_length_eq_zero hlength.symm).symm
  have hnewNe : new ≠ [] := fun h => holdNe (List.eq_nil_of_length_eq_zero (by rw [hlength, h]; rfl))
  have hfirst := foldl_valid hdecode hvalid
  have hsecond := foldl_valid hchanged hstill
  rw [trim_append_kept holdNe (hspace hold), List.flatMap_append, List.flatMap_append] at hfirst
  rw [trim_append_kept hnewNe (hspace hnew), List.flatMap_append, List.flatMap_append] at hsecond
  have hbits : (new.flatMap charBits).length = (old.flatMap charBits).length := by
    rw [length_flatMap_of_width length_charBits, length_flatMap_of_width length_charBits, hlength]
  have hfits : (new.flatMap charBits).length ≤ xmodem.depth := by
    rw [length_flatMap_of_width length_charBits]
    show new.length * 5 ≤ 16
    omega
  have hstreams := injective_xmodem.burst_inj hbits hfits injective_xmodem.fits_zero
    (hsecond.trans hfirst.symm)
  exact hne (flatMap_inj length_charBits (fun _ _ => charBits_inj) hnew hold hlength.symm hstreams).symm

/-- The version of a key and two more characters are changed. -/
theorem sample_burst_detected : ¬∃ changed, decodeStrKey (text "CBB" ++ sampleKey.drop 3) = .ok changed ∧ changed.valid = true := by
  obtain ⟨decoded, hdecode, hvalid, -, -⟩ := @decodeStrKey_sample sampleKey (by decide) (by decide)
  have hsplit : [] ++ text "GAA" ++ sampleKey.drop 3 = sampleKey := rfl
  rw [← hsplit] at hdecode
  have hknown {t : Text} (h : t.all base32Alphabet.contains = true) : ∀ u ∈ t, u ∈ base32Alphabet :=
    fun u hu => List.contains_iff_mem.mp (List.all_eq_true.mp h u hu)
  exact @burst_detected [] (text "GAA") (text "CBB") (sampleKey.drop 3) decoded hdecode hvalid (by decide) rfl (by decide)
    (hknown (by decide)) (hknown (by decide))

end Savitools.Web.StrKeyBursts
