import Mathlib.Algebra.Group.Nat.Defs
import Savitools.Bits.Groups
import Savitools.Web.StrKey

namespace Savitools.Web.Base32Groups

open Strings.CodeUnits Bits.Groups StrKey

/-- The five bits that a character of the alphabet stands for. -/
def charBits (u : UInt16) : List Bool := lowBits (base32Alphabet.idxOf u).testBit 5

def byteBits (b : Byte) : List Bool := lowBits b.getLsbD 8

theorem length_charBits (u : UInt16) : (charBits u).length = 5 := length_lowBits _ _

theorem length_byteBits (b : Byte) : (byteBits b).length = 8 := length_lowBits _ _

theorem idxOf_lt {u : UInt16} (hu : u ∈ base32Alphabet) : base32Alphabet.idxOf u < 2 ^ 5 := by
  have hlength : base32Alphabet.length = 2 ^ 5 := by decide
  exact hlength ▸ List.idxOf_lt_length_of_mem hu

theorem charBits_inj {u v : UInt16} (hu : u ∈ base32Alphabet) (hv : v ∈ base32Alphabet)
    (h : charBits u = charBits v) : u = v := by
  apply (List.idxOf_inj hu).mp
  apply Nat.eq_of_testBit_eq
  intro i
  by_cases hi : i < 5
  · exact eq_of_lowBits h i hi
  · have hhigh : ∀ w ∈ base32Alphabet, (base32Alphabet.idxOf w).testBit i = false := fun w hw =>
      Nat.testBit_lt_two_pow ((idxOf_lt hw).trans_le (Nat.pow_le_pow_right (by decide) (Nat.le_of_not_lt hi)))
    rw [hhigh u hu, hhigh v hv]

theorem byteBits_inj (a b : Byte) (h : byteBits a = byteBits b) : a = b :=
  BitVec.eq_of_getLsbD_eq (fun i hi => eq_of_lowBits h i hi)

theorem base32Char_mem {v : BitVec 32} (hv : v.toNat < 32) : base32Char v ∈ base32Alphabet := by
  have hfin : ∀ n < 32, base32Alphabet.getD n 0 ∈ base32Alphabet := by decide
  exact hfin _ hv

theorem charBits_base32Char {v : BitVec 32} (hv : v.toNat < 32) : charBits (base32Char v) = lowBits v.getLsbD 5 := by
  have hfin : ∀ n < 32, base32Alphabet.idxOf (base32Alphabet.getD n 0) = n := by decide
  rw [charBits, base32Char, hfin _ hv]
  rfl

theorem base32Lookup_of_mem {u : UInt16} (hu : u ∈ base32Alphabet) :
    ∃ v : BitVec 32, base32Lookup u = some v ∧ lowBits v.getLsbD 5 = charBits u ∧ v.toNat < 32 := by
  have hlt := idxOf_lt hu
  have hlookup : base32Lookup u = some (BitVec.ofNat 32 (base32Alphabet.idxOf u)) := by
    obtain ⟨i, hi⟩ := Option.isSome_iff_exists.mp (List.isSome_idxOf?.mpr hu)
    have hindex : base32Alphabet.idxOf u = i := by rw [List.idxOf_eq_getD_idxOf?, hi, Option.getD_some]
    rw [base32Lookup, hi, hindex, Option.map_some]
  have hnat : (BitVec.ofNat 32 (base32Alphabet.idxOf u)).toNat = base32Alphabet.idxOf u := by
    rw [BitVec.toNat_ofNat, Nat.mod_eq_of_lt (by omega)]
  refine ⟨_, hlookup, ?_, by omega⟩
  refine lowBits_congr (fun i _ => ?_)
  rw [BitVec.getLsbD, hnat]

theorem mem_of_base32Lookup {u : UInt16} {v : BitVec 32} (h : base32Lookup u = some v) : u ∈ base32Alphabet := by
  by_contra hu
  rw [base32Lookup, List.idxOf?_eq_none_iff.mpr hu] at h
  cases h

theorem toNat_and_31 (v : BitVec 32) : (v &&& 0x1f).toNat < 32 := by
  rw [BitVec.toNat_and]
  exact Nat.lt_of_le_of_lt Nat.and_le_right (by decide)

theorem getLsbD_and_31 (v : BitVec 32) {i : Nat} (hi : i < 5) : (v &&& 0x1f).getLsbD i = v.getLsbD i := by
  have hmask : ∀ i < 5, (0x1f : BitVec 32).getLsbD i = true := by decide
  rw [BitVec.getLsbD_and, hmask i hi, Bool.and_true]

/-- Shifting a digit of `w` bits into the register, which may lose its high bits. -/
theorem lowBits_push (value digit : BitVec 32) {bits w : Nat} (hfits : bits + w ≤ 32) (hdigit : digit.toNat < 2 ^ w) :
    lowBits ((value <<< w) ||| digit).getLsbD (bits + w) = lowBits value.getLsbD bits ++ lowBits digit.getLsbD w := by
  rw [lowBits_add]
  congr 1
  · refine lowBits_congr (fun i hi => ?_)
    have hclear : digit.getLsbD (i + w) = false :=
      Nat.testBit_lt_two_pow (Nat.lt_of_lt_of_le hdigit (Nat.pow_le_pow_right (by decide) (Nat.le_add_left w i)))
    have hin : i + w < 32 := by omega
    have hhigh : ¬i + w < w := by omega
    rw [BitVec.getLsbD_or, BitVec.getLsbD_shiftLeft, hclear, Bool.or_false, decide_eq_true hin, decide_eq_false hhigh,
      Bool.not_false, Bool.true_and, Bool.true_and, Nat.add_sub_cancel]
  · refine lowBits_congr (fun i hi => ?_)
    rw [BitVec.getLsbD_or, BitVec.getLsbD_shiftLeft, decide_eq_true hi, Bool.not_true, Bool.and_false,
      Bool.false_and, Bool.false_or]

theorem lowBits_shiftRight (value : BitVec 32) (bits w : Nat) :
    lowBits value.getLsbD (bits + w) = lowBits (value >>> bits).getLsbD w ++ lowBits value.getLsbD bits := by
  rw [Nat.add_comm, lowBits_add]
  congr 1
  refine lowBits_congr (fun i _ => ?_)
  rw [BitVec.getLsbD_ushiftRight, Nat.add_comm]

theorem charBits_group (value : BitVec 32) : charBits (base32Char (value &&& 0x1f)) = lowBits value.getLsbD 5 := by
  rw [charBits_base32Char (toNat_and_31 value)]
  exact lowBits_congr (fun i hi => getLsbD_and_31 value hi)

theorem byteBits_group (value : BitVec 32) : byteBits ((value &&& 0xff).setWidth 8) = lowBits value.getLsbD 8 := by
  have hmask : ∀ i < 8, (0xff : BitVec 32).getLsbD i = true := by decide
  refine lowBits_congr (fun i hi => ?_)
  rw [BitVec.getLsbD_setWidth, BitVec.getLsbD_and, hmask i hi, Bool.and_true, decide_eq_true hi, Bool.true_and]

theorem base32Emit_spec (value : BitVec 32) (bits : Nat) :
    (base32Emit value bits).2 < 5 ∧ (∀ u ∈ (base32Emit value bits).1, u ∈ base32Alphabet) ∧
      lowBits value.getLsbD bits =
        (base32Emit value bits).1.flatMap charBits ++ lowBits value.getLsbD (base32Emit value bits).2 := by
  fun_induction base32Emit value bits with
  | case1 bits output left hemit ih =>
      rw [hemit] at ih
      obtain ⟨hleft, hchars, hbits⟩ := ih
      refine ⟨hleft, List.forall_mem_cons.mpr ⟨base32Char_mem (toNat_and_31 _), hchars⟩, ?_⟩
      have hgroup := lowBits_shiftRight value bits 5
      rw [hbits] at hgroup
      refine hgroup.trans ?_
      rw [List.flatMap_cons, charBits_group, List.append_assoc]
  | case2 bits hbits =>
      refine ⟨?_, List.forall_mem_nil _, rfl⟩
      by_contra hle
      exact hbits (bits - 5) (by omega)

theorem base32EncodeFrom_spec (data : List Byte) (bits : Nat) (value : BitVec 32) (hbits : bits < 5) :
    (∀ u ∈ base32EncodeFrom data bits value, u ∈ base32Alphabet) ∧
      ∃ pad < 5, (base32EncodeFrom data bits value).flatMap charBits =
        lowBits value.getLsbD bits ++ data.flatMap byteBits ++ List.replicate pad false := by
  induction data generalizing bits value with
  | nil =>
      rw [base32EncodeFrom]
      split
      next hpos =>
        refine ⟨List.forall_mem_singleton.mpr (base32Char_mem (toNat_and_31 _)), 5 - bits, by omega, ?_⟩
        have hpad : bits + (5 - bits) = 5 := by omega
        have hfits : bits + (5 - bits) ≤ 32 := by omega
        have hpush := lowBits_push value 0#32 hfits (Nat.two_pow_pos _)
        rw [BitVec.or_zero, hpad] at hpush
        rw [List.flatMap_singleton, charBits_group, hpush, List.flatMap_nil, List.append_nil]
        congr 1
        exact lowBits_eq_replicate.mpr (fun i _ => BitVec.getLsbD_zero)
      next hzero =>
        obtain rfl : bits = 0 := by omega
        exact ⟨List.forall_mem_nil _, 0, by decide, rfl⟩
  | cons byte data ih =>
      rw [base32EncodeFrom]
      have hemit := base32Emit_spec ((value <<< 8) ||| byte.setWidth 32) (bits + 8)
      cases he : base32Emit ((value <<< 8) ||| byte.setWidth 32) (bits + 8) with
      | mk output left =>
      rw [he] at hemit
      obtain ⟨hleft, hchars, hgroups⟩ := hemit
      obtain ⟨hrest, pad, hpad, hi⟩ := ih left ((value <<< 8) ||| byte.setWidth 32) hleft
      have hbyte : (byte.setWidth 32).toNat < 2 ^ 8 := by
        rw [BitVec.toNat_setWidth]
        exact Nat.lt_of_le_of_lt (Nat.mod_le _ _) byte.isLt
      have hlow : lowBits (byte.setWidth 32).getLsbD 8 = byteBits byte := by
        refine lowBits_congr (fun i hi => ?_)
        rw [BitVec.getLsbD_setWidth, decide_eq_true (by omega), Bool.true_and]
      rw [lowBits_push value _ (by omega) hbyte, hlow] at hgroups
      refine ⟨List.forall_mem_append.mpr ⟨hchars, hrest⟩, pad, hpad, ?_⟩
      simp only [List.flatMap_append, hi, List.flatMap_cons, ← List.append_assoc, ← hgroups]

theorem padding_eq_zero {value : BitVec 32} {bits : Nat} (hbits : bits < 8) :
    value &&& (((1 : BitVec 32) <<< bits) - 1) = 0 ↔ lowBits value.getLsbD bits = List.replicate bits false := by
  have hmask : ∀ bits < 8, ((1 : BitVec 32) <<< bits) - 1 = BitVec.ofNat 32 (2 ^ bits - 1) := by decide
  have hlow : ∀ i, (BitVec.ofNat 32 (2 ^ bits - 1)).getLsbD i = decide (i < bits) := by
    intro i
    rw [BitVec.getLsbD_ofNat, Nat.testBit_two_pow_sub_one]
    by_cases hi : i < bits
    · rw [decide_eq_true hi, decide_eq_true (by omega), Bool.true_and]
    · rw [decide_eq_false hi, Bool.and_false]
  rw [hmask bits hbits, lowBits_eq_replicate]
  constructor
  · intro hzero i hi
    have hbit := (congrArg (fun v => v.getLsbD i) hzero).trans BitVec.getLsbD_zero
    simpa only [BitVec.getLsbD_and, hlow, decide_eq_true hi, Bool.and_true] using hbit
  · intro hfalse
    refine BitVec.eq_of_getLsbD_eq (fun i _ => ?_)
    rw [BitVec.getLsbD_and, hlow]
    by_cases hi : i < bits
    · rw [hfalse i hi, Bool.false_and]
      exact BitVec.getLsbD_zero.symm
    · rw [decide_eq_false hi, Bool.and_false]
      exact BitVec.getLsbD_zero.symm

theorem map_eq_ok {ε α β : Type*} {f : α → β} {x : Except ε α} {y : β} (h : x.map f = .ok y) :
    ∃ a, x = .ok a ∧ f a = y := by
  cases x with
  | error error => cases h
  | ok a => exact ⟨a, rfl, Except.ok.inj h⟩

theorem mem_of_base32DecodeFrom {input : Text} {bits : Nat} {value : BitVec 32} {output : List Byte}
    (h : base32DecodeFrom input bits value = .ok output) : ∀ u ∈ input, u ∈ base32Alphabet := by
  induction input generalizing bits value output with
  | nil => exact List.forall_mem_nil _
  | cons u rest ih =>
      rw [base32DecodeFrom] at h
      split at h
      next => cases h
      next lookup hlookup =>
        refine List.forall_mem_cons.mpr ⟨mem_of_base32Lookup hlookup, ?_⟩
        simp only at h
        split at h
        next =>
          obtain ⟨others, hothers, -⟩ := map_eq_ok h
          exact ih hothers
        next => exact ih h

theorem base32DecodeFrom_full {u : UInt16} {lookup : BitVec 32} (hlookup : base32Lookup u = some lookup) (rest : Text)
    {bits : Nat} (value : BitVec 32) (hfull : 8 ≤ bits + 5) :
    base32DecodeFrom (u :: rest) bits value =
      (base32DecodeFrom rest (bits + 5 - 8) ((value <<< 5) ||| lookup)).map
        (((((value <<< 5) ||| lookup) >>> (bits + 5 - 8)) &&& 0xff).setWidth 8 :: ·) := by
  rw [base32DecodeFrom, hlookup]
  exact if_pos hfull

theorem base32DecodeFrom_short {u : UInt16} {lookup : BitVec 32} (hlookup : base32Lookup u = some lookup) (rest : Text)
    {bits : Nat} (value : BitVec 32) (hshort : ¬8 ≤ bits + 5) :
    base32DecodeFrom (u :: rest) bits value = base32DecodeFrom rest (bits + 5) ((value <<< 5) ||| lookup) := by
  rw [base32DecodeFrom, hlookup]
  exact if_neg hshort

/-- The end of the input is accepted when no bit is left over but zeros. -/
theorem base32DecodeFrom_nil {bits : Nat} (value : BitVec 32) (hbits : bits < 8) (output : List Byte) :
    base32DecodeFrom [] bits value = .ok output ↔
      output = [] ∧ lowBits value.getLsbD bits = List.replicate (lowBits value.getLsbD bits).length false := by
  have htail : value &&& (((1 : BitVec 32) <<< bits) - 1) = 0 ↔ lowBits value.getLsbD bits = List.replicate bits false :=
    padding_eq_zero hbits
  rw [base32DecodeFrom, length_lowBits]
  split
  next hpad => exact iff_of_false (fun h => by cases h) (fun h => hpad.2 (htail.mpr h.2))
  next hzero =>
    rw [Except.ok.injEq, eq_comm, and_iff_left_of_imp]
    intro _
    rcases Nat.eq_zero_or_pos bits with rfl | hpos
    · rfl
    · exact htail.mp (not_not.mp (fun hne => hzero ⟨hpos, hne⟩))

/-- On the alphabet the decoder splits the bits into bytes and fewer than eight that are
left, which have to be zero. -/
theorem base32DecodeFrom_spec (input : Text) (bits : Nat) (value : BitVec 32) (hbits : bits < 8)
    (hchars : ∀ u ∈ input, u ∈ base32Alphabet) :
    ∃ output tail, tail.length < 8 ∧
      lowBits value.getLsbD bits ++ input.flatMap charBits = output.flatMap byteBits ++ tail ∧
      (tail = List.replicate tail.length false → base32DecodeFrom input bits value = .ok output) ∧
      ∀ output', base32DecodeFrom input bits value = .ok output' →
        output' = output ∧ tail = List.replicate tail.length false := by
  induction input generalizing bits value with
  | nil =>
      refine ⟨[], lowBits value.getLsbD bits, by rw [length_lowBits]; exact hbits, List.append_nil _, ?_, ?_⟩
      · exact fun hzero => (base32DecodeFrom_nil value hbits []).mpr ⟨rfl, hzero⟩
      · exact fun output' h => (base32DecodeFrom_nil value hbits output').mp h
  | cons u rest ih =>
      obtain ⟨lookup, hlookup, hdigit, hlt⟩ := base32Lookup_of_mem (hchars u List.mem_cons_self)
      have hrest : ∀ v ∈ rest, v ∈ base32Alphabet := fun v hv => hchars v (List.mem_cons_of_mem _ hv)
      have hpush := lowBits_push value lookup (show bits + 5 ≤ 32 by omega) hlt
      rw [hdigit] at hpush
      rw [List.flatMap_cons, ← List.append_assoc, ← hpush]
      by_cases hfull : 8 ≤ bits + 5
      · obtain ⟨output, tail, hlength, hsplit, hdecode, hunique⟩ :=
          ih (bits + 5 - 8) ((value <<< 5) ||| lookup) (by omega) hrest
        have hbyte := lowBits_shiftRight ((value <<< 5) ||| lookup) (bits + 5 - 8) 8
        rw [Nat.sub_add_cancel hfull, ← byteBits_group] at hbyte
        rw [base32DecodeFrom_full hlookup rest value hfull]
        refine ⟨_ :: output, tail, hlength, ?_, fun hzero => by rw [hdecode hzero]; rfl, ?_⟩
        · rw [hbyte, List.append_assoc, hsplit, List.flatMap_cons, List.append_assoc]
        · intro output' h
          obtain ⟨others, hothers, rfl⟩ := map_eq_ok h
          obtain ⟨rfl, hzero⟩ := hunique others hothers
          exact ⟨rfl, hzero⟩
      · rw [base32DecodeFrom_short hlookup rest value hfull]
        exact ih (bits + 5) ((value <<< 5) ||| lookup) (by omega) hrest

/-- What the encoder makes of bytes, as a stream of bits. -/
theorem base32Encode_spec (data : List Byte) :
    (∀ u ∈ base32Encode data, u ∈ base32Alphabet) ∧
      ∃ pad < 5, (base32Encode data).flatMap charBits = data.flatMap byteBits ++ List.replicate pad false :=
  base32EncodeFrom_spec data 0 0 (by decide)

theorem length_stream {input : Text} {data : List Byte} {tail : List Bool}
    (h : input.flatMap charBits = data.flatMap byteBits ++ tail) : input.length * 5 = data.length * 8 + tail.length := by
  have hlength := congrArg List.length h
  rwa [List.length_append, length_flatMap_of_width length_charBits, length_flatMap_of_width length_byteBits] at hlength

theorem bytes_inj {xs ys : List Byte} (hlength : xs.length = ys.length)
    (h : xs.flatMap byteBits = ys.flatMap byteBits) : xs = ys :=
  flatMap_inj (P := fun _ => True) length_byteBits (fun a b _ _ => byteBits_inj a b) (fun _ _ => trivial)
    (fun _ _ => trivial) hlength h

theorem base32Decode_base32Encode (data : List Byte) : base32Decode (base32Encode data) = .ok data := by
  obtain ⟨hchars, pad, hpad, hencoded⟩ := base32Encode_spec data
  obtain ⟨output, tail, htail, hsplit, hdecode, -⟩ := base32DecodeFrom_spec (base32Encode data) 0 0 (by decide) hchars
  rw [lowBits, List.nil_append] at hsplit
  have hdata := length_stream hencoded
  have houtput := length_stream hsplit
  rw [List.length_replicate] at hdata
  obtain ⟨hbytes, hzero⟩ := List.append_inj (hencoded.symm.trans hsplit)
    (by rw [length_flatMap_of_width length_byteBits, length_flatMap_of_width length_byteBits]; omega)
  obtain rfl : data = output := bytes_inj (by omega) hbytes
  exact hdecode (by rw [← hzero, List.length_replicate])

/-- The text that was decoded is what the encoder makes of the bytes exactly when fewer
than five bits were left over. -/
theorem base32Encode_eq_iff {input : Text} {data : List Byte} (h : base32Decode input = .ok data) :
    base32Encode data = input ↔ input.length * 5 % 8 < 5 := by
  have hinput := mem_of_base32DecodeFrom h
  obtain ⟨output, tail, htail, hsplit, -, hunique⟩ := base32DecodeFrom_spec input 0 0 (by decide) hinput
  rw [lowBits, List.nil_append] at hsplit
  obtain ⟨rfl, hzero⟩ := hunique data h
  obtain ⟨hchars, pad, hpad, hencoded⟩ := base32Encode_spec data
  have hleft := length_stream hsplit
  have hright := length_stream hencoded
  rw [List.length_replicate] at hright
  constructor
  · intro heq
    rw [heq] at hright
    rw [hright, Nat.mul_add_mod_of_lt (Nat.lt_trans hpad (by decide))]
    exact hpad
  · intro hlt
    rw [hleft, Nat.mul_add_mod_of_lt htail] at hlt
    -- Both paddings are shorter than a group, so the numbers of groups agree.
    generalize data.length * 8 = bits at hleft hright
    have htail : tail = List.replicate pad false := by
      rw [hzero]
      congr 1
      omega
    refine flatMap_inj length_charBits (fun a b => charBits_inj) hchars hinput (by omega) ?_
    rw [hencoded, hsplit, htail]

end Savitools.Web.Base32Groups

namespace Savitools.Web.StrKeyTexts

open Strings.CodeUnits Bits.Groups StrKey Base32Groups

theorem strKeyVersion_of_versionToType {version : Byte} {type : StrKeyType} (h : versionToType version = some type) :
    strKeyVersion type = version := by
  obtain ⟨before, after, hlist, -⟩ := List.lookup_eq_some_iff.mp h
  have hmem : (version, type) ∈ before ++ (version, type) :: after := List.mem_append_right _ List.mem_cons_self
  rw [← hlist] at hmem
  simp only [List.mem_cons, Prod.mk.injEq, List.not_mem_nil, or_false] at hmem
  rcases hmem with ⟨rfl, rfl⟩ | ⟨rfl, rfl⟩ | ⟨rfl, rfl⟩ | ⟨rfl, rfl⟩ | ⟨rfl, rfl⟩ | ⟨rfl, rfl⟩ | ⟨rfl, rfl⟩ <;> rfl

theorem versionToType_strKeyVersion (type : StrKeyType) :
    ∃ canonical, versionToType (strKeyVersion type) = some canonical ∧
      strKeyVersion canonical = strKeyVersion type ∧ strKeyPayloadLength canonical = strKeyPayloadLength type := by
  cases type <;> exact ⟨_, rfl, rfl, rfl⟩

def checksumBytes (checksum : BitVec 32) : List Byte :=
  [((checksum >>> 8) &&& 0xff).setWidth 8, (checksum &&& 0xff).setWidth 8]

theorem lowBits_setWidth (b : Byte) : lowBits (b.setWidth 32).getLsbD 8 = byteBits b := by
  refine lowBits_congr (fun i hi => ?_)
  rw [BitVec.getLsbD_setWidth, decide_eq_true (by omega), Bool.true_and]

theorem lowBits_checksumValue (a b : Byte) :
    lowBits (checksumValue [a, b]).getLsbD 16 = [a, b].flatMap byteBits := by
  have hb : (b.setWidth 32).toNat < 2 ^ 8 := by
    rw [BitVec.toNat_setWidth]
    exact Nat.lt_of_le_of_lt (Nat.mod_le _ _) b.isLt
  rw [List.flatMap_cons, List.flatMap_singleton, ← lowBits_setWidth, ← lowBits_setWidth]
  exact lowBits_push _ _ (by decide) hb

theorem lowBits_checksumBytes (checksum : BitVec 32) :
    (checksumBytes checksum).flatMap byteBits = lowBits checksum.getLsbD 16 := by
  have hsplit := lowBits_shiftRight checksum 8 8
  rw [← byteBits_group, ← byteBits_group] at hsplit
  rw [hsplit, checksumBytes, List.flatMap_cons, List.flatMap_singleton]

theorem getLsbD_checksumValue (a b : Byte) {i : Nat} (hi : 16 ≤ i) : (checksumValue [a, b]).getLsbD i = false := by
  have ha : a.getLsbD (i - 8) = false := BitVec.getLsbD_of_ge _ _ (by omega)
  have hb : b.getLsbD i = false := BitVec.getLsbD_of_ge _ _ (by omega)
  rw [checksumValue, BitVec.getLsbD_or, BitVec.getLsbD_shiftLeft, BitVec.getLsbD_setWidth, BitVec.getLsbD_setWidth, ha,
    hb]
  simp

theorem getLsbD_crc16XModem (data : List Byte) {i : Nat} (hi : 16 ≤ i) : (crc16XModem data).getLsbD i = false := by
  have hmask : (0xffff : BitVec 32).getLsbD i = false :=
    Nat.testBit_lt_two_pow (Nat.lt_of_lt_of_le (by decide) (Nat.pow_le_pow_right (by decide) hi))
  rw [crc16XModem, BitVec.getLsbD_and, hmask, Bool.and_false]

/-- The two bytes of a checksum read back as the checksum, and only they do. -/
theorem checksum_eq_iff (data : List Byte) (a b : Byte) :
    crc16XModem data = checksumValue [a, b] ↔ checksumBytes (crc16XModem data) = [a, b] := by
  constructor
  · intro h
    refine bytes_inj rfl ?_
    rw [lowBits_checksumBytes, ← lowBits_checksumValue, h]
  · intro h
    have hbits : lowBits (crc16XModem data).getLsbD 16 = lowBits (checksumValue [a, b]).getLsbD 16 := by
      rw [lowBits_checksumValue, ← h, lowBits_checksumBytes]
    refine BitVec.eq_of_getLsbD_eq (fun i _ => ?_)
    by_cases hi : i < 16
    · exact eq_of_lowBits hbits i hi
    · rw [getLsbD_crc16XModem data (Nat.le_of_not_lt hi), getLsbD_checksumValue a b (Nat.le_of_not_lt hi)]

/-- The parts of a version byte, a payload and two checksum bytes. -/
theorem strKeyParts_eq (input : Text) (version : Byte) (payload : List Byte) (a b : Byte) :
    strKeyParts input version (version :: payload ++ [a, b]) =
      { input := input
        type := versionToType version
        label := ((versionToType version).map strKeyLabel).getD
          (text "Unsupported version byte 0x" ++ bytesToHex [version])
        versionByte := version
        payload := payload
        payloadLength := payload.length
        payloadHex := bytesToHex payload
        payloadBase64 := bytesToBase64 payload
        checksum := bytesToHex [a, b]
        checksumValid := crc16XModem (version :: payload) = checksumValue [a, b]
        payloadLengthValid := (versionToType version).all (fun type => payload.length = strKeyPayloadLength type)
        valid := (versionToType version).isSome && crc16XModem (version :: payload) = checksumValue [a, b] &&
          (versionToType version).all (fun type => payload.length = strKeyPayloadLength type) } := by
  have hlength : (version :: payload ++ [a, b]).length - 2 = (version :: payload).length := by simp
  rw [strKeyParts, hlength, List.take_left, List.drop_left]
  rfl

/-- What decodes has a version byte, a payload and two checksum bytes. -/
theorem decodeStrKey_eq_ok {input : Text} {decoded : StrKeyDecoded} (h : decodeStrKey input = .ok decoded) :
    ∃ version payload a b, base32Decode (trim input) = .ok (version :: payload ++ [a, b]) ∧
      decoded = strKeyParts (trim input) version (version :: payload ++ [a, b]) := by
  rw [decodeStrKey] at h
  split at h
  next => cases h
  next =>
    split at h
    next => cases h
    next version x y rest hraw =>
      obtain ⟨front, b, hfront⟩ := (List.eq_nil_or_concat' (x :: y :: rest)).resolve_left (List.cons_ne_nil _ _)
      obtain rfl | ⟨payload, a, rfl⟩ := List.eq_nil_or_concat' front
      · simp at hfront
      · rw [hfront, List.append_assoc] at hraw h
        exact ⟨version, payload, a, b, hraw, (Except.ok.inj h).symm⟩
    next => cases h

theorem decodeStrKey_of_base32Decode {input : Text} {version : Byte} {payload : List Byte} {a b : Byte}
    (hne : trim input ≠ []) (hraw : base32Decode (trim input) = .ok (version :: payload ++ [a, b])) :
    decodeStrKey input = .ok (strKeyParts (trim input) version (version :: payload ++ [a, b])) := by
  rw [decodeStrKey, if_neg hne, hraw]
  cases payload with
  | nil => rfl
  | cons p payload =>
      cases payload <;> rfl

theorem encodeStrKey_eq {type : StrKeyType} {payload : List Byte} (h : payload.length = strKeyPayloadLength type) :
    encodeStrKey type payload = .ok (base32Encode
      (strKeyVersion type :: payload ++ checksumBytes (crc16XModem (strKeyVersion type :: payload)))) :=
  if_neg (not_not.mpr h)

theorem encodeStrKey_eq_ok {type : StrKeyType} {payload : List Byte} {s : Text}
    (h : encodeStrKey type payload = .ok s) : ∃ data, base32Encode data = s := by
  rw [encodeStrKey] at h
  split at h
  next => cases h
  next => exact ⟨_, Except.ok.inj h⟩

theorem valid_strKeyParts {input : Text} {version : Byte} {payload : List Byte} {a b : Byte} {type : StrKeyType}
    (htype : versionToType version = some type) :
    (strKeyParts input version (version :: payload ++ [a, b])).valid = true ↔
      checksumBytes (crc16XModem (version :: payload)) = [a, b] ∧ payload.length = strKeyPayloadLength type := by
  rw [strKeyParts_eq, ← checksum_eq_iff]
  simp [htype]

/-- A valid text is what the encoder makes of its type and payload exactly when fewer than
five bits are left over after its bytes; any other valid text is no output of the encoder. -/
theorem strKey_canonical_iff {input : Text} {decoded : StrKeyDecoded} {type : StrKeyType}
    (hdecode : decodeStrKey input = .ok decoded) (hvalid : decoded.valid = true) (htype : decoded.type = some type) :
    (encodeStrKey type decoded.payload = .ok (trim input) ↔ (trim input).length * 5 % 8 < 5) ∧
      ((∃ type payload, encodeStrKey type payload = .ok (trim input)) ↔ (trim input).length * 5 % 8 < 5) := by
  obtain ⟨version, payload, a, b, hraw, rfl⟩ := decodeStrKey_eq_ok hdecode
  have hparts := strKeyParts_eq (trim input) version payload a b
  have hversion : versionToType version = some type := by
    rw [hparts] at htype
    exact htype
  have hpayload : (strKeyParts (trim input) version (version :: payload ++ [a, b])).payload = payload := by
    rw [hparts]
  obtain ⟨hchecksum, hlength⟩ := (valid_strKeyParts hversion).mp hvalid
  have hencode : encodeStrKey type payload = .ok (base32Encode (version :: payload ++ [a, b])) := by
    rw [encodeStrKey_eq hlength, strKeyVersion_of_versionToType hversion, hchecksum]
  have hcanonical := base32Encode_eq_iff hraw
  refine ⟨?_, ?_, fun h => ⟨type, payload, ?_⟩⟩
  · rw [hpayload, hencode, Except.ok.injEq]
    exact hcanonical
  · rintro ⟨type', payload', h⟩
    obtain ⟨data, hdata⟩ := encodeStrKey_eq_ok h
    have hback := base32Decode_base32Encode data
    rw [hdata] at hback
    exact (base32Encode_eq_iff hback).mp hdata
  · rw [hencode, hcanonical.mpr h]

/-- The bytes of a key whose payload is 32 times the byte 1. -/
def sampleRaw : List Byte := 48 :: List.replicate 32 1 ++ [0xe7, 0xe7]

def sampleKey : Text := text "GAAQCAIBAEAQCAIBAEAQCAIBAEAQCAIBAEAQCAIBAEAQCAIBAEAQDZ7H"

theorem decodeStrKey_sample {input : Text} (hne : trim input ≠ []) (hraw : base32Decode (trim input) = .ok sampleRaw) :
    ∃ decoded, decodeStrKey input = .ok decoded ∧ decoded.valid = true ∧ decoded.type = some .ed25519PublicKey ∧
      decoded.payload = List.replicate 32 1 := by
  refine ⟨_, decodeStrKey_of_base32Decode hne hraw, (valid_strKeyParts rfl).mpr ⟨by decide +kernel, rfl⟩, rfl, ?_⟩
  rw [strKeyParts_eq]

theorem strKey_canonical_iff_sample : encodeStrKey .ed25519PublicKey (List.replicate 32 1) = .ok sampleKey := by
  obtain ⟨decoded, hdecode, hvalid, htype, hpayload⟩ :=
    @decodeStrKey_sample sampleKey (by decide) (by decide)
  have htrim : trim sampleKey = sampleKey := by decide
  rw [← hpayload, ← htrim]
  exact (strKey_canonical_iff hdecode hvalid htype).1.mpr (by decide)

/-- A key with one more zero digit is still valid. -/
theorem strKey_not_canonical :
    ¬∀ input decoded type, decodeStrKey input = .ok decoded → decoded.valid = true → decoded.type = some type →
      encodeStrKey type decoded.payload = .ok (trim input) := by
  intro h
  obtain ⟨decoded, hdecode, hvalid, htype, hpayload⟩ :=
    @decodeStrKey_sample (sampleKey ++ [unit 'A']) (by decide) (by decide +kernel)
  have hencode := h _ _ _ hdecode hvalid htype
  rw [hpayload] at hencode
  exact absurd hencode (by decide +kernel)

/-- What is encoded decodes to its payload, whatever white space is around it. -/
theorem decodeStrKey_encoded (type : StrKeyType) (payload : List Byte) (hlength : payload.length = strKeyPayloadLength type) :
    ∃ s canonical, encodeStrKey type payload = .ok s ∧ versionToType (strKeyVersion type) = some canonical ∧
      strKeyVersion canonical = strKeyVersion type ∧
      ∀ before after, (∀ u ∈ before, isSpace u = true) → (∀ u ∈ after, isSpace u = true) →
        ∃ decoded, decodeStrKey (before ++ s ++ after) = .ok decoded ∧ decoded.valid = true ∧
          decoded.type = some canonical ∧ decoded.payload = payload := by
  obtain ⟨canonical, htype, hversion, hsame⟩ := versionToType_strKeyVersion type
  refine ⟨_, canonical, encodeStrKey_eq hlength, htype, hversion, fun before after hbefore hafter => ?_⟩
  generalize hraw : strKeyVersion type :: payload ++ checksumBytes (crc16XModem (strKeyVersion type :: payload)) = raw
  have hdecode := base32Decode_base32Encode raw
  have hspace : ∀ u ∈ base32Encode raw, isSpace u = false := by
    have hfin : base32Alphabet.any isSpace = false := by decide
    exact fun u hu => Bool.eq_false_iff.mpr (List.any_eq_false.mp hfin u ((base32Encode_spec raw).1 u hu))
  have hne : base32Encode raw ≠ [] := by
    intro hnil
    rw [hnil, ← hraw] at hdecode
    cases hdecode
  have htrim := trim_append hbefore hafter hne hspace
  rw [← htrim] at hdecode
  subst hraw
  refine ⟨_, decodeStrKey_of_base32Decode (htrim.symm ▸ hne) hdecode, ?_, ?_, ?_⟩
  · exact (valid_strKeyParts htype).mpr ⟨rfl, hlength.trans hsame.symm⟩
  · rw [strKeyParts_eq]
    exact htype
  · rw [strKeyParts_eq]

/-- Decoding gives back what was encoded, with the type that stands for its version byte. -/
theorem strKey_round_trip :
    (∀ data, base32Decode (base32Encode data) = .ok data) ∧
      ∀ type payload, payload.length = strKeyPayloadLength type →
        ∃ s canonical, encodeStrKey type payload = .ok s ∧ versionToType (strKeyVersion type) = some canonical ∧
          strKeyVersion canonical = strKeyVersion type ∧
          ∀ before after, (∀ u ∈ before, isSpace u = true) → (∀ u ∈ after, isSpace u = true) →
            ∃ decoded, decodeStrKey (before ++ s ++ after) = .ok decoded ∧ decoded.valid = true ∧
              decoded.type = some canonical ∧ decoded.payload = payload :=
  ⟨base32Decode_base32Encode, decodeStrKey_encoded⟩

end Savitools.Web.StrKeyTexts
