import Savitools.Strings.CodeUnits

namespace Strings.Utf8

open Strings.CodeUnits

def utf8Bytes (c : Nat) : List (BitVec 8) :=
  if c < 0x80 then [BitVec.ofNat 8 c]
  else if c < 0x800 then [BitVec.ofNat 8 (0xC0 + c / 64), BitVec.ofNat 8 (0x80 + c % 64)]
  else if c < 0x10000 then
    [BitVec.ofNat 8 (0xE0 + c / 4096), BitVec.ofNat 8 (0x80 + c / 64 % 64), BitVec.ofNat 8 (0x80 + c % 64)]
  else
    [BitVec.ofNat 8 (0xF0 + c / 262144), BitVec.ofNat 8 (0x80 + c / 4096 % 64), BitVec.ofNat 8 (0x80 + c / 64 % 64),
      BitVec.ofNat 8 (0x80 + c % 64)]

/-- The bytes of a code unit that is no half of a pair; a surrogate is replaced. -/
def utf8Unit (u : UInt16) : List (BitVec 8) :=
  utf8Bytes (if isHighSurrogate u || isLowSurrogate u then 0xFFFD else u.toNat)

/-- `new TextEncoder().encode(input)` -/
def textEncode : Text → List (BitVec 8)
  | [] => []
  | [u] => utf8Unit u
  | u :: v :: t =>
      if isHighSurrogate u && isLowSurrogate v then
        utf8Bytes (0x10000 + (u.toNat - 0xD800) * 0x400 + (v.toNat - 0xDC00)) ++ textEncode t
      else utf8Unit u ++ textEncode (v :: t)

/-- The bytes as `%XX`, with capital digits. -/
def percentEncode (bytes : List (BitVec 8)) : Text :=
  bytes.flatMap fun b => unit '%' :: [b.toNat / 16, b.toNat % 16].map ((text "0123456789ABCDEF").getD · 0)

def isUriUnescaped (u : UInt16) : Bool :=
  between 'A' 'Z' u || between 'a' 'z' u || isDigit u || (text "-_.!~*()").contains u || u == 39

/-- `encodeURIComponent(t)`; of half a pair alone it throws. -/
def encodeURIComponent : Text → Option Text
  | [] => some []
  | u :: t =>
      if isUriUnescaped u then (encodeURIComponent t).map (u :: ·)
      else if isLowSurrogate u then none
      else if isHighSurrogate u then
        match t with
        | [] => none
        | v :: t =>
            if isLowSurrogate v then
              (encodeURIComponent t).map
                (percentEncode (utf8Bytes (0x10000 + (u.toNat - 0xD800) * 0x400 + (v.toNat - 0xDC00))) ++ ·)
            else none
      else (encodeURIComponent t).map (percentEncode (utf8Unit u) ++ ·)

theorem encodeURIComponent_append {plain t : Text} (hplain : plain.all isUriUnescaped = true) :
    encodeURIComponent (plain ++ t) = (encodeURIComponent t).map (plain ++ ·) := by
  induction plain with
  | nil => exact Option.map_id'.symm
  | cons u plain ih =>
      rw [List.all_cons, Bool.and_eq_true] at hplain
      rw [List.cons_append, encodeURIComponent.eq_def]
      simp only [if_pos hplain.1, ih hplain.2, Option.map_map]
      rfl

/-- The code units of a code point. -/
def utf16Units (c : Nat) : Text :=
  if c < 0x10000 then [c.toUInt16]
  else [(0xD800 + (c - 0x10000) / 0x400).toUInt16, (0xDC00 + (c - 0x10000) % 0x400).toUInt16]

/-- What is read of a sequence: the bytes that are still to come, the least and the greatest next
one, and the code point so far. -/
structure Sequence where
  needed : Nat
  lower : Nat
  upper : Nat
  point : Nat

/-- The first byte of a sequence, with what it gives by itself. -/
def startSequence (b : Nat) : Text × Option Sequence :=
  if b < 0x80 then (utf16Units b, none)
  else if 0xC2 ≤ b ∧ b ≤ 0xDF then ([], some ⟨1, 0x80, 0xBF, b % 32⟩)
  else if 0xE0 ≤ b ∧ b ≤ 0xEF then
    ([], some ⟨2, if b = 0xE0 then 0xA0 else 0x80, if b = 0xED then 0x9F else 0xBF, b % 16⟩)
  else if 0xF0 ≤ b ∧ b ≤ 0xF4 then
    ([], some ⟨3, if b = 0xF0 then 0x90 else 0x80, if b = 0xF4 then 0x8F else 0xBF, b % 8⟩)
  else ([0xFFFD], none)

def continueSequence (s : Sequence) (b : Nat) : Text × Option Sequence :=
  if b < s.lower ∨ s.upper < b then ([0xFFFD] ++ (startSequence b).1, (startSequence b).2)
  else if s.needed = 1 then (utf16Units (s.point * 64 + b % 64), none)
  else ([], some ⟨s.needed - 1, 0x80, 0xBF, s.point * 64 + b % 64⟩)

def decodeFrom : Option Sequence → List (BitVec 8) → Text
  | none, [] => []
  | some _, [] => [0xFFFD]
  | sequence, b :: bytes =>
      let (units, sequence) := sequence.elim (startSequence b.toNat) (continueSequence · b.toNat)
      units ++ decodeFrom sequence bytes

/-- `toString()` of a buffer. What is no sequence of UTF-8 is replaced. -/
def textDecode (bytes : List (BitVec 8)) : Text := decodeFrom none bytes

def isAscii (u : UInt16) : Bool := u < 128

def asciiByte (u : UInt16) : BitVec 8 := BitVec.ofNat 8 u.toNat

theorem toNat_lt_of_isAscii {u : UInt16} (hu : isAscii u = true) : u.toNat < 128 :=
  UInt16.lt_iff_toNat_lt.mp (of_decide_eq_true hu)

theorem isHighSurrogate_ascii {u : UInt16} (hu : isAscii u = true) : isHighSurrogate u = false := by
  have hlt := toNat_lt_of_isAscii hu
  have hlow : ¬0xD800 ≤ u := fun h => by
    have hge : 0xD800 ≤ u.toNat := UInt16.le_iff_toNat_le.mp h
    omega
  rw [isHighSurrogate, decide_eq_false hlow, Bool.false_and]

theorem utf8Unit_ascii {u : UInt16} (hu : isAscii u = true) : utf8Unit u = [asciiByte u] := by
  have hlt := toNat_lt_of_isAscii hu
  have hlow : ¬0xDC00 ≤ u := fun h => by
    have hge : 0xDC00 ≤ u.toNat := UInt16.le_iff_toNat_le.mp h
    omega
  rw [utf8Unit, isHighSurrogate_ascii hu, isLowSurrogate, decide_eq_false hlow, Bool.false_and, Bool.or_self,
    if_neg Bool.false_ne_true, utf8Bytes, if_pos hlt, asciiByte]

theorem textEncode_ascii {t : Text} (ht : t.all isAscii = true) (rest : Text) :
    textEncode (t ++ rest) = t.map asciiByte ++ textEncode rest := by
  induction t with
  | nil => rfl
  | cons u t ih =>
      rw [List.all_cons, Bool.and_eq_true] at ht
      rw [List.map_cons, List.cons_append, List.cons_append, ← ih ht.2]
      cases t ++ rest with
      | nil => exact utf8Unit_ascii ht.1
      | cons v tail =>
          rw [textEncode, isHighSurrogate_ascii ht.1, Bool.false_and, if_neg Bool.false_ne_true, utf8Unit_ascii ht.1,
            List.singleton_append]

theorem asciiByte_inj {u v : UInt16} (hu : isAscii u = true) (hv : isAscii v = true) (h : asciiByte u = asciiByte v) :
    u = v := by
  have hu := toNat_lt_of_isAscii hu
  have hv := toNat_lt_of_isAscii hv
  have hnat := congrArg BitVec.toNat h
  rw [asciiByte, asciiByte, BitVec.toNat_ofNat, BitVec.toNat_ofNat, Nat.mod_eq_of_lt (by omega),
    Nat.mod_eq_of_lt (by omega)] at hnat
  exact UInt16.toNat_inj.mp hnat

theorem map_asciiByte_inj {t s : Text} (ht : t.all isAscii = true) (hs : s.all isAscii = true)
    (h : t.map asciiByte = s.map asciiByte) : t = s := by
  induction t generalizing s with
  | nil => exact (List.map_eq_nil_iff.mp h.symm).symm
  | cons u t ih =>
      cases s with
      | nil => cases h
      | cons v s =>
          rw [List.all_cons, Bool.and_eq_true] at ht hs
          obtain ⟨hhead, htail⟩ := List.cons.inj h
          rw [asciiByte_inj ht.1 hs.1 hhead, ih ht.2 hs.2 htail]

/-- `toWellFormed()`: half a pair alone is replaced. -/
def wellFormed : Text → Text
  | [] => []
  | [u] => [if isHighSurrogate u || isLowSurrogate u then 0xFFFD else u]
  | u :: v :: t =>
      if isHighSurrogate u && isLowSurrogate v then u :: v :: wellFormed t
      else (if isHighSurrogate u || isLowSurrogate u then 0xFFFD else u) :: wellFormed (v :: t)

section Sequences

variable {c : Nat} (rest : List (BitVec 8))

theorem decodeFrom_start {b : BitVec 8} {units : Text} {sequence : Option Sequence}
    (h : startSequence b.toNat = (units, sequence)) :
    decodeFrom none (b :: rest) = units ++ decodeFrom sequence rest := by
  rw [decodeFrom, Option.elim_none, h]

theorem decodeFrom_more {b : BitVec 8} {s : Sequence} (hlower : s.lower ≤ b.toNat) (hupper : b.toNat ≤ s.upper)
    (hneeded : s.needed ≠ 1) :
    decodeFrom (some s) (b :: rest) =
      decodeFrom (some ⟨s.needed - 1, 0x80, 0xBF, s.point * 64 + b.toNat % 64⟩) rest := by
  rw [decodeFrom, Option.elim_some, continueSequence, if_neg (by omega), if_neg hneeded]
  rfl

theorem decodeFrom_last {b : BitVec 8} {s : Sequence} (hlower : s.lower ≤ b.toNat) (hupper : b.toNat ≤ s.upper)
    (hneeded : s.needed = 1) :
    decodeFrom (some s) (b :: rest) = utf16Units (s.point * 64 + b.toNat % 64) ++ decodeFrom none rest := by
  rw [decodeFrom, Option.elim_some, continueSequence, if_neg (by omega), if_pos hneeded]

theorem byte_toNat {n : Nat} (h : n < 256) : (BitVec.ofNat 8 n).toNat = n := by
  rw [BitVec.toNat_ofNat]
  exact Nat.mod_eq_of_lt h

/-- The sequence of a code point is read back, whatever comes behind it. -/
theorem decodeFrom_utf8Bytes (hlt : c < 0x110000) (hsurrogate : c < 0xD800 ∨ 0xDFFF < c) :
    decodeFrom none (utf8Bytes c ++ rest) = utf16Units c ++ decodeFrom none rest := by
  rw [utf8Bytes]
  split
  next hone =>
    refine decodeFrom_start rest ?_
    rw [byte_toNat (by omega), startSequence, if_pos hone]
  split
  next hone htwo =>
    have hfirst : startSequence (BitVec.ofNat 8 (0xC0 + c / 64)).toNat = ([], some ⟨1, 0x80, 0xBF, c / 64⟩) := by
      rw [byte_toNat (by omega), startSequence, if_neg (by omega), if_pos (by omega), show (0xC0 + c / 64) % 32 = c / 64 by omega]
    have hsecond := byte_toNat (show 0x80 + c % 64 < 256 by omega)
    rw [List.cons_append, List.singleton_append, decodeFrom_start _ hfirst, List.nil_append,
      decodeFrom_last rest (by dsimp only; omega) (by dsimp only; omega) rfl, hsecond,
      show c / 64 * 64 + (0x80 + c % 64) % 64 = c by omega]
  split
  next hone htwo hthree =>
    have hfirst : startSequence (BitVec.ofNat 8 (0xE0 + c / 4096)).toNat =
        ([], some ⟨2, if 0xE0 + c / 4096 = 0xE0 then 0xA0 else 0x80, if 0xE0 + c / 4096 = 0xED then 0x9F else 0xBF, c / 4096⟩) := by
      rw [byte_toNat (by omega), startSequence, if_neg (by omega), if_neg (by omega), if_pos (by omega),
        show (0xE0 + c / 4096) % 16 = c / 4096 by omega]
    have hsecond := byte_toNat (show 0x80 + c / 64 % 64 < 256 by omega)
    have hthird := byte_toNat (show 0x80 + c % 64 < 256 by omega)
    rw [List.cons_append, List.cons_append, List.singleton_append, decodeFrom_start _ hfirst, List.nil_append,
      decodeFrom_more _ (by dsimp only; split <;> omega) (by dsimp only; split <;> omega) (by dsimp only; omega),
      decodeFrom_last rest (by dsimp only; omega) (by dsimp only; omega) rfl, hsecond, hthird,
      show (c / 4096 * 64 + (0x80 + c / 64 % 64) % 64) * 64 + (0x80 + c % 64) % 64 = c by omega]
  next hone htwo hthree =>
    have hfirst : startSequence (BitVec.ofNat 8 (0xF0 + c / 262144)).toNat =
        ([], some ⟨3, if 0xF0 + c / 262144 = 0xF0 then 0x90 else 0x80, if 0xF0 + c / 262144 = 0xF4 then 0x8F else 0xBF,
          c / 262144⟩) := by
      rw [byte_toNat (by omega), startSequence, if_neg (by omega), if_neg (by omega), if_neg (by omega), if_pos (by omega),
        show (0xF0 + c / 262144) % 8 = c / 262144 by omega]
    have hsecond := byte_toNat (show 0x80 + c / 4096 % 64 < 256 by omega)
    have hthird := byte_toNat (show 0x80 + c / 64 % 64 < 256 by omega)
    have hfourth := byte_toNat (show 0x80 + c % 64 < 256 by omega)
    rw [List.cons_append, List.cons_append, List.cons_append, List.singleton_append, decodeFrom_start _ hfirst, List.nil_append,
      decodeFrom_more _ (by dsimp only; split <;> omega) (by dsimp only; split <;> omega) (by dsimp only; omega),
      decodeFrom_more _ (by dsimp only; omega) (by dsimp only; omega) (by dsimp only; omega),
      decodeFrom_last rest (by dsimp only; omega) (by dsimp only; omega) rfl, hsecond, hthird, hfourth,
      show ((c / 262144 * 64 + (0x80 + c / 4096 % 64) % 64) * 64 + (0x80 + c / 64 % 64) % 64) * 64 + (0x80 + c % 64) % 64 = c by
        omega]

end Sequences

theorem high_bounds {u : UInt16} : isHighSurrogate u = true ↔ 0xD800 ≤ u.toNat ∧ u.toNat ≤ 0xDBFF := by
  simp [isHighSurrogate, UInt16.le_iff_toNat_le]

theorem low_bounds {u : UInt16} : isLowSurrogate u = true ↔ 0xDC00 ≤ u.toNat ∧ u.toNat ≤ 0xDFFF := by
  simp [isLowSurrogate, UInt16.le_iff_toNat_le]

theorem decodeFrom_utf8Unit (u : UInt16) (rest : List (BitVec 8)) :
    decodeFrom none (utf8Unit u ++ rest) =
      (if isHighSurrogate u || isLowSurrogate u then 0xFFFD else u) :: decodeFrom none rest := by
  have hlt := u.toNat_lt
  rw [utf8Unit]
  by_cases hhalf : (isHighSurrogate u || isLowSurrogate u) = true
  · rw [if_pos hhalf, if_pos hhalf, decodeFrom_utf8Bytes rest (by omega) (by omega)]
    rfl
  · have hbounds : u.toNat < 0xD800 ∨ 0xDFFF < u.toNat := by
      rw [Bool.or_eq_true, high_bounds, low_bounds] at hhalf
      omega
    rw [if_neg hhalf, if_neg hhalf, decodeFrom_utf8Bytes rest (by omega) hbounds, utf16Units, if_pos (by omega)]
    simp

theorem utf16Units_pair {u v : UInt16} (hu : isHighSurrogate u = true) (hv : isLowSurrogate v = true) :
    utf16Units (0x10000 + (u.toNat - 0xD800) * 0x400 + (v.toNat - 0xDC00)) = [u, v] := by
  have hhigh := high_bounds.mp hu
  have hlow := low_bounds.mp hv
  have hfirst : 0xD800 + (0x10000 + (u.toNat - 0xD800) * 0x400 + (v.toNat - 0xDC00) - 0x10000) / 0x400 = u.toNat := by omega
  have hsecond : 0xDC00 + (0x10000 + (u.toNat - 0xD800) * 0x400 + (v.toNat - 0xDC00) - 0x10000) % 0x400 = v.toNat := by omega
  rw [utf16Units, if_neg (by omega), hfirst, hsecond]
  simp

/-- What is written as UTF-8 is read back, with what is no character replaced. -/
theorem textDecode_textEncode (t : Text) : textDecode (textEncode t) = wellFormed t := by
  rw [textDecode]
  induction t using wellFormed.induct with
  | case1 => rfl
  | case2 u =>
      have hunit := decodeFrom_utf8Unit u []
      rwa [List.append_nil] at hunit
  | case3 u v t hpair ih =>
      have hboth := Bool.and_eq_true_iff.mp hpair
      have hhigh := high_bounds.mp hboth.1
      have hlow := low_bounds.mp hboth.2
      rw [textEncode, if_pos hpair, wellFormed, if_pos hpair, decodeFrom_utf8Bytes _ (by omega) (by omega),
        utf16Units_pair hboth.1 hboth.2, ih]
      rfl
  | case4 u v t hpair ih =>
      rw [textEncode, if_neg hpair, wellFormed, if_neg hpair, decodeFrom_utf8Unit, ih]

theorem wellFormed_cons {u : UInt16} (hu : (isHighSurrogate u || isLowSurrogate u) = false) (t : Text) :
    wellFormed (u :: t) = u :: wellFormed t := by
  cases t with
  | nil =>
      have hsame : (if isHighSurrogate u || isLowSurrogate u then 0xFFFD else u) = u := if_neg (by simp [hu])
      exact congrArg ([·]) hsame
  | cons v t =>
      have hpair : (isHighSurrogate u && isLowSurrogate v) = false := by
        rw [(Bool.or_eq_false_iff.mp hu).1, Bool.false_and]
      rw [wellFormed, hpair, hu]
      rfl

theorem wellFormed_wellFormed (t : Text) : wellFormed (wellFormed t) = wellFormed t := by
  have hreplaced (u : UInt16) : (isHighSurrogate (if isHighSurrogate u || isLowSurrogate u then 0xFFFD else u) ||
      isLowSurrogate (if isHighSurrogate u || isLowSurrogate u then 0xFFFD else u)) = false := by
    by_cases hu : (isHighSurrogate u || isLowSurrogate u) = true
    · rw [if_pos hu]
      decide
    · rw [if_neg hu]
      exact eq_false_of_ne_true hu
  induction t using wellFormed.induct with
  | case1 => rfl
  | case2 u => rw [wellFormed, wellFormed_cons (hreplaced u)]; rfl
  | case3 u v t hpair ih => rw [wellFormed, if_pos hpair, wellFormed, if_pos hpair, ih]
  | case4 u v t hpair ih => rw [wellFormed, if_neg hpair, wellFormed_cons (hreplaced u), ih]

end Strings.Utf8
