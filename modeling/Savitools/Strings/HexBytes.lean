import Mathlib.Data.List.GetD
import Savitools.Strings.CodeUnits

namespace Strings.HexBytes

open Strings.CodeUnits

/-- `Buffer.from(t, 'hex')`: up to the first two units that are not two digits. -/
def hexBytes : Text → List (BitVec 8)
  | u :: v :: t =>
      if isHexDigit u && isHexDigit v then BitVec.ofNat 8 (hexValue [u, v]) :: hexBytes t else []
  | _ => []

/-- `toString('hex')` -/
def bytesHex (bytes : List (BitVec 8)) : Text :=
  bytes.flatMap fun b => [hexDigit (b.toNat / 16), hexDigit (b.toNat % 16)]

theorem hexDigit_facts : ∀ n < 16, isHexDigit (hexDigit n) = true ∧ hexDigitValue (hexDigit n) = n ∧
    isLowerHex (hexDigit n) = true := by decide

theorem exists_hexDigit {u : UInt16} (hu : isLowerHex u = true) : ∃ n < 16, u = hexDigit n := by
  have hmem : u ∈ hexDigits := by
    simp only [isLowerHex, isDigit, between, Bool.or_eq_true, Bool.and_eq_true, decide_eq_true_eq,
      UInt16.le_iff_toNat_le] at hu
    rcases hu with ⟨hlo, hhi⟩ | ⟨hlo, hhi⟩
    · have hlo : 48 ≤ u.toNat := hlo
      have hhi : u.toNat ≤ 57 := hhi
      have hall : ∀ n < 10, UInt16.ofNat (48 + n) ∈ hexDigits := by decide
      have hu := hall (u.toNat - 48) (by omega)
      rwa [Nat.add_sub_of_le hlo, UInt16.ofNat_toNat] at hu
    · have hlo : 97 ≤ u.toNat := hlo
      have hhi : u.toNat ≤ 102 := hhi
      have hall : ∀ n < 6, UInt16.ofNat (97 + n) ∈ hexDigits := by decide
      have hu := hall (u.toNat - 97) (by omega)
      rwa [Nat.add_sub_of_le hlo, UInt16.ofNat_toNat] at hu
  have hidx := List.idxOf_lt_length_of_mem hmem
  refine ⟨hexDigits.idxOf u, hidx, ?_⟩
  rw [hexDigit, List.getD_eq_getElem _ _ hidx, List.getElem_idxOf hidx]

theorem hexBytes_pair {m n : Nat} (hm : m < 16) (hn : n < 16) (t : Text) :
    hexBytes (hexDigit m :: hexDigit n :: t) = BitVec.ofNat 8 (16 * m + n) :: hexBytes t := by
  obtain ⟨hmhex, hmvalue, -⟩ := hexDigit_facts m hm
  obtain ⟨hnhex, hnvalue, -⟩ := hexDigit_facts n hn
  have hvalue : hexValue [hexDigit m, hexDigit n] = 16 * m + n := by
    rw [hexValue, List.foldl_cons, List.foldl_cons, List.foldl_nil, hmvalue, hnvalue, Nat.mul_zero, Nat.zero_add]
  rw [hexBytes, hmhex, hnhex, hvalue, Bool.and_self, if_pos rfl]

theorem hexBytes_bytesHex (bytes : List (BitVec 8)) : hexBytes (bytesHex bytes) = bytes := by
  induction bytes with
  | nil => rfl
  | cons b bytes ih =>
      have hb : b.toNat / 16 < 16 := by
        have := b.isLt
        omega
      rw [bytesHex, List.flatMap_cons]
      calc
        hexBytes ([hexDigit (b.toNat / 16), hexDigit (b.toNat % 16)] ++ bytesHex bytes) =
            BitVec.ofNat 8 (16 * (b.toNat / 16) + b.toNat % 16) :: hexBytes (bytesHex bytes) :=
          hexBytes_pair hb (Nat.mod_lt _ (by decide)) _
        _ = b :: bytes := by rw [ih, Nat.div_add_mod, BitVec.ofNat_toNat, BitVec.setWidth_eq]

theorem bytesHex_inj {bytes other : List (BitVec 8)} (h : bytesHex bytes = bytesHex other) : bytes = other := by
  rw [← hexBytes_bytesHex bytes, h, hexBytes_bytesHex]

theorem bytesHex_hexBytes {k : Nat} : ∀ {t : Text}, t.length = 2 * k → t.all isLowerHex = true →
    bytesHex (hexBytes t) = t := by
  induction k with
  | zero =>
      intro t hlength _
      obtain rfl := List.length_eq_zero_iff.mp hlength
      rfl
  | succ k ih =>
      intro t hlength hall
      match t with
      | [] => simp at hlength
      | [u] =>
          rw [List.length_singleton] at hlength
          omega
      | u :: v :: t =>
          simp only [List.all_cons, Bool.and_eq_true] at hall
          obtain ⟨m, hm, rfl⟩ := exists_hexDigit hall.1
          obtain ⟨n, hn, rfl⟩ := exists_hexDigit hall.2.1
          have hbyte : (BitVec.ofNat 8 (16 * m + n)).toNat = 16 * m + n := by
            rw [BitVec.toNat_ofNat, Nat.mod_eq_of_lt (by omega)]
          have hrest : bytesHex (hexBytes t) = t := ih (by simpa [Nat.mul_add] using hlength) hall.2.2
          rw [hexBytes_pair hm hn, bytesHex, List.flatMap_cons, hbyte]
          calc
            [hexDigit ((16 * m + n) / 16), hexDigit ((16 * m + n) % 16)] ++ bytesHex (hexBytes t) =
                [hexDigit m, hexDigit n] ++ t := by
              rw [hrest, show (16 * m + n) / 16 = m by omega, show (16 * m + n) % 16 = n by omega]
            _ = hexDigit m :: hexDigit n :: t := rfl

theorem all_bytesHex (bytes : List (BitVec 8)) : (bytesHex bytes).all isLowerHex = true := by
  rw [bytesHex, List.all_flatMap, List.all_eq_true]
  intro b _
  have hb : b.toNat / 16 < 16 := by
    have := b.isLt
    omega
  simp [(hexDigit_facts _ hb).2.2, (hexDigit_facts _ (Nat.mod_lt b.toNat (by decide : 0 < 16))).2.2]

theorem length_bytesHex (bytes : List (BitVec 8)) : (bytesHex bytes).length = 2 * bytes.length := by
  induction bytes with
  | nil => rfl
  | cons b bytes ih =>
      rw [bytesHex, List.flatMap_cons, List.length_append, ← bytesHex, ih]
      simp only [List.length_cons, List.length_nil]
      omega

end Strings.HexBytes
