import Mathlib.Data.List.TakeWhile
import Savitools.Strings.CodeUnits

namespace Strings.Base64

open Strings.CodeUnits

def base64Alphabet : Text := text "ABCDEFGHIJKLMNOPQRSTUVWXYZabcdefghijklmnopqrstuvwxyz0123456789+/"

def base64Char (n : Nat) : UInt16 := base64Alphabet.getD n 0

/-- The characters of the URL alphabet stand for the same values. -/
def base64Value (u : UInt16) : Option Nat :=
  if u = unit '-' then some 62 else if u = unit '_' then some 63 else base64Alphabet.idxOf? u

/-- `toString('base64')` -/
def toBase64 : List (BitVec 8) → Text
  | [] => []
  | [a] => [base64Char (a.toNat / 4), base64Char (a.toNat % 4 * 16), unit '=', unit '=']
  | [a, b] =>
      [base64Char (a.toNat / 4), base64Char (a.toNat % 4 * 16 + b.toNat / 16), base64Char (b.toNat % 16 * 4), unit '=']
  | a :: b :: c :: rest =>
      base64Char (a.toNat / 4) :: base64Char (a.toNat % 4 * 16 + b.toNat / 16) ::
        base64Char (b.toNat % 16 * 4 + c.toNat / 64) :: base64Char (c.toNat % 64) :: toBase64 rest

/-- The bytes of values of six bits; of a last value alone there is no byte. -/
def sextetBytes : List Nat → List (BitVec 8)
  | p :: q :: r :: s :: rest =>
      BitVec.ofNat 8 (p * 4 + q / 16) :: BitVec.ofNat 8 (q * 16 + r / 4) :: BitVec.ofNat 8 (r * 64 + s) ::
        sextetBytes rest
  | [p, q, r] => [BitVec.ofNat 8 (p * 4 + q / 16), BitVec.ofNat 8 (q * 16 + r / 4)]
  | [p, q] => [BitVec.ofNat 8 (p * 4 + q / 16)]
  | _ => []

/-- The values up to the padding. Characters outside of the alphabets are passed over. -/
def sextets (t : Text) : List Nat := (t.takeWhile (· != unit '=')).filterMap base64Value

/-- `Buffer.from(t, 'base64')` -/
def fromBase64 (t : Text) : List (BitVec 8) := sextetBytes (sextets t)

theorem base64Char_facts : ∀ n < 64, base64Value (base64Char n) = some n ∧ base64Char n ≠ unit '=' := by decide +kernel

theorem sextets_cons {n : Nat} (hn : n < 64) (t : Text) : sextets (base64Char n :: t) = n :: sextets t := by
  obtain ⟨hvalue, hpad⟩ := base64Char_facts n hn
  rw [sextets, List.takeWhile_cons_of_pos (by simpa using hpad), List.filterMap_cons_some hvalue, sextets]

theorem sextets_pad (t : Text) : sextets (unit '=' :: t) = [] := by
  rw [sextets, List.takeWhile_cons_of_neg (by simp), List.filterMap_nil]

theorem eq_ofNat {a : BitVec 8} {n : Nat} (h : n % 256 = a.toNat) : BitVec.ofNat 8 n = a :=
  BitVec.eq_of_toNat_eq (by rw [BitVec.toNat_ofNat, h])

theorem fromBase64_toBase64 (bytes : List (BitVec 8)) : fromBase64 (toBase64 bytes) = bytes := by
  rw [fromBase64]
  induction bytes using toBase64.induct with
  | case1 => rfl
  | case2 a =>
      have ha := a.isLt
      rw [toBase64, sextets_cons (by omega), sextets_cons (by omega), sextets_pad, sextetBytes, eq_ofNat]
      omega
  | case3 a b =>
      have ha := a.isLt
      have hb := b.isLt
      have h₁ : BitVec.ofNat 8 (a.toNat / 4 * 4 + (a.toNat % 4 * 16 + b.toNat / 16) / 16) = a := eq_ofNat (by omega)
      have h₂ : BitVec.ofNat 8 ((a.toNat % 4 * 16 + b.toNat / 16) * 16 + b.toNat % 16 * 4 / 4) = b := eq_ofNat (by omega)
      rw [toBase64, sextets_cons (by omega), sextets_cons (by omega), sextets_cons (by omega), sextets_pad, sextetBytes,
        h₁, h₂]
  | case4 a b c rest ih =>
      have ha := a.isLt
      have hb := b.isLt
      have hc := c.isLt
      have h₁ : BitVec.ofNat 8 (a.toNat / 4 * 4 + (a.toNat % 4 * 16 + b.toNat / 16) / 16) = a := eq_ofNat (by omega)
      have h₂ : BitVec.ofNat 8 ((a.toNat % 4 * 16 + b.toNat / 16) * 16 + (b.toNat % 16 * 4 + c.toNat / 64) / 4) = b :=
        eq_ofNat (by omega)
      have h₃ : BitVec.ofNat 8 ((b.toNat % 16 * 4 + c.toNat / 64) * 64 + c.toNat % 64) = c := eq_ofNat (by omega)
      rw [toBase64, sextets_cons (by omega), sextets_cons (by omega), sextets_cons (by omega), sextets_cons (by omega),
        sextetBytes, ih, h₁, h₂, h₃]

end Strings.Base64
