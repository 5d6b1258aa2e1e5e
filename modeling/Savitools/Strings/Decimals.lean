import Mathlib.Data.List.Induction
import Mathlib.Tactic.Ring
import Savitools.Strings.CodeUnits

namespace Strings.Decimals

open Strings.CodeUnits

/-- `^(\d+)(?:\.(\d+))?$`, with the two groups; a missing fraction is empty. -/
def decimalParts (value : Text) : Option (Text × Text) :=
  let whole := value.takeWhile isDigit
  if whole = [] then none
  else
    match value.dropWhile isDigit with
    | [] => some (whole, [])
    | u :: fraction =>
        if u = unit '.' ∧ fraction ≠ [] ∧ fraction.all isDigit then some (whole, fraction) else none

/-- `^\d+$` -/
def isDigits (t : Text) : Bool := t != [] && t.all isDigit

def digitsValue (digits : Text) : Nat := digits.foldl (fun n u => 10 * n + (u - unit '0').toNat) 0

def padEnd (t : Text) (n : Nat) : Text := t ++ List.replicate (n - t.length) (unit '0')

def padStart (t : Text) (n : Nat) : Text := List.replicate (n - t.length) (unit '0') ++ t

/-- The decimal digits of a whole number, as `String(n)` writes it. -/
def ofNat (n : Nat) : Text := text (toString n)

theorem digitsValue_append (digits : Text) (u : UInt16) :
    digitsValue (digits ++ [u]) = 10 * digitsValue digits + (u - unit '0').toNat := by
  rw [digitsValue, digitsValue, List.foldl_append, List.foldl_cons, List.foldl_nil]

/-- Digits in front count as often as those behind them have values. -/
theorem digitsValue_concat (digits others : Text) :
    digitsValue (digits ++ others) = digitsValue digits * 10 ^ others.length + digitsValue others := by
  induction others using List.reverseRecOn with
  | nil =>
      rw [List.append_nil, List.length_nil, Nat.pow_zero, Nat.mul_one]
      rfl
  | append_singleton others u ih =>
      rw [← List.append_assoc, digitsValue_append, ih, digitsValue_append, List.length_append, List.length_singleton,
        Nat.pow_succ]
      ring

/-- The last digit is written after the others. -/
theorem ofNat_append {n d : Nat} (hn : 0 < n) (hd : d < 10) : ofNat (10 * n + d) = ofNat n ++ ofNat d := by
  have hlist (k : Nat) : ofNat k = (Nat.toDigits 10 k).flatMap utf16 := by
    rw [ofNat, text, Nat.toString_eq_ofList_toDigits, String.toList_ofList]
  rw [hlist, hlist, hlist, ← Nat.toDigits_append_toDigits (by decide) hn hd, List.flatMap_append]

/-- Induction along the digits of a number. -/
theorem digits_induction {P : Nat → Prop} (last : ∀ d < 10, P d)
    (append : ∀ n d, 0 < n → d < 10 → P n → P (10 * n + d)) (n : Nat) : P n := by
  induction n using Nat.strongRecOn with
  | _ n ih =>
      by_cases hn : n < 10
      · exact last n hn
      · have hprev := append (n / 10) (n % 10) (by omega) (by omega) (ih (n / 10) (by omega))
        rwa [show 10 * (n / 10) + n % 10 = n by omega] at hprev

theorem ofNat_digit : ∀ d < 10, ofNat d = [unit '0' + d.toUInt16] := by decide

theorem isDigit_of_mem_ofNat {n : Nat} {u : UInt16} (hu : u ∈ ofNat n) : isDigit u = true := by
  have hdigit : ∀ d < 10, (ofNat d).all isDigit = true := by decide
  induction n using digits_induction with
  | last d hd => exact List.all_eq_true.mp (hdigit d hd) u hu
  | append n d hn hd ih =>
      rw [ofNat_append hn hd] at hu
      exact (List.mem_append.mp hu).elim ih (List.all_eq_true.mp (hdigit d hd) u)

theorem digitsValue_ofNat (n : Nat) : digitsValue (ofNat n) = n := by
  have hdigit : ∀ d < 10, (unit '0' + d.toUInt16 - unit '0').toNat = d := by decide
  induction n using digits_induction with
  | last d hd =>
      rw [ofNat_digit d hd, digitsValue, List.foldl_cons, List.foldl_nil, hdigit d hd]
      omega
  | append n d hn hd ih => rw [ofNat_append hn hd, ofNat_digit d hd, digitsValue_append, ih, hdigit d hd]

theorem ofNat_inj {m n : Nat} (h : ofNat m = ofNat n) : m = n := by
  rw [← digitsValue_ofNat m, h, digitsValue_ofNat]

theorem ofNat_ne_nil (n : Nat) : ofNat n ≠ [] := by
  induction n using digits_induction with
  | last d hd => simp [ofNat_digit d hd]
  | append n d hn hd ih => simp [ofNat_append hn hd, ih]

/-- A positive number is written without zeros in front. -/
theorem head_ofNat {n : Nat} (hn : 0 < n) : (ofNat n).head? ≠ some (unit '0') := by
  have hdigit : ∀ d < 10, 0 < d → (ofNat d).head? ≠ some (unit '0') := by decide
  induction n using digits_induction with
  | last d hd => exact hdigit d hd hn
  | append n d hpos hd ih =>
      obtain ⟨u, rest, hcons⟩ := List.exists_cons_of_ne_nil (ofNat_ne_nil n)
      rw [ofNat_append hpos hd, hcons, List.cons_append, List.head?_cons]
      have hprev := ih hpos
      rwa [hcons, List.head?_cons] at hprev

theorem exists_digit {u : UInt16} (hu : isDigit u = true) : ∃ d < 10, u = unit '0' + d.toUInt16 := by
  simp only [isDigit, between, Bool.and_eq_true, decide_eq_true_eq, UInt16.le_iff_toNat_le] at hu
  have hlo : 48 ≤ u.toNat := hu.1
  have hhi : u.toNat ≤ 57 := hu.2
  refine ⟨u.toNat - 48, by omega, UInt16.toNat_inj.mp ?_⟩
  have hzero : (unit '0').toNat = 48 := rfl
  rw [UInt16.toNat_add, hzero, Nat.toUInt16_eq, UInt16.toNat_ofNat']
  omega

/-- A number below `10 ^ (k + 1)` has at most that many digits. -/
theorem length_ofNat_le {n k : Nat} (hn : n < 10 ^ (k + 1)) : (ofNat n).length ≤ k + 1 := by
  induction n using digits_induction generalizing k with
  | last d hd =>
      rw [ofNat_digit d hd, List.length_singleton]
      omega
  | append n d hpos hd ih =>
      cases k with
      | zero => omega
      | succ k =>
          have hlast : (ofNat d).length = 1 := congrArg List.length (ofNat_digit d hd)
          have hprev := @ih k (by rw [Nat.pow_succ] at hn; omega)
          rw [ofNat_append hpos hd, List.length_append, hlast]
          omega

theorem isDigit_of_mem_padStart {t : Text} {n : Nat} (ht : ∀ u ∈ t, isDigit u = true) :
    ∀ u ∈ padStart t n, isDigit u = true := by
  intro u hu
  rcases List.mem_append.mp hu with hzero | htext
  · rw [List.eq_of_mem_replicate hzero]
    decide
  · exact ht u htext

theorem length_padStart_eq {t : Text} {n : Nat} (ht : t.length ≤ n) : (padStart t n).length = n := by
  rw [padStart, List.length_append, List.length_replicate]
  omega

theorem digitsValue_padStart (t : Text) (n : Nat) : digitsValue (padStart t n) = digitsValue t := by
  have hzeros (k : Nat) : (List.replicate k (unit '0')).foldl (fun n u => 10 * n + (u - unit '0').toNat) 0 = 0 := by
    induction k with
    | zero => rfl
    | succ k ih => exact ih
  rw [digitsValue, padStart, List.foldl_append, hzeros]
  rfl

theorem digitsValue_padEnd (t : Text) (n : Nat) : digitsValue (padEnd t n) = digitsValue t * 10 ^ (n - t.length) := by
  have hzeros (k : Nat) : digitsValue (List.replicate k (unit '0')) = 0 := by
    induction k with
    | zero => rfl
    | succ k ih => exact ih
  rw [padEnd, digitsValue_concat, hzeros, List.length_replicate, Nat.add_zero]

end Strings.Decimals
