import Mathlib.Data.List.Infix
import Mathlib.Data.List.Sort

namespace Strings.CodeUnits

/-- A string as its UTF-16 code units; surrogates need not be paired. -/
abbrev Text := List UInt16

instance lawfulBEqText : LawfulBEq Text := inferInstance

def utf16 (c : Char) : Text :=
  if c.toNat < 0x10000 then [c.toNat.toUInt16]
  else [(0xD800 + (c.toNat - 0x10000) / 0x400).toUInt16, (0xDC00 + (c.toNat - 0x10000) % 0x400).toUInt16]

def text (s : String) : Text := s.toList.flatMap utf16

/-- The code unit of an ASCII character. -/
def unit (c : Char) : UInt16 := c.toNat.toUInt16

def between (lo hi : Char) (u : UInt16) : Bool := unit lo ≤ u && u ≤ unit hi

def isDigit : UInt16 → Bool := between '0' '9'

def isLowerHex (u : UInt16) : Bool := isDigit u || between 'a' 'f' u

/-- The first halves of surrogate pairs. -/
def isHighSurrogate (u : UInt16) : Bool := 0xD800 ≤ u && u ≤ 0xDBFF

def isLowSurrogate (u : UInt16) : Bool := 0xDC00 ≤ u && u ≤ 0xDFFF

/-- ASCII letters in lower case; of an ASCII text this is `toLowerCase`. -/
def toLowerAscii (u : UInt16) : UInt16 := if between 'A' 'Z' u then u + 32 else u

def hexDigits : Text := text "0123456789abcdef"

def hexDigit (n : Nat) : UInt16 := hexDigits.getD n 0

def isHexDigit (u : UInt16) : Bool := hexDigits.contains (toLowerAscii u)

def hexDigitValue (u : UInt16) : Nat := hexDigits.idxOf (toLowerAscii u)

def hexValue (t : Text) : Nat := t.foldl (fun n u => 16 * n + hexDigitValue u) 0

/-- The white space and line terminators that `trim` removes. -/
def isSpace (u : UInt16) : Bool :=
  between '\t' '\r' u || u == unit ' ' || u == 0x00A0 || u == 0x1680 || (0x2000 ≤ u && u ≤ 0x200A) ||
    u == 0x2028 || u == 0x2029 || u == 0x202F || u == 0x205F || u == 0x3000 || u == 0xFEFF

def trimStart (t : Text) : Text := t.dropWhile isSpace

def trim (t : Text) : Text := (trimStart (trimStart t).reverse).reverse

/-- `toLowerCase`. Of texts that are not ASCII the lower case is left open. -/
def toLowerCase (beyondAscii : Text → Text) (t : Text) : Text :=
  if t.all (· < 128) then t.map toLowerAscii else beyondAscii t

def isLineEnd (u : UInt16) : Bool := u == unit '\n' || u == unit '\r' || u == 0x2028 || u == 0x2029

/-- The order in which strings are compared: by code units, a prefix first. -/
def leUnits : Text → Text → Bool
  | [], _ => true
  | _ :: _, [] => false
  | a :: as, b :: bs => a < b || (a == b && leUnits as bs)

def sortTexts (ts : List Text) : List Text := ts.insertionSort (fun a b => leUnits a b = true)

def join (separator : UInt16) (ts : List Text) : Text := [separator].intercalate ts

def split (separator : UInt16) (t : Text) : List Text := t.splitOn separator

@[simp] theorem mem_sortTexts {ts : List Text} {t : Text} : t ∈ sortTexts ts ↔ t ∈ ts :=
  (List.perm_insertionSort _ ts).mem_iff

theorem not_small_of_isDigit {u : UInt16} (hu : isDigit u = true) : between 'a' 'z' u = false := by
  rw [isDigit, between, Bool.and_eq_true, decide_eq_true_eq, decide_eq_true_eq] at hu
  have hle : u.toNat ≤ 57 := UInt16.le_iff_toNat_le.mp hu.2
  have hlow : ¬unit 'a' ≤ u := fun h => by
    have hge : 97 ≤ u.toNat := UInt16.le_iff_toNat_le.mp h
    omega
  rw [between, decide_eq_false hlow, Bool.false_and]

theorem eq_of_toLowerAscii {u v : UInt16} (h : toLowerAscii u = v) (hv : between 'a' 'z' v = false) : u = v := by
  rw [toLowerAscii] at h
  split at h
  next hupper =>
    have hlower : between 'a' 'z' (u + 32) = true := by
      simp only [between, unit, Bool.and_eq_true, decide_eq_true_eq, UInt16.le_iff_toNat_le] at hupper ⊢
      obtain ⟨hlo, hhi⟩ := hupper
      have hlo : 65 ≤ u.toNat := hlo
      have hhi : u.toNat ≤ 90 := hhi
      have hsum : (u + 32).toNat = u.toNat + 32 := by
        rw [UInt16.toNat_add]
        exact Nat.mod_eq_of_lt (show u.toNat + 32 < 65536 by omega)
      rw [hsum]
      exact ⟨show 97 ≤ u.toNat + 32 by omega, show u.toNat + 32 ≤ 122 by omega⟩
    rw [h, hv] at hlower
    cases hlower
  next => exact h

/-- A text without small letters is the lower case of itself only. -/
theorem eq_of_map_toLowerAscii {t s : Text} (h : t.map toLowerAscii = s) (hs : ∀ v ∈ s, between 'a' 'z' v = false) :
    t = s := by
  subst h
  have hself : ∀ u ∈ t, toLowerAscii u = id u := fun u hu =>
    (eq_of_toLowerAscii rfl (hs _ (List.mem_map_of_mem hu))).symm
  exact ((List.map_congr_left hself).trans (List.map_id t)).symm

theorem trimStart_append {before t : Text} (hbefore : ∀ u ∈ before, isSpace u = true) (hne : t ≠ [])
    (ht : ∀ u ∈ t, isSpace u = false) (after : Text) : trimStart (before ++ (t ++ after)) = t ++ after := by
  rw [trimStart, List.dropWhile_append_of_pos hbefore]
  cases t with
  | nil => exact absurd rfl hne
  | cons u t => exact List.dropWhile_cons_of_neg (by simp [ht u List.mem_cons_self])

theorem trim_append {before t after : Text} (hbefore : ∀ u ∈ before, isSpace u = true)
    (hafter : ∀ u ∈ after, isSpace u = true) (hne : t ≠ []) (ht : ∀ u ∈ t, isSpace u = false) :
    trim (before ++ t ++ after) = t := by
  have hback : trimStart (after.reverse ++ (t.reverse ++ [])) = t.reverse ++ [] :=
    trimStart_append (by simpa using hafter) (by simpa using hne) (by simpa using ht) []
  rw [List.append_nil] at hback
  rw [trim, List.append_assoc, trimStart_append hbefore hne ht, List.reverse_append, hback, List.reverse_reverse]

/-- Nothing is trimmed off a text that neither starts nor ends with white space. -/
theorem trim_of_ends {u v : UInt16} {t : Text} (hu : isSpace u = false) (hv : isSpace v = false) :
    trim (u :: (t ++ [v])) = u :: (t ++ [v]) := by
  have hstart {w : UInt16} {s : Text} (hw : isSpace w = false) : trimStart (w :: s) = w :: s :=
    List.dropWhile_cons_of_neg (by simp [hw])
  rw [trim, hstart hu, ← List.cons_append, List.reverse_append, List.reverse_singleton, List.singleton_append, hstart hv,
    List.reverse_cons, List.reverse_reverse]

/-- What a join of texts without the separator splits into; the join of no texts is
empty, and the empty text splits into one. -/
theorem split_join {separator : UInt16} {ts : List Text} (hsep : ∀ t ∈ ts, separator ∉ t)
    (hne : join separator ts ≠ []) : split separator (join separator ts) = ts := by
  apply List.splitOn_intercalate separator hsep
  rintro rfl
  exact hne rfl

theorem mem_join {separator u : UInt16} {ts : List Text} (hu : u ∈ join separator ts) : u = separator ∨ ∃ t ∈ ts, u ∈ t := by
  induction ts with
  | nil => cases hu
  | cons t ts ih =>
      cases ts with
      | nil => exact .inr ⟨t, List.mem_cons_self, by simpa [join] using hu⟩
      | cons s ts =>
          rw [join, List.intercalate_cons_cons, List.mem_append, List.mem_append] at hu
          rcases hu with (hu | hu) | hu
          · exact .inr ⟨t, List.mem_cons_self, hu⟩
          · exact .inl (List.mem_singleton.mp hu)
          · exact (ih hu).imp_right fun ⟨r, hr, hur⟩ => ⟨r, List.mem_cons_of_mem _ hr, hur⟩

/-- A separator that the left parts do not have determines both parts. -/
theorem append_cons_inj {α : Type} {separator : α} {a b x y : List α} (ha : separator ∉ a) (hb : separator ∉ b)
    (h : a ++ separator :: x = b ++ separator :: y) : a = b ∧ x = y := by
  induction a generalizing b with
  | nil =>
      cases b with
      | nil => simpa using h
      | cons u b =>
          obtain ⟨rfl, -⟩ := List.cons.inj h
          exact absurd List.mem_cons_self hb
  | cons u a ih =>
      cases b with
      | nil =>
          obtain ⟨rfl, -⟩ := List.cons.inj h
          exact absurd List.mem_cons_self ha
      | cons v b =>
          obtain ⟨rfl, hrest⟩ := List.cons.inj h
          obtain ⟨rfl, rfl⟩ := ih (fun hm => ha (List.mem_cons_of_mem _ hm))
            (fun hm => hb (List.mem_cons_of_mem _ hm)) hrest
          exact ⟨rfl, rfl⟩

end Strings.CodeUnits

namespace Strings.Cases

open CodeUnits

def toUpperAscii (u : UInt16) : UInt16 := if between 'a' 'z' u then u - 32 else u

/-- `toUpperCase`. Of texts that are not ASCII the upper case is left open. -/
def toUpperCase (beyondAscii : Text → Text) (t : Text) : Text :=
  if t.all (· < 128) then t.map toUpperAscii else beyondAscii t

end Strings.Cases
