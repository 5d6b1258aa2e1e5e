import Savitools.Json.Doubles
import Savitools.Json.Equality
import Savitools.Json.RoundTrip

namespace Grammars.SourceLiterals

open Strings.CodeUnits Strings.Decimals Json.Numbers Json.Values Json.Writing Json.RoundTrip Json.Equality Json.Doubles

/-- Every surrogate is one of a pair. -/
def isPaired : Text → Bool
  | [] => true
  | [u] => !(isHighSurrogate u || isLowSurrogate u)
  | u :: v :: t =>
      if isHighSurrogate u && isLowSurrogate v then isPaired t
      else !(isHighSurrogate u || isLowSurrogate u) && isPaired (v :: t)

def needsEscape (u : UInt16) : Bool := u < 0x20 || u == unit '"' || u == unit '\\'

/-- A text that JSON writes as it is. -/
structure Unescaped (t : Text) : Prop where
  paired : isPaired t = true
  plain : ∀ u ∈ t, needsEscape u = false

theorem forall_unicodeEscape {P : UInt16 → Prop} (hslash : P (unit '\\')) (hu : P (unit 'u'))
    (hdigit : ∀ n < 16, P (hexDigit n)) (u : UInt16) : ∀ v ∈ unicodeEscape u, P v := by
  have hlt : u.toNat < 65536 := u.toNat_lt
  simp only [unicodeEscape, List.forall_mem_cons]
  exact ⟨hslash, hu, hdigit _ (by omega), hdigit _ (by omega), hdigit _ (by omega), hdigit _ (by omega),
    List.forall_mem_nil _⟩

theorem not_needsEscape_of_surrogate {u : UInt16} (hu : 0xD800 ≤ u) : needsEscape u = false := by
  have hge : 0xD800 ≤ u.toNat := UInt16.le_iff_toNat_le.mp hu
  have hquote : u ≠ unit '"' := by
    rintro rfl
    exact absurd hge (by decide)
  have hslash : u ≠ unit '\\' := by
    rintro rfl
    exact absurd hge (by decide)
  have hlow : ¬u < 0x20 := fun hlow => by
    have hlt : u.toNat < 0x20 := UInt16.lt_iff_toNat_lt.mp hlow
    omega
  simp only [needsEscape, hlow, decide_false, Bool.false_or, Bool.or_eq_false_iff, beq_eq_false_iff_ne]
  exact ⟨hquote, hslash⟩

theorem needsEscape_of_escapes {e : UInt16 × UInt16} (he : e ∈ Json.Reading.escapes) : needsEscape e.2 = true := by
  have hall : Json.Reading.escapes.all (fun e => needsEscape e.2) = true := by decide
  exact List.all_eq_true.mp hall e he

theorem escapeUnit_cases (u : UInt16) :
    (∃ e ∈ Json.Reading.escapes, e.2 = u ∧ escapeUnit u = [unit '\\', e.1]) ∨
      (u < 0x20 ∧ escapeUnit u = unicodeEscape u) ∨ (needsEscape u = false ∧ escapeUnit u = [u]) := by
  rw [escapeUnit]
  split
  next letter v hfind =>
    have hv : v = u := by simpa using List.find?_some hfind
    exact .inl ⟨(letter, v), List.mem_of_find?_eq_some hfind, hv, rfl⟩
  next hnone =>
    split
    next hlow => exact .inr (.inl ⟨hlow, rfl⟩)
    next hlow =>
      have hne (e : UInt16 × UInt16) (he : e ∈ Json.Reading.escapes) : u ≠ e.2 := by
        simpa [eq_comm] using List.find?_eq_none.mp hnone e he
      refine .inr (.inr ⟨?_, rfl⟩)
      simp only [needsEscape, hlow, decide_false, Bool.false_or, Bool.or_eq_false_iff, beq_eq_false_iff_ne]
      exact ⟨hne (unit '"', unit '"') (by decide), hne (unit '\\', unit '\\') (by decide)⟩

/-- What holds of the units of escapes and of those that need none holds of all that is written. -/
theorem forall_escapeUnits {P : UInt16 → Prop} {t : Text} (hslash : P (unit '\\')) (hu : P (unit 'u'))
    (hdigit : ∀ n < 16, P (hexDigit n)) (hletter : ∀ e ∈ Json.Reading.escapes, e.2 ∈ t → P e.1)
    (hplain : ∀ u ∈ t, needsEscape u = false → P u) : ∀ v ∈ escapeUnits t, P v := by
  have hunicode := forall_unicodeEscape hslash hu hdigit
  have hunit (u : UInt16) (hmem : u ∈ t) : ∀ v ∈ escapeUnit u, P v := by
    obtain ⟨e, he, rfl, heq⟩ | ⟨-, heq⟩ | ⟨hu, heq⟩ := escapeUnit_cases u
    · rw [heq]
      exact List.forall_mem_cons.mpr ⟨hslash, List.forall_mem_singleton.mpr (hletter e he hmem)⟩
    · rw [heq]
      exact hunicode u
    · rw [heq]
      exact List.forall_mem_singleton.mpr (hplain u hmem hu)
  have hsurrogate {u : UInt16} (hmem : u ∈ t) (hge : 0xD800 ≤ u) : P u :=
    hplain u hmem (not_needsEscape_of_surrogate hge)
  clear hplain hletter
  fun_induction escapeUnits t with
  | case1 => exact List.forall_mem_nil _
  | case2 u hlone => exact hunicode u
  | case3 u hlone => exact hunit u List.mem_cons_self
  | case4 u v t hpair ih =>
      rw [Bool.and_eq_true] at hpair
      refine List.forall_mem_cons.mpr ⟨hsurrogate List.mem_cons_self (isHighSurrogate_ge hpair.1),
        List.forall_mem_cons.mpr ⟨hsurrogate (List.mem_cons_of_mem _ List.mem_cons_self) (isLowSurrogate_ge hpair.2),
          ih ?_ ?_⟩⟩
      · exact fun w hw => hunit w (List.mem_cons_of_mem _ (List.mem_cons_of_mem _ hw))
      · exact fun hw => hsurrogate (List.mem_cons_of_mem _ (List.mem_cons_of_mem _ hw))
  | case5 u v t hpair hlone ih =>
      exact List.forall_mem_append.mpr ⟨hunicode u, ih (fun w hw => hunit w (List.mem_cons_of_mem _ hw))
        fun hw => hsurrogate (List.mem_cons_of_mem _ hw)⟩
  | case6 u v t hpair hlone ih =>
      exact List.forall_mem_append.mpr ⟨hunit u List.mem_cons_self, ih (fun w hw => hunit w (List.mem_cons_of_mem _ hw))
        fun hw => hsurrogate (List.mem_cons_of_mem _ hw)⟩

theorem length_unicodeEscape (u : UInt16) : (unicodeEscape u).length = 6 := rfl

theorem escapeUnit_plain {u : UInt16} (hu : needsEscape u = false) : escapeUnit u = [u] := by
  obtain ⟨e, he, rfl, -⟩ | ⟨hlow, -⟩ | ⟨-, heq⟩ := escapeUnit_cases u
  · cases hu.symm.trans (needsEscape_of_escapes he)
  · rw [needsEscape, decide_eq_true hlow] at hu
    cases hu
  · exact heq

/-- An escape is longer than its unit. -/
theorem escapeUnit_long {u : UInt16} (hu : needsEscape u = true) : 1 < (escapeUnit u).length := by
  obtain ⟨e, -, -, heq⟩ | ⟨-, heq⟩ | ⟨hplain, -⟩ := escapeUnit_cases u
  · rw [heq]
    exact Nat.lt_succ_self 1
  · rw [heq, length_unicodeEscape]
    decide
  · cases hplain.symm.trans hu

theorem length_escapeUnit (u : UInt16) : 1 ≤ (escapeUnit u).length := by
  cases hu : needsEscape u with
  | false => rw [escapeUnit_plain hu, List.length_singleton]
  | true => exact (escapeUnit_long hu).le

theorem length_escapeUnits (t : Text) : t.length ≤ (escapeUnits t).length := by
  fun_induction escapeUnits t with
  | case1 => exact le_rfl
  | case2 u hlone => exact Nat.le_add_left 1 5
  | case3 u hlone => exact length_escapeUnit u
  | case4 u v t hpair ih =>
      simp only [List.length_cons]
      omega
  | case5 u v t hpair hlone ih =>
      rw [List.length_append, length_unicodeEscape, List.length_cons]
      omega
  | case6 u v t hpair hlone ih =>
      have hone := length_escapeUnit u
      rw [List.length_append, List.length_cons]
      omega

theorem unescaped_cons {u v : UInt16} {t : Text} (hlone : (isHighSurrogate u || isLowSurrogate u) = false) :
    Unescaped (u :: v :: t) ↔ needsEscape u = false ∧ Unescaped (v :: t) := by
  obtain ⟨hhigh, hlow⟩ := Bool.or_eq_false_iff.mp hlone
  have hpaired : isPaired (u :: v :: t) = isPaired (v :: t) := by
    rw [isPaired, hhigh, hlow]
    rfl
  constructor
  · rintro ⟨hall, hplain⟩
    obtain ⟨hu, ht⟩ := List.forall_mem_cons.mp hplain
    exact ⟨hu, hpaired ▸ hall, ht⟩
  · rintro ⟨hu, hall, ht⟩
    exact ⟨hpaired.trans hall, List.forall_mem_cons.mpr ⟨hu, ht⟩⟩

/-- A text is as long with its escapes exactly when there are none. -/
theorem length_escapeUnits_iff {t : Text} : (escapeUnits t).length = t.length ↔ Unescaped t := by
  fun_induction escapeUnits t with
  | case1 => exact iff_of_true rfl ⟨rfl, List.forall_mem_nil _⟩
  | case2 u hlone =>
      refine iff_of_false (fun h => Nat.noConfusion (Nat.succ.inj h)) fun h => ?_
      have hpaired := h.paired
      rw [isPaired, hlone] at hpaired
      cases hpaired
  | case3 u hlone =>
      have hpaired : isPaired [u] = true := by rw [isPaired, Bool.eq_false_iff.mpr hlone]; rfl
      cases hu : needsEscape u with
      | false =>
          exact iff_of_true (congrArg List.length (escapeUnit_plain hu)) ⟨hpaired, List.forall_mem_singleton.mpr hu⟩
      | true =>
          refine iff_of_false (escapeUnit_long hu).ne' fun h => ?_
          exact absurd ((h.plain u (List.mem_singleton_self u)).symm.trans hu) Bool.false_ne_true
  | case4 u v t hpair ih =>
      have hpaired : isPaired (u :: v :: t) = isPaired t := by rw [isPaired, if_pos hpair]
      rw [Bool.and_eq_true] at hpair
      rw [List.length_cons, List.length_cons, List.length_cons, List.length_cons, Nat.add_right_cancel_iff,
        Nat.add_right_cancel_iff, ih]
      have hu := not_needsEscape_of_surrogate (isHighSurrogate_ge hpair.1)
      have hv := not_needsEscape_of_surrogate (isLowSurrogate_ge hpair.2)
      constructor
      · rintro ⟨hall, ht⟩
        exact ⟨hpaired.trans hall, List.forall_mem_cons.mpr ⟨hu, List.forall_mem_cons.mpr ⟨hv, ht⟩⟩⟩
      · rintro ⟨hall, ht⟩
        exact ⟨hpaired ▸ hall, (List.forall_mem_cons.mp (List.forall_mem_cons.mp ht).2).2⟩
  | case5 u v t hpair hlone ih =>
      have hrest := length_escapeUnits (v :: t)
      refine iff_of_false (fun h => ?_) fun h => ?_
      · rw [List.length_append, length_unicodeEscape, List.length_cons] at h
        omega
      · have hpaired := h.paired
        rw [isPaired, if_neg hpair, hlone] at hpaired
        cases hpaired
  | case6 u v t hpair hlone ih =>
      have hrest := length_escapeUnits (v :: t)
      rw [unescaped_cons (Bool.eq_false_iff.mpr hlone), ← ih, List.length_append, List.length_cons]
      cases hu : needsEscape u with
      | false =>
          rw [escapeUnit_plain hu, List.length_singleton, and_iff_right rfl]
          omega
      | true =>
          have hlong := escapeUnit_long hu
          refine iff_of_false (by omega) fun h => ?_
          cases h.1

theorem escapeUnits_of_unescaped {t : Text} (h : Unescaped t) : escapeUnits t = t := by
  obtain ⟨hpaired, hplain⟩ := h
  fun_induction escapeUnits t with
  | case1 => rfl
  | case2 u hlone =>
      rw [isPaired, hlone] at hpaired
      cases hpaired
  | case3 u hlone => exact escapeUnit_plain (hplain u (List.mem_singleton_self u))
  | case4 u v t hpair ih =>
      rw [isPaired, if_pos hpair] at hpaired
      rw [ih hpaired (List.forall_mem_cons.mp (List.forall_mem_cons.mp hplain).2).2]
  | case5 u v t hpair hlone ih =>
      rw [isPaired, if_neg hpair, hlone] at hpaired
      cases hpaired
  | case6 u v t hpair hlone ih =>
      rw [isPaired, if_neg hpair, Bool.and_eq_true] at hpaired
      obtain ⟨hu, ht⟩ := List.forall_mem_cons.mp hplain
      rw [escapeUnit_plain hu, ih hpaired.2 ht, List.singleton_append]

theorem escapeUnits_eq_iff {t : Text} : escapeUnits t = t ↔ Unescaped t :=
  ⟨fun h => length_escapeUnits_iff.mp (congrArg List.length h), escapeUnits_of_unescaped⟩

/-- Two texts that are written in the same way are the same. -/
theorem escapeUnits_inj {t other : Text} (h : escapeUnits t = escapeUnits other) : t = other := by
  have hparse (t : Text) : Json.Reading.parse (stringify (.str t)) = some (.str t) := parse_stringify trivial
  have hquote : stringify (.str t) = stringify (.str other) := by rw [stringify, stringify, quote, quote, h]
  have hvalue := (hparse t).symm.trans ((congrArg Json.Reading.parse hquote).trans (hparse other))
  exact Value.str.inj (Option.some.inj hvalue)

/-! What is asked of a value and of all that is in it. -/

mutual

def Everywhere (p : Value Number → Prop) : Value Number → Prop
  | .null => p .null
  | .bool b => p (.bool b)
  | .num n => p (.num n)
  | .str t => p (.str t)
  | .arr items => p (.arr items) ∧ EverywhereItems p items
  | .obj fields => p (.obj fields) ∧ EverywhereFields p fields

def EverywhereItems (p : Value Number → Prop) : List (Value Number) → Prop
  | [] => True
  | v :: items => Everywhere p v ∧ EverywhereItems p items

def EverywhereFields (p : Value Number → Prop) : List (Text × Value Number) → Prop
  | [] => True
  | (_, v) :: fields => Everywhere p v ∧ EverywhereFields p fields

end

theorem everywhereItems_iff {p : Value Number → Prop} {items : List (Value Number)} :
    EverywhereItems p items ↔ ∀ v ∈ items, Everywhere p v := by
  induction items with
  | nil => exact iff_of_true trivial (List.forall_mem_nil _)
  | cons v items ih => rw [EverywhereItems, ih, List.forall_mem_cons]

theorem everywhereFields_iff {p : Value Number → Prop} {fields : List (Text × Value Number)} :
    EverywhereFields p fields ↔ ∀ f ∈ fields, Everywhere p f.2 := by
  induction fields with
  | nil => exact iff_of_true trivial (List.forall_mem_nil _)
  | cons f fields ih => rw [EverywhereFields, ih, List.forall_mem_cons]

/-- No string and no name has this unit. -/
def Lacks (c : UInt16) : Value Number → Prop
  | .str t => c ∉ t
  | .obj fields => ∀ f ∈ fields, c ∉ f.1
  | _ => True

theorem everywhere_of_forall {p : Value Number → Prop} (h : ∀ v, p v) (v : Value Number) : Everywhere p v := by
  induction v using value_induction with
  | null => exact h .null
  | bool b => exact h (.bool b)
  | num n => exact h (.num n)
  | str t => exact h (.str t)
  | arr items ih => exact ⟨h (.arr items), everywhereItems_iff.mpr ih⟩
  | obj fields ih => exact ⟨h (.obj fields), everywhereFields_iff.mpr ih⟩

theorem everywhere_congr {p q : Value Number → Prop} (h : ∀ v, p v ↔ q v) (v : Value Number) :
    Everywhere p v ↔ Everywhere q v := by
  rw [funext fun v => propext (h v)]

/-! The units of a JSON text. -/

section Units

variable {c : UInt16}

/-- No string and no name has this unit when it is written. -/
def LacksWritten (c : UInt16) : Value Number → Prop
  | .str t => c ∉ escapeUnits t
  | .obj fields => ∀ f ∈ fields, c ∉ escapeUnits f.1
  | _ => True

theorem mem_intercalate {separator : Text} (hc : c ∉ separator) {ts : List Text} :
    c ∈ separator.intercalate ts ↔ ∃ t ∈ ts, c ∈ t := by
  induction ts with
  | nil => simp
  | cons t ts ih =>
      cases ts with
      | nil => simp
      | cons s ts =>
          rw [List.intercalate_cons_cons, List.mem_append, List.mem_append, ih, or_iff_left hc]
          simp only [List.mem_cons, exists_eq_or_imp]

theorem stringifyItems_eq (items : List (Value Number)) : stringifyItems items = items.map stringify := by
  induction items with
  | nil => rfl
  | cons v items ih => rw [stringifyItems, ih, List.map_cons]

theorem stringifyFields_eq (fields : List (Text × Value Number)) :
    stringifyFields fields = fields.map fun f => quote f.1 ++ unit ':' :: stringify f.2 := by
  induction fields with
  | nil => rfl
  | cons f fields ih => rw [stringifyFields, ih, List.map_cons]

theorem not_mem_numberText (hc : isNumberUnit c = false) (q : Rat) : c ∉ numberText (.finite q) := by
  have hpositive : c ∉ positiveText q.num.natAbs q.den := fun hmem =>
    absurd (hc.symm.trans (isNumberUnit_positiveText _ _ c hmem)) Bool.false_ne_true
  rw [numberText]
  split
  · refine List.not_mem_cons_of_ne_of_not_mem ?_ hpositive
    rintro rfl
    exact absurd hc (by decide)
  · exact hpositive

theorem not_mem_quote (hquote : c ≠ unit '"') {t : Text} : c ∉ quote t ↔ c ∉ escapeUnits t := by
  rw [quote, List.mem_cons, List.mem_append, List.mem_singleton, or_iff_right hquote, or_iff_left hquote]

/-- A unit that is no sign of the grammar stands in strings and in names only. -/
theorem not_mem_stringify_iff (hsigns : c ∉ text "nulltruefalse[]\x7b\x7d,:\"") (hnumber : isNumberUnit c = false)
    {v : Value Number} : c ∉ stringify v ↔ Everywhere (LacksWritten c) v := by
  have hlacks {t : Text} (ht : t ⊆ text "nulltruefalse[]\x7b\x7d,:\"") : c ∉ t := fun hmem => hsigns (ht hmem)
  have hsign {u : UInt16} (hu : u ∈ text "nulltruefalse[]\x7b\x7d,:\"") : c ≠ u := fun h => hsigns (h ▸ hu)
  have hcomma : c ∉ [unit ','] := hlacks (by decide)
  induction v using value_induction with
  | null => exact iff_of_true (hlacks (by decide)) trivial
  | bool b =>
      cases b with
      | false => exact iff_of_true (hlacks (by decide)) trivial
      | true => exact iff_of_true (hlacks (by decide)) trivial
  | num n =>
      cases n with
      | finite q => exact iff_of_true (not_mem_numberText hnumber q) trivial
      | infinite negative => exact iff_of_true (@hlacks (text "null") (by decide)) trivial
  | str t => exact not_mem_quote (hsign (by decide))
  | arr items ih =>
      have hitems : c ∉ join (unit ',') (stringifyItems items) ↔ ∀ v ∈ items, c ∉ stringify v := by
        rw [join, mem_intercalate hcomma, stringifyItems_eq]
        simp only [not_exists, not_and, List.forall_mem_map]
      have hsame : LacksWritten c (.arr items) := trivial
      rw [stringify, List.mem_cons, List.mem_append, List.mem_singleton, or_iff_right (hsign (by decide)),
        or_iff_left (hsign (by decide)), hitems, Everywhere, and_iff_right hsame, everywhereItems_iff]
      exact forall₂_congr ih
  | obj fields ih =>
      have hfields : c ∉ join (unit ',') (stringifyFields fields) ↔
          ∀ f ∈ fields, c ∉ escapeUnits f.1 ∧ c ∉ stringify f.2 := by
        rw [join, mem_intercalate hcomma, stringifyFields_eq]
        simp only [not_exists, not_and, List.forall_mem_map]
        refine forall₂_congr fun f _ => ?_
        rw [List.mem_append, List.mem_cons, or_iff_right (hsign (by decide)), not_or, not_mem_quote (hsign (by decide))]
      rw [stringify, List.mem_cons, List.mem_append, List.mem_singleton, or_iff_right (hsign (by decide)),
        or_iff_left (hsign (by decide)), hfields, Everywhere, LacksWritten, everywhereFields_iff, ← forall₂_and]
      exact forall₂_congr fun f hf => and_congr_right fun _ => ih f hf

end Units

end Grammars.SourceLiterals

namespace Grammars.PythonLiterals

open Strings.CodeUnits Strings.Decimals Json.Numbers Json.Values Json.Reading Json.Writing Json.RoundTrip Json.Equality
  Stores.Entries SourceLiterals

/-- The escapes of one letter in a string, with the code units that they stand for. -/
def escapes : List (UInt16 × UInt16) :=
  [(unit '\\', unit '\\'), (unit '\'', unit '\''), (unit '"', unit '"'), (unit 'a', 7), (unit 'b', 8), (unit 'f', 12),
    (unit 'n', 10), (unit 'r', 13), (unit 't', 9), (unit 'v', 11)]

def words : List (Text × Value Number) :=
  [(text "None", .null), (text "True", .bool true), (text "False", .bool false)]

def isNameUnit (u : UInt16) : Bool := between 'a' 'z' u || between 'A' 'Z' u || u == unit '_'

def wholeValue (t : Text) : Option Int :=
  let (negative, digits) := readSign t
  if wholeOk digits && digits.all isDigit then
    some (if negative then -(digitsValue digits : Int) else digitsValue digits)
  else none

/-- A whole number is as large as it is written; with a point or an exponent it is a double. -/
def numberValue (t : Text) : Option Number :=
  match wholeValue t with
  | some n => some (.ofInt n)
  | none => readNumber t

/-! A display of lists and dictionaries has the brackets, colons and commas of JSON. What differs is what stands between
them: other words, other escapes in strings, and whole numbers that are not rounded. -/

def start (s : State) (u : UInt16) : Option State :=
  if isBlank u then some { s with lexeme := .between }
  else if u = unit '"' then some { s with lexeme := .chars [] }
  else if u = unit '-' ∨ isDigit u then some { s with lexeme := .number [u] }
  else if isNameUnit u then some { s with lexeme := .word [u] }
  else (punctuation u).bind s.take

def step (s : State) (u : UInt16) : Option State :=
  match s.lexeme with
  | .between => start s u
  | .number seen =>
      if isNumberUnit u then some { s with lexeme := .number (seen ++ [u]) }
      else ((numberValue seen).bind (fun n => s.take (.scalar (.num n)))).bind (start · u)
  | .word seen =>
      if isNameUnit u || isDigit u then some { s with lexeme := .word (seen ++ [u]) }
      else ((words.lookup seen).bind (fun v => s.take (.scalar v))).bind (start · u)
  | .chars seen =>
      if u = unit '"' then s.take (.text seen)
      else if u = unit '\\' then some { s with lexeme := .escape seen }
      else if u = unit '\n' ∨ u = unit '\r' then none
      else some { s with lexeme := .chars (seen ++ [u]) }
  | .escape seen => (escapes.lookup u).map (fun v => { s with lexeme := .chars (seen ++ [v]) })
  | .unicode _ _ => none

def finish (s : State) : Option (Value Number) :=
  match s.lexeme with
  | .between => s.value
  | .number seen => ((numberValue seen).bind (fun n => s.take (.scalar (.num n)))).bind State.value
  | .word seen => ((words.lookup seen).bind (fun v => s.take (.scalar v))).bind State.value
  | _ => none

def read (s : State) : Text → Option (Value Number)
  | [] => finish s
  | u :: t => (step s u).bind (read · t)

/-- The value of an expression that is a literal or a display of such, and of nothing else. -/
def eval (t : Text) : Option (Value Number) := read ⟨.between, .value, []⟩ t

/-- A text with its backslashes doubled and a backslash before each apostrophe. -/
def guarded (t : Text) : Text :=
  t.flatMap fun u =>
    if u = unit '\\' then [unit '\\', unit '\\'] else if u = unit '\'' then [unit '\\', unit '\''] else [u]

theorem guarded_cons (u : UInt16) (t : Text) :
    guarded (u :: t) = (if u = unit '\\' then [unit '\\', unit '\\'] else if u = unit '\'' then [unit '\\', unit '\'']
      else [u]) ++ guarded t := rfl

theorem guarded_append (t rest : Text) : guarded (t ++ rest) = guarded t ++ guarded rest := List.flatMap_append

theorem read_of_step {s s' : State} {u : UInt16} (h : step s u = some s') (t : Text) : read s (u :: t) = read s' t := by
  rw [read, h, Option.bind_some]

/-! What is asked of the texts holds at every step, if it holds of what is taken. -/

section Steps

variable {c : UInt16}

def PointLacks (c : UInt16) : Point → Prop
  | .value | .first | .firstKey => True
  | .key done => Everywhere (Lacks c) (.obj done)
  | .colon done key => Everywhere (Lacks c) (.obj done) ∧ c ∉ key
  | .after v => Everywhere (Lacks c) v

def LevelLacks (c : UInt16) : Level → Prop
  | .items done => Everywhere (Lacks c) (.arr done)
  | .fields done key => Everywhere (Lacks c) (.obj done) ∧ c ∉ key

def TokenLacks (c : UInt16) : Token → Prop
  | .text t => c ∉ t
  | .scalar v => Everywhere (Lacks c) v
  | _ => True

theorem lacks_concat {done : List (Value Number)} {v : Value Number} (hdone : Everywhere (Lacks c) (.arr done))
    (hv : Everywhere (Lacks c) v) : Everywhere (Lacks c) (.arr (done ++ [v])) :=
  ⟨trivial, everywhereItems_iff.mpr (List.forall_mem_append.mpr
    ⟨everywhereItems_iff.mp hdone.2, List.forall_mem_singleton.mpr hv⟩)⟩

theorem lacks_setField {done : List (Text × Value Number)} {key : Text} {v : Value Number}
    (hdone : Everywhere (Lacks c) (.obj done)) (hkey : c ∉ key) (hv : Everywhere (Lacks c) v) :
    Everywhere (Lacks c) (.obj (setField done key v)) := by
  have hfields (f : Text × Value Number) (hf : f ∈ setField done key v) : c ∉ f.1 ∧ Everywhere (Lacks c) f.2 := by
    have hold (f : Text × Value Number) (hf : f ∈ done) : c ∉ f.1 ∧ Everywhere (Lacks c) f.2 :=
      ⟨hdone.1 f hf, everywhereFields_iff.mp hdone.2 f hf⟩
    rw [setField] at hf
    split at hf
    next =>
      obtain ⟨g, hg, rfl⟩ := List.mem_map.mp hf
      split
      next => exact ⟨hkey, hv⟩
      next => exact hold g hg
    next =>
      obtain hf | hf := List.mem_append.mp hf
      · exact hold f hf
      · rw [List.mem_singleton.mp hf]
        exact ⟨hkey, hv⟩
  exact ⟨fun f hf => (hfields f hf).1, everywhereFields_iff.mpr fun f hf => (hfields f hf).2⟩

theorem opens_lacks {point : Point} {levels others : List Level} (hlevels : ∀ l ∈ levels, LevelLacks c l)
    (h : point.opens levels = some others) : ∀ l ∈ others, LevelLacks c l := by
  cases point with
  | value =>
      cases h
      exact hlevels
  | first =>
      cases h
      exact List.forall_mem_cons.mpr ⟨⟨trivial, trivial⟩, hlevels⟩
  | _ => cases h

theorem advance_lacks {point next : Point} {levels others : List Level} {token : Token} (hpoint : PointLacks c point)
    (hlevels : ∀ l ∈ levels, LevelLacks c l) (htoken : TokenLacks c token)
    (h : advance point levels token = some (next, others)) : PointLacks c next ∧ ∀ l ∈ others, LevelLacks c l := by
  have hnil : Everywhere (Lacks c) (.obj []) := ⟨List.forall_mem_nil _, trivial⟩
  rw [advance.eq_def] at h
  split at h
  · cases h
    exact ⟨⟨trivial, trivial⟩, hlevels⟩
  · cases h
    exact ⟨hnil, hlevels⟩
  · cases h
    exact ⟨⟨hnil, htoken⟩, hlevels⟩
  · cases h
    exact ⟨⟨hpoint, htoken⟩, hlevels⟩
  · cases h
    exact ⟨trivial, List.forall_mem_cons.mpr ⟨hpoint, hlevels⟩⟩
  · cases h
    obtain ⟨hdone, hrest⟩ := List.forall_mem_cons.mp hlevels
    exact ⟨trivial, List.forall_mem_cons.mpr ⟨lacks_concat hdone hpoint, hrest⟩⟩
  · cases h
    obtain ⟨hdone, hrest⟩ := List.forall_mem_cons.mp hlevels
    exact ⟨lacks_concat hdone hpoint, hrest⟩
  · cases h
    obtain ⟨hdone, hrest⟩ := List.forall_mem_cons.mp hlevels
    exact ⟨lacks_setField hdone.1 hdone.2 hpoint, hrest⟩
  · cases h
    obtain ⟨hdone, hrest⟩ := List.forall_mem_cons.mp hlevels
    exact ⟨lacks_setField hdone.1 hdone.2 hpoint, hrest⟩
  · obtain ⟨inner, hinner, heq⟩ := Option.map_eq_some_iff.mp h
    cases heq
    exact ⟨trivial, opens_lacks hlevels hinner⟩
  · obtain ⟨inner, hinner, heq⟩ := Option.map_eq_some_iff.mp h
    cases heq
    exact ⟨trivial, opens_lacks hlevels hinner⟩
  · obtain ⟨inner, hinner, heq⟩ := Option.map_eq_some_iff.mp h
    cases heq
    exact ⟨htoken, opens_lacks hlevels hinner⟩
  · obtain ⟨inner, hinner, heq⟩ := Option.map_eq_some_iff.mp h
    cases heq
    exact ⟨htoken, opens_lacks hlevels hinner⟩
  · cases h

def LexemeLacks (c : UInt16) : Lexeme → Prop
  | .chars seen => c ∉ seen
  | .between | .number _ | .word _ => True
  | .escape _ | .unicode _ _ => False

/-- What has been read so far lacks a unit, and no escape is open. -/
structure StateLacks (c : UInt16) (s : State) : Prop where
  point : PointLacks c s.point
  levels : ∀ l ∈ s.levels, LevelLacks c l
  lexeme : LexemeLacks c s.lexeme

theorem take_lacks {s s' : State} {token : Token} (hs : StateLacks c s) (htoken : TokenLacks c token)
    (h : s.take token = some s') : StateLacks c s' := by
  obtain ⟨⟨next, others⟩, hadvance, rfl⟩ := Option.map_eq_some_iff.mp h
  obtain ⟨hpoint, hlevels⟩ := advance_lacks hs.point hs.levels htoken hadvance
  exact ⟨hpoint, hlevels, trivial⟩

theorem punctuation_lacks {u : UInt16} {token : Token} (h : punctuation u = some token) : TokenLacks c token := by
  have hmem := mem_of_lookup h
  simp only [List.mem_cons, Prod.mk.injEq, List.not_mem_nil, or_false] at hmem
  obtain ⟨-, rfl⟩ | ⟨-, rfl⟩ | ⟨-, rfl⟩ | ⟨-, rfl⟩ | ⟨-, rfl⟩ | ⟨-, rfl⟩ := hmem
  all_goals trivial

theorem start_lacks {s s' : State} {u : UInt16} (hs : StateLacks c s) (h : start s u = some s') : StateLacks c s' := by
  rw [start] at h
  split at h
  · cases h
    exact ⟨hs.point, hs.levels, trivial⟩
  split at h
  · cases h
    exact ⟨hs.point, hs.levels, List.not_mem_nil⟩
  split at h
  · cases h
    exact ⟨hs.point, hs.levels, trivial⟩
  split at h
  · cases h
    exact ⟨hs.point, hs.levels, trivial⟩
  · obtain ⟨token, htoken, htake⟩ := Option.bind_eq_some_iff.mp h
    exact take_lacks hs (punctuation_lacks htoken) htake

theorem words_lack {seen : Text} {v : Value Number} (h : words.lookup seen = some v) : Everywhere (Lacks c) v := by
  have hmem := mem_of_lookup h
  simp only [words, List.mem_cons, Prod.mk.injEq, List.not_mem_nil, or_false] at hmem
  obtain ⟨-, rfl⟩ | ⟨-, rfl⟩ | ⟨-, rfl⟩ := hmem
  all_goals trivial

/-- A unit that opens no escape. -/
theorem step_lacks {s s' : State} {u : UInt16} (hs : StateLacks (unit '"') s) (hu : u ≠ unit '\\')
    (h : step s u = some s') : StateLacks (unit '"') s' := by
  obtain ⟨lexeme, point, levels⟩ := s
  cases lexeme with
  | between => exact start_lacks hs h
  | number seen =>
      rw [step] at h
      dsimp only at h
      split at h
      next =>
        cases h
        exact ⟨hs.point, hs.levels, trivial⟩
      next =>
        obtain ⟨next, hnext, hstart⟩ := Option.bind_eq_some_iff.mp h
        obtain ⟨n, -, htake⟩ := Option.bind_eq_some_iff.mp hnext
        have htoken : TokenLacks (unit '"') (.scalar (.num n)) := trivial
        exact start_lacks (take_lacks hs htoken htake) hstart
  | word seen =>
      rw [step] at h
      dsimp only at h
      split at h
      next =>
        cases h
        exact ⟨hs.point, hs.levels, trivial⟩
      next =>
        obtain ⟨next, hnext, hstart⟩ := Option.bind_eq_some_iff.mp h
        obtain ⟨v, hv, htake⟩ := Option.bind_eq_some_iff.mp hnext
        have htoken : TokenLacks (unit '"') (.scalar v) := words_lack hv
        exact start_lacks (take_lacks hs htoken htake) hstart
  | chars seen =>
      rw [step] at h
      dsimp only at h
      split at h
      next =>
        have htoken : TokenLacks (unit '"') (.text seen) := hs.lexeme
        exact take_lacks hs htoken h
      next hquote =>
        split at h
        next => cases h
        next =>
          cases h
          exact ⟨hs.point, hs.levels, fun hmem => (List.mem_append.mp hmem).elim hs.lexeme
            fun heq => hquote (List.mem_singleton.mp heq).symm⟩
  | escape seen => exact hs.lexeme.elim
  | unicode seen digits => exact hs.lexeme.elim

/-- Outside of a string, a backslash is nothing. -/
theorem step_backslash {s s' : State} (hs : StateLacks c s) (h : step s (unit '\\') = some s') :
    ∃ seen, s.lexeme = .chars seen ∧ s' = ⟨.escape seen, s.point, s.levels⟩ := by
  have hstart (s : State) : start s (unit '\\') = none := rfl
  obtain ⟨lexeme, point, levels⟩ := s
  cases lexeme with
  | between => cases (hstart _).symm.trans h
  | number seen =>
      have hunit : isNumberUnit (unit '\\') = false := by decide
      rw [step] at h
      dsimp only at h
      rw [hunit, if_neg Bool.false_ne_true] at h
      obtain ⟨next, -, hnext⟩ := Option.bind_eq_some_iff.mp h
      cases (hstart _).symm.trans hnext
  | word seen =>
      have hunit : (isNameUnit (unit '\\') || isDigit (unit '\\')) = false := by decide
      rw [step] at h
      dsimp only at h
      rw [hunit, if_neg Bool.false_ne_true] at h
      obtain ⟨next, -, hnext⟩ := Option.bind_eq_some_iff.mp h
      cases (hstart _).symm.trans hnext
  | chars seen =>
      cases h
      exact ⟨seen, rfl, rfl⟩
  | escape seen => exact hs.lexeme.elim
  | unicode seen digits => exact hs.lexeme.elim

theorem finish_lacks {s : State} {v : Value Number} (hs : StateLacks c s) (h : finish s = some v) :
    Everywhere (Lacks c) v := by
  have hvalue {s : State} (hs : StateLacks c s) (h : s.value = some v) : Everywhere (Lacks c) v := by
    rw [State.value] at h
    split at h
    next heq _ =>
      cases h
      have hpoint := hs.point
      rwa [heq] at hpoint
    next => cases h
  rw [finish] at h
  split at h
  next => exact hvalue hs h
  next =>
    obtain ⟨next, hnext, hlast⟩ := Option.bind_eq_some_iff.mp h
    obtain ⟨n, -, htake⟩ := Option.bind_eq_some_iff.mp hnext
    have htoken : TokenLacks c (.scalar (.num n)) := trivial
    exact hvalue (take_lacks hs htoken htake) hlast
  next =>
    obtain ⟨next, hnext, hlast⟩ := Option.bind_eq_some_iff.mp h
    obtain ⟨w, hw, htake⟩ := Option.bind_eq_some_iff.mp hnext
    have htoken : TokenLacks c (.scalar w) := words_lack hw
    exact hvalue (take_lacks hs htoken htake) hlast
  next => cases h

/-- What is read of a guarded text has no double quotes. -/
theorem read_lacks {t : Text} {s : State} {v : Value Number} (hs : StateLacks (unit '"') s)
    (h : read s (guarded t) = some v) : Everywhere (Lacks (unit '"')) v := by
  induction t generalizing s with
  | nil => exact finish_lacks hs h
  | cons u t ih =>
      have hpair {letter : UInt16} (hletter : letter ≠ unit '"')
          (hescape : escapes.lookup letter = some letter) (h : read s (unit '\\' :: letter :: guarded t) = some v) :
          Everywhere (Lacks (unit '"')) v := by
        rw [read, Option.bind_eq_some_iff] at h
        obtain ⟨next, hnext, hrest⟩ := h
        obtain ⟨seen, hlexeme, rfl⟩ := step_backslash hs hnext
        have hstep : step ⟨.escape seen, s.point, s.levels⟩ letter =
            some ⟨.chars (seen ++ [letter]), s.point, s.levels⟩ := by
          rw [step]
          dsimp only
          rw [hescape, Option.map_some]
        rw [read_of_step hstep] at hrest
        have hseen := hs.lexeme
        rw [hlexeme] at hseen
        have hchars : unit '"' ∉ seen ++ [letter] := fun hmem =>
          (List.mem_append.mp hmem).elim hseen fun heq => hletter (List.mem_singleton.mp heq).symm
        exact ih (s := ⟨.chars (seen ++ [letter]), s.point, s.levels⟩) ⟨hs.point, hs.levels, hchars⟩ hrest
      rw [guarded_cons] at h
      split at h
      next => exact hpair (by decide) rfl h
      next hslash =>
        split at h
        next => exact hpair (by decide) rfl h
        next =>
          rw [List.singleton_append, read, Option.bind_eq_some_iff] at h
          obtain ⟨next, hnext, hrest⟩ := h
          exact ih (step_lacks hs hslash hnext) hrest

theorem eval_lacks {t : Text} {v : Value Number} (h : eval (guarded t) = some v) : Everywhere (Lacks (unit '"')) v :=
  read_lacks (s := ⟨.between, .value, []⟩) ⟨trivial, List.forall_mem_nil _, trivial⟩ h

end Steps

/-! What is read of the JSON text of a value without double quotes. -/

section Misreadings

theorem inside_escapeUnits {t : Text} (ht : unit '"' ∉ t) : ∀ v ∈ escapeUnits t, v ≠ unit '"' ∧ ¬v < 0x20 := by
  refine forall_escapeUnits (by decide) (by decide) (by decide) (fun e he hmem => ?_) fun u _ hu => ?_
  · have hall : Json.Reading.escapes.all
        (fun e => e.2 == unit '"' || (e.1 != unit '"' && !decide (e.1 < 0x20))) = true := by decide
    have hcheck := List.all_eq_true.mp hall e he
    rw [Bool.or_eq_true, Bool.and_eq_true, beq_iff_eq, bne_iff_ne, Bool.not_eq_true', decide_eq_false_iff_not] at hcheck
    exact hcheck.resolve_left fun h => ht (h ▸ hmem)
  · rw [needsEscape, Bool.or_eq_false_iff, Bool.or_eq_false_iff, decide_eq_false_iff_not, beq_eq_false_iff_ne] at hu
    exact ⟨hu.1.2, hu.1.1⟩


variable {p : Point} {ls levels : List Level}

/-- What follows a value is a sign of the display. -/
def Ends (rest : Text) : Prop := ∀ u ∈ rest.head?, u ∈ [unit ',', unit ']', unit '}']

theorem guarded_of_plain {t : Text} (h : ∀ u ∈ t, u ≠ unit '\\' ∧ u ≠ unit '\'') : guarded t = t := by
  induction t with
  | nil => rfl
  | cons u t ih =>
      obtain ⟨⟨hslash, hquote⟩, ht⟩ := List.forall_mem_cons.mp h
      rw [guarded_cons, if_neg hslash, if_neg hquote, ih ht, List.singleton_append]

theorem start_number {u : UInt16} (hu : u = unit '-' ∨ isDigit u = true) :
    step ⟨.between, p, ls⟩ u = some ⟨.number [u], p, ls⟩ := by
  have hblank : isBlank u = false := hu.elim (fun h => h ▸ rfl) isBlank_of_isDigit
  have hquote : u ≠ unit '"' := by
    rintro rfl
    exact absurd hu (by decide)
  simp only [step, start, hblank, Bool.false_eq_true, if_false, if_neg hquote, if_pos hu]

theorem read_number (seen t rest : Text) (ht : ∀ u ∈ t, isNumberUnit u = true) :
    read ⟨.number seen, p, ls⟩ (t ++ rest) = read ⟨.number (seen ++ t), p, ls⟩ rest := by
  induction t generalizing seen with
  | nil => rw [List.append_nil, List.nil_append]
  | cons u t ih =>
      have hu : step ⟨.number seen, p, ls⟩ u = some ⟨.number (seen ++ [u]), p, ls⟩ := by
        simp only [step, if_pos (ht u List.mem_cons_self)]
      rw [List.cons_append, read_of_step hu, ih _ (fun v hv => ht v (List.mem_cons_of_mem u hv)), List.append_assoc,
        List.singleton_append]

theorem read_number_end {seen rest : Text} (hopens : p.opens ls = some levels) (hrest : Ends rest) :
    read ⟨.number seen, p, ls⟩ rest =
      (numberValue seen).bind fun n => read ⟨.between, .after (.num n), levels⟩ rest := by
  cases rest with
  | nil =>
      simp only [read, finish]
      cases numberValue seen with
      | none => rfl
      | some n => simp only [Option.bind_some, take_scalar hopens]
  | cons u t =>
      have hunit : isNumberUnit u = false := by
        have hall : [unit ',', unit ']', unit '}'].all (fun u => !isNumberUnit u) = true := by decide
        simpa using List.all_eq_true.mp hall u (hrest u rfl)
      simp only [read, step, hunit, Bool.false_eq_true, if_false]
      cases numberValue seen with
      | none => rfl
      | some n => simp only [Option.bind_some, take_scalar hopens]

/-- The number that is written in a text is read, if it is one to Python. -/
theorem read_numberText {n : Number} (hn : Readable n) (hopens : p.opens ls = some levels) {rest : Text}
    (hrest : Ends rest) : read ⟨.between, p, ls⟩ (guarded (numberText n) ++ rest) =
      (numberValue (numberText n)).bind fun n => read ⟨.between, .after (.num n), levels⟩ rest := by
  obtain ⟨⟨u, t, htext, hu⟩, hunits, -⟩ := hn
  have hplain : ∀ u ∈ numberText n, u ≠ unit '\\' ∧ u ≠ unit '\'' := by
    intro v hv
    have hunit := hunits v hv
    refine ⟨?_, ?_⟩
    · rintro rfl
      exact absurd hunit (by decide)
    · rintro rfl
      exact absurd hunit (by decide)
  rw [guarded_of_plain hplain, htext] at *
  rw [List.cons_append, read_of_step (start_number hu),
    read_number _ _ _ (fun v hv => hunits v (List.mem_cons_of_mem u hv))]
  exact read_number_end hopens hrest

theorem read_word (seen t rest : Text) (ht : ∀ u ∈ t, isNameUnit u = true) :
    read ⟨.word seen, p, ls⟩ (t ++ rest) = read ⟨.word (seen ++ t), p, ls⟩ rest := by
  induction t generalizing seen with
  | nil => rw [List.append_nil, List.nil_append]
  | cons u t ih =>
      have hu : step ⟨.word seen, p, ls⟩ u = some ⟨.word (seen ++ [u]), p, ls⟩ := by
        simp only [step, ht u List.mem_cons_self, Bool.true_or, if_true]
      rw [List.cons_append, read_of_step hu, ih _ (fun v hv => ht v (List.mem_cons_of_mem u hv)), List.append_assoc,
        List.singleton_append]

/-- The words of JSON are names. -/
theorem read_unknown {w : Text} (hw : w ∈ [text "null", text "true", text "false"]) {rest : Text} (hrest : Ends rest) :
    read ⟨.between, p, ls⟩ (guarded w ++ rest) = none := by
  have hend (seen : Text) (hseen : words.lookup seen = none) : read ⟨.word seen, p, ls⟩ rest = none := by
    cases rest with
    | nil => rw [read, finish]; dsimp only; rw [hseen]; rfl
    | cons u t =>
        have hall : [unit ',', unit ']', unit '}'].all (fun u => !(isNameUnit u || isDigit u)) = true := by decide
        have hunit : (isNameUnit u || isDigit u) = false := by
          simpa using List.all_eq_true.mp hall u (hrest u rfl)
        rw [read, step]
        dsimp only
        rw [hunit, hseen]
        rfl
  have hword {u : UInt16} {t : Text} (hu : step ⟨.between, p, ls⟩ u = some ⟨.word [u], p, ls⟩)
      (ht : t.all isNameUnit = true) (hvalue : words.lookup (u :: t) = none) :
      read ⟨.between, p, ls⟩ (u :: (t ++ rest)) = none := by
    rw [read_of_step hu, read_word _ _ _ (List.all_eq_true.mp ht)]
    exact hend _ hvalue
  simp only [List.mem_cons, List.not_mem_nil, or_false] at hw
  obtain rfl | rfl | rfl := hw
  · exact @hword (unit 'n') (text "ull") rfl (by decide) rfl
  · exact @hword (unit 't') (text "rue") rfl (by decide) rfl
  · exact @hword (unit 'f') (text "alse") rfl (by decide) rfl

/-- A guarded text without double quotes and line ends is read as it is. -/
theorem read_chars {t : Text} (ht : ∀ v ∈ t, v ≠ unit '"' ∧ ¬v < 0x20) (seen rest : Text) :
    read ⟨.chars seen, p, ls⟩ (guarded t ++ rest) = read ⟨.chars (seen ++ t), p, ls⟩ rest := by
  induction t generalizing seen with
  | nil => rw [List.append_nil]; rfl
  | cons u t ih =>
      obtain ⟨⟨hquote, hlow⟩, ht⟩ := List.forall_mem_cons.mp ht
      have hfirst : read ⟨.chars seen, p, ls⟩ (guarded (u :: t) ++ rest) =
          read ⟨.chars (seen ++ [u]), p, ls⟩ (guarded t ++ rest) := by
        rw [guarded_cons]
        split
        next hslash =>
          subst hslash
          rfl
        next hslash =>
          split
          next hapostrophe =>
            subst hapostrophe
            rfl
          next =>
            have hline : ¬(u = unit '\n' ∨ u = unit '\r') := by
              rintro (rfl | rfl)
              · exact hlow (by decide)
              · exact hlow (by decide)
            have hstep : step ⟨.chars seen, p, ls⟩ u = some ⟨.chars (seen ++ [u]), p, ls⟩ := by
              simp only [step, if_neg hquote, if_neg hslash, if_neg hline]
            rw [List.singleton_append, List.cons_append, read_of_step hstep]
      rw [hfirst, ih ht, List.append_assoc, List.singleton_append]

theorem read_quote {t : Text} (ht : unit '"' ∉ t) (rest : Text) :
    read ⟨.between, p, ls⟩ (guarded (quote t) ++ rest) =
      (State.take ⟨.between, p, ls⟩ (.text (escapeUnits t))).bind (read · rest) := by
  have hopen : step ⟨.between, p, ls⟩ (unit '"') = some ⟨.chars [], p, ls⟩ := rfl
  have hguarded : guarded (quote t) = unit '"' :: (guarded (escapeUnits t) ++ [unit '"']) := by
    rw [quote, guarded_cons, guarded_append]
    rfl
  rw [hguarded, List.cons_append, read_of_step hopen, List.append_assoc, read_chars (inside_escapeUnits ht)]
  rfl

mutual

/-- What the JSON text of a value without double quotes is in Python. -/
def misread : Value Number → Option (Value Number)
  | .null | .bool _ | .num (.infinite _) => none
  | .num (.finite q) => (numberValue (numberText (.finite q))).map .num
  | .str t => some (.str (escapeUnits t))
  | .arr items => (misreadItems items).map .arr
  | .obj fields => (misreadFields fields).map .obj

def misreadItems : List (Value Number) → Option (List (Value Number))
  | [] => some []
  | v :: items => (misread v).bind fun w => (misreadItems items).map (w :: ·)

def misreadFields : List (Text × Value Number) → Option (List (Text × Value Number))
  | [] => some []
  | (key, v) :: fields => (misread v).bind fun w => (misreadFields fields).map ((escapeUnits key, w) :: ·)

end

/-- What `JSON.parse` returns: no name twice, and numbers that are doubles. -/
def Decoded : Value Number → Prop
  | .num (.finite q) => Readable (.finite q)
  | .obj fields => (fields.map Prod.fst).Nodup
  | _ => True

theorem ends_cons {u : UInt16} (hu : u ∈ [unit ',', unit ']', unit '}']) (rest : Text) : Ends (u :: rest) := by
  rintro v ⟨⟩
  exact hu

theorem step_openBracket (hopens : p.opens ls = some levels) :
    step ⟨.between, p, ls⟩ (unit '[') = some ⟨.between, .first, levels⟩ := take_openBracket hopens

theorem step_openBrace (hopens : p.opens ls = some levels) :
    step ⟨.between, p, ls⟩ (unit '{') = some ⟨.between, .firstKey, levels⟩ := take_openBrace hopens

theorem guarded_join (a b : Text) (ts : List Text) : guarded (join (unit ',') (a :: b :: ts)) =
    guarded a ++ unit ',' :: guarded (join (unit ',') (b :: ts)) := by
  rw [join_cons_cons, guarded_append, guarded_cons]
  rfl

mutual

theorem read_stringify (v : Value Number) (hv : Everywhere Decoded v) (hquote : Everywhere (Lacks (unit '"')) v) (p : Point)
    (ls levels : List Level) (hopens : p.opens ls = some levels) (rest : Text) (hrest : Ends rest) :
    read ⟨.between, p, ls⟩ (guarded (stringify v) ++ rest) =
      (misread v).bind fun w => read ⟨.between, .after w, levels⟩ rest := by
  match v with
  | .null => exact read_unknown (by simp [stringify]) hrest
  | .bool true => exact read_unknown (by simp [stringify]) hrest
  | .bool false => exact read_unknown (by simp [stringify]) hrest
  | .num (.infinite negative) => exact read_unknown (by simp [stringify]) hrest
  | .num (.finite q) =>
      rw [stringify, read_numberText hv hopens hrest, misread, Option.bind_map]
      rfl
  | .str t =>
      rw [stringify, read_quote hquote, take_text hopens]
      rfl
  | .arr items =>
      have hguarded : guarded (stringify (.arr items)) ++ rest =
          unit '[' :: (guarded (join (unit ',') (stringifyItems items)) ++ unit ']' :: rest) := by
        rw [stringify, guarded_cons, guarded_append, List.append_assoc, List.append_assoc]
        rfl
      rw [hguarded, read_of_step (step_openBracket hopens), misread]
      cases items with
      | nil => rfl
      | cons v items =>
          rw [read_items (v :: items) hv.2 hquote.2 (List.cons_ne_nil v items) .first levels [] levels rfl rest,
            Option.bind_map]
          rfl
  | .obj fields =>
      have hguarded : guarded (stringify (.obj fields)) ++ rest =
          unit '{' :: (guarded (join (unit ',') (stringifyFields fields)) ++ unit '}' :: rest) := by
        rw [stringify, guarded_cons, guarded_append, List.append_assoc, List.append_assoc]
        rfl
      rw [hguarded, read_of_step (step_openBrace hopens), misread]
      cases fields with
      | nil => rfl
      | cons f fields =>
          have hkeys : (([] : List (Text × Value Number)).map Prod.fst ++
              (f :: fields).map fun f => escapeUnits f.1).Nodup := by
            have hmap : (f :: fields).map (fun f => escapeUnits f.1) = ((f :: fields).map Prod.fst).map escapeUnits := by
              rw [List.map_map]
              rfl
            rw [List.map_nil, List.nil_append, hmap]
            exact List.Nodup.map (fun _ _ => escapeUnits_inj) hv.1
          rw [read_fields (f :: fields) hv.2 hquote.2 hquote.1 (List.cons_ne_nil f fields) .firstKey levels []
            (.inr ⟨rfl, rfl⟩) hkeys rest, Option.bind_map]
          rfl

theorem read_items (items : List (Value Number)) (hitems : EverywhereItems Decoded items)
    (hquote : EverywhereItems (Lacks (unit '"')) items) (hne : items ≠ []) (p : Point) (ls : List Level)
    (done : List (Value Number)) (levels : List Level) (hopens : p.opens ls = some (.items done :: levels)) (rest : Text) :
    read ⟨.between, p, ls⟩ (guarded (join (unit ',') (stringifyItems items)) ++ unit ']' :: rest) =
      (misreadItems items).bind fun ws => read ⟨.between, .after (.arr (done ++ ws)), levels⟩ rest := by
  match items with
  | [v] =>
      rw [stringifyItems, stringifyItems, join_singleton,
        read_stringify v hitems.1 hquote.1 p ls _ hopens _ (ends_cons (by simp) rest), misreadItems, misreadItems]
      cases misread v with
      | none => rfl
      | some w => rfl
  | v :: w :: items =>
      have hnext (x : Value Number) := read_items (w :: items) hitems.2 hquote.2 (List.cons_ne_nil w items) .value
        (.items (done ++ [x]) :: levels) (done ++ [x]) levels rfl rest
      rw [stringifyItems] at hnext
      rw [stringifyItems, stringifyItems, guarded_join, List.append_assoc, List.cons_append,
        read_stringify v hitems.1 hquote.1 p ls _ hopens _ (ends_cons (by simp) _), misreadItems]
      cases misread v with
      | none => rfl
      | some x =>
          refine (hnext x).trans ?_
          rw [Option.bind_some, Option.bind_map]
          simp only [List.append_assoc, List.singleton_append, Function.comp_def]

theorem read_fields (fields : List (Text × Value Number)) (hfields : EverywhereFields Decoded fields)
    (hquote : EverywhereFields (Lacks (unit '"')) fields) (hnames : ∀ f ∈ fields, unit '"' ∉ f.1) (hne : fields ≠ [])
    (p : Point) (ls : List Level) (done : List (Text × Value Number)) (hp : Keyed done p)
    (hkeys : (done.map Prod.fst ++ fields.map fun f => escapeUnits f.1).Nodup) (rest : Text) :
    read ⟨.between, p, ls⟩ (guarded (join (unit ',') (stringifyFields fields)) ++ unit '}' :: rest) =
      (misreadFields fields).bind fun ws => read ⟨.between, .after (.obj (done ++ ws)), ls⟩ rest := by
  match fields with
  | (key, v) :: fields =>
      obtain ⟨hname, hnames⟩ := List.forall_mem_cons.mp hnames
      have hkey : escapeUnits key ∉ done.map Prod.fst := fun hmem =>
        (List.nodup_append.mp hkeys).2.2 _ hmem _ List.mem_cons_self rfl
      have hfield (after : Text) (hafter : Ends after) :
          read ⟨.between, p, ls⟩ (guarded (quote key ++ unit ':' :: stringify v) ++ after) =
            (misread v).bind fun w => read ⟨.between, .after w, .fields done (escapeUnits key) :: ls⟩ after := by
        have hguarded : guarded (quote key ++ unit ':' :: stringify v) ++ after =
            guarded (quote key) ++ unit ':' :: (guarded (stringify v) ++ after) := by
          rw [guarded_append, guarded_cons, List.append_assoc]
          rfl
        rw [hguarded, read_quote hname, take_key hp, Option.bind_some]
        exact read_stringify v hfields.1 hquote.1 .value (.fields done (escapeUnits key) :: ls) _ rfl after hafter
      cases fields with
      | nil =>
          rw [stringifyFields, stringifyFields, join_singleton, hfield _ (ends_cons (by simp) rest), misreadFields,
            misreadFields]
          cases misread v with
          | none => rfl
          | some w =>
              rw [Option.bind_some, Option.bind_some, Option.map_some, Option.bind_some, ← setField_new hkey]
              rfl
      | cons f fields =>
          have hmore (w : Value Number) : ((done ++ [(escapeUnits key, w)]).map Prod.fst ++
              (f :: fields).map fun f => escapeUnits f.1).Nodup := by
            simpa using hkeys
          have hnext (w : Value Number) := read_fields (f :: fields) hfields.2 hquote.2 hnames (List.cons_ne_nil f fields)
            (.key (done ++ [(escapeUnits key, w)])) ls (done ++ [(escapeUnits key, w)]) (.inl rfl) (hmore w) rest
          rw [stringifyFields] at hnext
          rw [stringifyFields, stringifyFields, guarded_join, List.append_assoc, List.cons_append,
            hfield _ (ends_cons (by simp) _), misreadFields]
          cases misread v with
          | none => rfl
          | some w =>
              have hstep := hnext w
              rw [← setField_new hkey] at hstep
              refine hstep.trans ?_
              rw [Option.bind_some, Option.bind_map, setField_new hkey]
              simp only [List.append_assoc, List.singleton_append, Function.comp_def]

end

/-- Nothing that JSON writes in its own way, and no whole number that is written otherwise than it is. -/
def Plain : Value Number → Prop
  | .null | .bool _ | .num (.infinite _) => False
  | .num (.finite q) => ∀ n ∈ wholeValue (numberText (.finite q)), q = Rat.ofInt n
  | .str t => Unescaped t
  | .arr _ => True
  | .obj fields => ∀ f ∈ fields, Unescaped f.1

theorem numberValue_iff {q : Rat} (hq : Readable (.finite q)) :
    numberValue (numberText (.finite q)) = some (.finite q) ↔
      ∀ n ∈ wholeValue (numberText (.finite q)), q = Rat.ofInt n := by
  rw [numberValue]
  cases wholeValue (numberText (.finite q)) with
  | none => exact iff_of_true hq.2.2 fun n hn => (Option.not_mem_none n hn).elim
  | some n =>
      constructor
      · rintro h m ⟨⟩
        exact (Number.finite.inj (Option.some.inj h)).symm
      · intro h
        exact congrArg (fun q => some (Number.finite q)) (h n rfl).symm

theorem misreadItems_iff {items : List (Value Number)} :
    misreadItems items = some items ↔ ∀ v ∈ items, misread v = some v := by
  induction items with
  | nil => exact iff_of_true rfl (List.forall_mem_nil _)
  | cons v items ih =>
      rw [List.forall_mem_cons, ← ih, misreadItems]
      cases misread v with
      | none => simp
      | some w =>
          cases misreadItems items with
          | none => simp
          | some ws => simp

theorem misreadFields_iff {fields : List (Text × Value Number)} :
    misreadFields fields = some fields ↔ ∀ f ∈ fields, escapeUnits f.1 = f.1 ∧ misread f.2 = some f.2 := by
  induction fields with
  | nil => exact iff_of_true rfl (List.forall_mem_nil _)
  | cons f fields ih =>
      obtain ⟨key, v⟩ := f
      rw [List.forall_mem_cons, ← ih, misreadFields]
      cases misread v with
      | none => simp
      | some w =>
          cases misreadFields fields with
          | none => simp
          | some ws => simp [and_assoc]

theorem misread_iff {v : Value Number} (hv : Everywhere Decoded v) : misread v = some v ↔ Everywhere Plain v := by
  induction v using value_induction with
  | null => exact iff_of_false (by simp [misread]) id
  | bool b => exact iff_of_false (by simp [misread]) id
  | num n =>
      cases n with
      | finite q =>
          rw [misread, Everywhere, Plain, Option.map_eq_some_iff, ← numberValue_iff hv]
          simp only [Value.num.injEq, exists_eq_right]
      | infinite negative => exact iff_of_false (by simp [misread]) id
  | str t => rw [misread, Everywhere, Plain, Option.some.injEq, Value.str.injEq, escapeUnits_eq_iff]
  | arr items ih =>
      rw [misread, Everywhere, Plain, true_and, everywhereItems_iff, Option.map_eq_some_iff]
      simp only [Value.arr.injEq, exists_eq_right, misreadItems_iff]
      exact forall₂_congr fun v hmem => ih v hmem (everywhereItems_iff.mp hv.2 v hmem)
  | obj fields ih =>
      rw [misread, Everywhere, Plain, everywhereFields_iff, Option.map_eq_some_iff]
      simp only [Value.obj.injEq, exists_eq_right, misreadFields_iff, escapeUnits_eq_iff]
      rw [← forall₂_and]
      exact forall₂_congr fun f hf => and_congr_right fun _ => ih f hf (everywhereFields_iff.mp hv.2 f hf)

theorem lacks_of_plain {v : Value Number} (h : Everywhere Plain v) : Everywhere (Lacks (unit '"')) v := by
  have htext {t : Text} (ht : Unescaped t) : unit '"' ∉ t := fun hmem =>
    absurd ((ht.plain _ hmem).symm.trans (by decide : needsEscape (unit '"') = true)) Bool.false_ne_true
  induction v using value_induction with
  | null => trivial
  | bool b => trivial
  | num n => trivial
  | str t => exact htext h
  | arr items ih => exact ⟨trivial, everywhereItems_iff.mpr fun v hv => ih v hv (everywhereItems_iff.mp h.2 v hv)⟩
  | obj fields ih =>
      exact ⟨fun f hf => htext (h.1 f hf),
        everywhereFields_iff.mpr fun f hf => ih f hf (everywhereFields_iff.mp h.2 f hf)⟩

/-- A guarded JSON text is the value to Python exactly when nothing in it is written in a way that only JSON has. -/
theorem eval_stringify_iff {v : Value Number} (hv : Everywhere Decoded v) :
    eval (guarded (stringify v)) = some v ↔ Everywhere Plain v := by
  have hread (hquote : Everywhere (Lacks (unit '"')) v) : eval (guarded (stringify v)) = misread v := by
    have hread := read_stringify v hv hquote .value [] [] rfl [] fun u hu => (Option.not_mem_none u hu).elim
    rw [List.append_nil] at hread
    rw [eval, hread]
    cases misread v with
    | none => rfl
    | some w => rfl
  constructor
  · intro h
    rw [hread (eval_lacks h)] at h
    exact (misread_iff hv).mp h
  · intro h
    rw [hread (lacks_of_plain h)]
    exact (misread_iff hv).mpr h

end Misreadings

end Grammars.PythonLiterals

namespace Grammars.GoStrings

open Strings.CodeUnits Json.Writing SourceLiterals

inductive Mode
  | chars
  | escape
  | unicode (digits : Text)
  | closed

structure State where
  seen : Text
  mode : Mode

/-- The escapes of one letter, with the code units that they stand for. -/
def escapes : List (UInt16 × UInt16) :=
  [(unit 'a', 7), (unit 'b', 8), (unit 'f', 12), (unit 'n', 10), (unit 'r', 13), (unit 't', 9), (unit 'v', 11),
    (unit '\\', unit '\\'), (unit '"', unit '"')]

/-- What may not stand in a literal: the end of a line, NUL and the mark of the byte order. -/
def isRefused (u : UInt16) : Bool := u == unit '\n' || u == 0 || u == 0xFEFF

/-- Half of a surrogate pair is no character to write as an escape. -/
def step (s : State) (u : UInt16) : Option State :=
  match s.mode with
  | .chars =>
      if u = unit '"' then some { s with mode := .closed }
      else if u = unit '\\' then some { s with mode := .escape }
      else if isRefused u then none
      else some { s with seen := s.seen ++ [u] }
  | .escape =>
      if u = unit 'u' then some { s with mode := .unicode [] }
      else (escapes.lookup u).map fun v => ⟨s.seen ++ [v], .chars⟩
  | .unicode digits =>
      if isHexDigit u = false then none
      else if digits.length < 3 then some { s with mode := .unicode (digits ++ [u]) }
      else
        let v := (hexValue (digits ++ [u])).toUInt16
        if isHighSurrogate v || isLowSurrogate v then none else some ⟨s.seen ++ [v], .chars⟩
  | .closed => none

def run (s : State) (t : Text) : Option State := t.foldlM step s

def finish (s : State) : Option Text :=
  match s.mode with
  | .closed => some s.seen
  | _ => none

/-- The string of a literal between double quotes, without the escapes of single bytes. -/
def read : Text → Option Text
  | [] => none
  | u :: t => if u = unit '"' then (run ⟨[], .chars⟩ t).bind finish else none

def isSeparator (u : UInt16) : Bool := u == 0x2028 || u == 0x2029

/-- A text without the separators of lines and paragraphs. -/
def stripped (t : Text) : Text := t.filter (fun u => !isSeparator u)

theorem run_cons {s s' : State} {u : UInt16} (h : step s u = some s') (t : Text) : run s (u :: t) = run s' t := by
  rw [run, List.foldlM_cons, h]
  rfl

theorem run_refused {s : State} {u : UInt16} (h : step s u = none) (t : Text) : run s (u :: t) = none := by
  rw [run, List.foldlM_cons, h]
  rfl

theorem stripped_of_units {t : Text} (h : ∀ u ∈ t, u < 0x80) : stripped t = t := by
  refine List.filter_eq_self.mpr fun u hu => ?_
  have hlt := h u hu
  rw [Bool.not_eq_true', isSeparator, Bool.or_eq_false_iff, beq_eq_false_iff_ne, beq_eq_false_iff_ne]
  refine ⟨?_, ?_⟩
  · rintro rfl
    exact absurd hlt (by decide)
  · rintro rfl
    exact absurd hlt (by decide)

theorem stripped_cons {u : UInt16} (hu : isSeparator u = false) (t : Text) : stripped (u :: t) = u :: stripped t :=
  List.filter_cons_of_pos (Bool.not_eq_true' _ ▸ hu)

theorem stripped_append (t rest : Text) : stripped (t ++ rest) = stripped t ++ stripped rest := List.filter_append ..

theorem run_unicodeEscape (seen : Text) (u : UInt16) (rest : Text) :
    run ⟨seen, .chars⟩ (unicodeEscape u ++ rest) =
      if isHighSurrogate u || isLowSurrogate u then none else run ⟨seen ++ [u], .chars⟩ rest := by
  obtain ⟨a, b, c, d, hescape, ⟨ha, hb, hc, hd⟩, hvalue⟩ := unicodeEscape_digits u
  have hopen : step ⟨seen, .chars⟩ (unit '\\') = some ⟨seen, .escape⟩ := rfl
  have hletter : step ⟨seen, .escape⟩ (unit 'u') = some ⟨seen, .unicode []⟩ := rfl
  have hmore (digits : Text) {v : UInt16} (hv : isHexDigit v = true) (hlength : digits.length < 3) (t : Text) :
      run ⟨seen, .unicode digits⟩ (v :: t) = run ⟨seen, .unicode (digits ++ [v])⟩ t := by
    refine run_cons ?_ t
    simp only [step, hv, Bool.true_eq_false, if_false, if_pos hlength]
  have hlast : step ⟨seen, .unicode [a, b, c]⟩ d =
      if isHighSurrogate u || isLowSurrogate u then none else some ⟨seen ++ [u], .chars⟩ := by
    simp only [step, hd, Bool.true_eq_false, if_false, List.length_cons, List.length_nil, Nat.lt_irrefl,
      List.cons_append, List.nil_append, hvalue]
  simp only [hescape, List.cons_append, List.nil_append]
  rw [run_cons hopen, run_cons hletter]
  refine (hmore [] ha (by decide) _).trans ?_
  refine (hmore [a] hb (Nat.lt_succ_of_lt (Nat.lt_succ_self 1)) _).trans ?_
  refine (hmore [a, b] hc (Nat.lt_succ_self 2) _).trans ?_
  split
  next hsurrogate => exact run_refused (hlast.trans (if_pos hsurrogate)) rest
  next hsurrogate => exact run_cons (hlast.trans (if_neg hsurrogate)) rest

theorem stripped_unicodeEscape (u : UInt16) : stripped (unicodeEscape u) = unicodeEscape u :=
  stripped_of_units (forall_unicodeEscape (by decide) (by decide) (by decide) u)

theorem step_plain {u : UInt16} (hu : needsEscape u = false) (hmark : u ≠ 0xFEFF) (seen : Text) :
    step ⟨seen, .chars⟩ u = some ⟨seen ++ [u], .chars⟩ := by
  rw [needsEscape, Bool.or_eq_false_iff, Bool.or_eq_false_iff, decide_eq_false_iff_not, beq_eq_false_iff_ne,
    beq_eq_false_iff_ne] at hu
  obtain ⟨⟨hlow, hquote⟩, hslash⟩ := hu
  have hline : u ≠ unit '\n' := by
    rintro rfl
    exact hlow (by decide)
  have hzero : u ≠ 0 := by
    rintro rfl
    exact hlow (by decide)
  have hallowed : isRefused u = false := by
    rw [isRefused, beq_eq_false_iff_ne.mpr hline, beq_eq_false_iff_ne.mpr hzero, beq_eq_false_iff_ne.mpr hmark]
    rfl
  simp only [step, if_neg hquote, if_neg hslash, hallowed, Bool.false_eq_true, if_false]

theorem run_escapeUnit (seen : Text) {u : UInt16} (hu : (isHighSurrogate u || isLowSurrogate u) = false) (rest : Text) :
    run ⟨seen, .chars⟩ (stripped (escapeUnit u) ++ rest) =
      if u = 0xFEFF then none else run ⟨seen ++ stripped [u], .chars⟩ rest := by
  obtain ⟨e, he, rfl, heq⟩ | ⟨hlow, heq⟩ | ⟨hplain, heq⟩ := escapeUnit_cases u
  · have hall : Json.Reading.escapes.all (fun e => e.1 != unit 'u' && escapes.lookup e.1 == some e.2 &&
      stripped [unit '\\', e.1] == [unit '\\', e.1] && e.2 != 0xFEFF && stripped [e.2] == [e.2]) = true := by decide
    have hone := List.all_eq_true.mp hall e he
    simp only [Bool.and_eq_true, bne_iff_ne, beq_iff_eq] at hone
    obtain ⟨⟨⟨⟨hletter, hlookup⟩, hescape⟩, hmark⟩, hunit⟩ := hone
    have hopen : step ⟨seen, .chars⟩ (unit '\\') = some ⟨seen, .escape⟩ := rfl
    have hstep : step ⟨seen, .escape⟩ e.1 = some ⟨seen ++ [e.2], .chars⟩ := by
      simp only [step, if_neg hletter, hlookup, Option.map_some]
    rw [heq, hescape, List.cons_append, List.cons_append, List.nil_append, run_cons hopen, run_cons hstep, if_neg hmark,
      hunit]
  · have hlt : u < 0x80 := UInt16.lt_trans hlow (by decide)
    have hmark : u ≠ 0xFEFF := by
      rintro rfl
      exact absurd hlow (by decide)
    rw [heq, stripped_unicodeEscape, run_unicodeEscape, hu, if_neg Bool.false_ne_true, if_neg hmark,
      stripped_of_units (List.forall_mem_singleton.mpr hlt)]
  · rw [heq]
    by_cases hseparator : isSeparator u = true
    · have hempty : stripped [u] = [] := by
        rw [stripped, List.filter_cons_of_neg (by rw [hseparator]; decide)]
        rfl
      have hmark : u ≠ 0xFEFF := by
        rintro rfl
        exact absurd hseparator (by decide)
      rw [hempty, List.nil_append, if_neg hmark, List.append_nil]
    · rw [stripped_cons (Bool.eq_false_iff.mpr hseparator), List.cons_append]
      split
      next hmark =>
        rw [hmark]
        rfl
      next hmark =>
        rw [run_cons (step_plain hplain hmark seen)]
        rfl

theorem step_surrogate {u : UInt16} (hu : (isHighSurrogate u || isLowSurrogate u) = true) (seen : Text) :
    step ⟨seen, .chars⟩ u = some ⟨seen ++ [u], .chars⟩ := by
  have hmark : u ≠ 0xFEFF := by
    rintro rfl
    exact absurd hu (by decide)
  have hge : 0xD800 ≤ u := (Bool.or_eq_true_iff.mp hu).elim isHighSurrogate_ge isLowSurrogate_ge
  exact step_plain (not_needsEscape_of_surrogate hge) hmark seen

theorem surrogate_kept {u : UInt16} (hu : (isHighSurrogate u || isLowSurrogate u) = true) :
    0xFEFF ≠ u ∧ isSeparator u = false := by
  rw [isSeparator, Bool.or_eq_false_iff, beq_eq_false_iff_ne, beq_eq_false_iff_ne]
  refine ⟨?_, ?_, ?_⟩
  · rintro rfl
    exact absurd hu (by decide)
  · rintro rfl
    exact absurd hu (by decide)
  · rintro rfl
    exact absurd hu (by decide)

/-- An escaped text without its separators reads as the text without them, unless something in it is not allowed. -/
theorem run_escapeUnits (t seen rest : Text) :
    run ⟨seen, .chars⟩ (stripped (escapeUnits t) ++ rest) =
      if isPaired t = true ∧ 0xFEFF ∉ t then run ⟨seen ++ stripped t, .chars⟩ rest else none := by
  fun_induction escapeUnits t generalizing seen with
  | case1 =>
      rw [if_pos ⟨rfl, List.not_mem_nil⟩]
      exact congrArg (run ⟨·, .chars⟩ rest) (List.append_nil seen).symm
  | case2 u hlone =>
      have hpaired : ¬isPaired [u] = true := by
        rw [isPaired, hlone]
        exact Bool.false_ne_true
      rw [stripped_unicodeEscape, run_unicodeEscape, if_pos hlone, if_neg fun h => hpaired h.1]
  | case3 u hlone =>
      have hlone := Bool.eq_false_iff.mpr hlone
      have hpaired : isPaired [u] = true := by
        rw [isPaired, hlone]
        rfl
      have hmem : isPaired [u] = true ∧ 0xFEFF ∉ [u] ↔ ¬u = 0xFEFF := by
        rw [and_iff_right hpaired, List.mem_singleton, eq_comm]
      rw [run_escapeUnit seen hlone, if_congr hmem rfl rfl, ite_not]
  | case4 u v t hpair ih =>
      have hpaired : isPaired (u :: v :: t) = isPaired t := by rw [isPaired, if_pos hpair]
      rw [Bool.and_eq_true] at hpair
      have hu : (isHighSurrogate u || isLowSurrogate u) = true := Bool.or_eq_true_iff.mpr (.inl hpair.1)
      have hv : (isHighSurrogate v || isLowSurrogate v) = true := Bool.or_eq_true_iff.mpr (.inr hpair.2)
      obtain ⟨hmark, hkept⟩ := surrogate_kept hu
      obtain ⟨hmark', hkept'⟩ := surrogate_kept hv
      rw [stripped_cons hkept, stripped_cons hkept', stripped_cons hkept, stripped_cons hkept', List.cons_append,
        List.cons_append, run_cons (step_surrogate hu seen), run_cons (step_surrogate hv _), ih, List.append_assoc,
        List.append_assoc]
      refine if_congr ?_ rfl rfl
      rw [hpaired, List.mem_cons, List.mem_cons, or_iff_right hmark, or_iff_right hmark']
  | case5 u v t hpair hlone ih =>
      have hpaired : ¬isPaired (u :: v :: t) = true := by
        rw [isPaired, if_neg hpair, hlone]
        exact Bool.false_ne_true
      rw [stripped_append, stripped_unicodeEscape, List.append_assoc, run_unicodeEscape, if_pos hlone,
        if_neg fun h => hpaired h.1]
  | case6 u v t hpair hlone ih =>
      have hlone := Bool.eq_false_iff.mpr hlone
      have hpaired : isPaired (u :: v :: t) = isPaired (v :: t) := by
        rw [isPaired, if_neg hpair, hlone]
        rfl
      have hstripped : stripped (u :: v :: t) = stripped [u] ++ stripped (v :: t) := stripped_append [u] (v :: t)
      rw [stripped_append, List.append_assoc, run_escapeUnit seen hlone, ih, hstripped, List.append_assoc]
      split
      next hmark => rw [if_neg fun h => h.2 (hmark ▸ List.mem_cons_self)]
      next hmark =>
        have hmem : 0xFEFF ∉ u :: v :: t ↔ 0xFEFF ∉ v :: t :=
          not_congr (List.mem_cons.trans (or_iff_right (Ne.symm hmark)))
        exact if_congr (by rw [hpaired, hmem]) rfl rfl

/-- A text is read back from its JSON literal exactly when nothing was deleted and nothing in it is not allowed. -/
theorem read_stripped_iff {t : Text} :
    read (stripped (quote t)) = some t ↔ isPaired t = true ∧ 0xFEFF ∉ t ∧ ∀ u ∈ t, isSeparator u = false := by
  have hliteral : stripped (quote t) = unit '"' :: (stripped (escapeUnits t) ++ [unit '"']) := by
    rw [quote, stripped_cons (by decide), stripped_append]
    rfl
  have hkept : stripped t = t ↔ ∀ u ∈ t, isSeparator u = false := by
    rw [stripped, List.filter_eq_self]
    exact forall₂_congr fun u _ => by rw [Bool.not_eq_true']
  rw [hliteral, read, if_pos rfl, run_escapeUnits, ← hkept, ← and_assoc]
  split
  next hallowed =>
    have hclosed : (run ⟨[] ++ stripped t, .chars⟩ [unit '"']).bind finish = some (stripped t) := rfl
    rw [hclosed, Option.some.injEq, and_iff_right hallowed]
  next hrefused => exact iff_of_false (Option.some_ne_none t).symm fun h => hrefused h.1

end Grammars.GoStrings
