import Mathlib.Data.List.Basic
import Savitools.Json.RoundTrip

namespace Grammars.TypeExpressions

open Strings.CodeUnits Json.Numbers Json.Values Json.Reading Json.Writing Json.RoundTrip

inductive Keyword
  | unknown
  | number
  | boolean
  | string
  | null
  | true
  | false
  | record

/-- `Record` has the one form in which it stands for every object. -/
def Keyword.render : Keyword → Text
  | .unknown => text "unknown"
  | .number => text "number"
  | .boolean => text "boolean"
  | .string => text "string"
  | .null => text "null"
  | .true => text "true"
  | .false => text "false"
  | .record => text "Record<string, unknown>"

def keywords : List Keyword := [.unknown, .number, .boolean, .string, .null, .true, .false, .record]

/-- A number as it is written. -/
structure Numeral where
  text : Text
  value : Number
  starts : text.head?.any (fun u => u == unit '-' || isDigit u) = true
  units : text.all isNumberUnit = true
  reads : readNumber text = some value

/-! Union binds weaker than intersection, and intersection weaker than the brackets of an array. Each of the
three has a type of its own, so that no expression has an operand that would need parentheses. -/

mutual

inductive Primary
  | keyword (k : Keyword)
  | number (n : Numeral)
  | string (t : Text)
  | emptyTuple
  | tuple (items : Items)
  | object (fields : Fields)
  | group (type : Union)

inductive Items
  | last (type : Union)
  | more (type : Union) (rest : Items)

inductive Fields
  | last (key : Text) (optional : Bool) (type : Union)
  | more (key : Text) (optional : Bool) (type : Union) (rest : Fields)

inductive Intersection
  | one (operand : Primary) (arrays : Nat)
  | and (operand : Primary) (arrays : Nat) (rest : Intersection)

inductive Union
  | one (member : Intersection)
  | or (member : Intersection) (rest : Union)

end

def brackets (n : Nat) : Text := (List.replicate n (text "[]")).flatten

def fieldLabel (key : Text) (optional : Bool) : Text := quote key ++ (if optional then text "?" else []) ++ text ": "

mutual

def Primary.render : Primary → Text
  | .keyword k => k.render
  | .number n => n.text
  | .string t => quote t
  | .emptyTuple => text "[]"
  | .tuple items => text "[" ++ items.render ++ text "]"
  | .object fields => text "\x7b " ++ fields.render ++ text " \x7d"
  | .group type => text "(" ++ type.render ++ text ")"

def Items.render : Items → Text
  | .last type => type.render
  | .more type rest => type.render ++ text "," ++ rest.render

def Fields.render : Fields → Text
  | .last key optional type => fieldLabel key optional ++ type.render
  | .more key optional type rest => fieldLabel key optional ++ type.render ++ text "; " ++ rest.render

def Intersection.render : Intersection → Text
  | .one operand arrays => operand.render ++ brackets arrays
  | .and operand arrays rest => operand.render ++ brackets arrays ++ text " & " ++ rest.render

def Union.render : Union → Text
  | .one member => member.render
  | .or member rest => member.render ++ text " | " ++ rest.render

end

def Keyword.Denotes : Keyword → Value Number → Prop
  | .unknown, _ => True
  | .number, v => ∃ n, v = .num n
  | .boolean, v => ∃ b, v = .bool b
  | .string, v => ∃ t, v = .str t
  | .null, v => v = .null
  | .true, v => v = .bool Bool.true
  | .false, v => v = .bool Bool.false
  | .record, v => ∃ fields, v = .obj fields

def arraysOf (item : Value Number → Prop) (v : Value Number) : Prop := ∃ items, v = .arr items ∧ ∀ w ∈ items, item w

/-- The member of an object that a field speaks of. -/
def hasField (members : List (Text × Value Number)) (key : Text) (optional : Bool) (type : Value Number → Prop) : Prop :=
  (optional = false → (members.lookup key).isSome) ∧ ∀ w, members.lookup key = some w → type w

mutual

/-- The values of a type. An object may have more members than the type names. -/
def Primary.Denotes : Primary → Value Number → Prop
  | .keyword k, v => k.Denotes v
  | .number n, v => v = .num n.value
  | .string t, v => v = .str t
  | .emptyTuple, v => v = .arr []
  | .tuple items, v => ∃ ws, v = .arr ws ∧ items.Denotes ws
  | .object fields, v => ∃ members, v = .obj members ∧ fields.Denotes members
  | .group type, v => type.Denotes v

def Items.Denotes : Items → List (Value Number) → Prop
  | .last type, ws => ∃ w, ws = [w] ∧ type.Denotes w
  | .more type rest, ws => ∃ w others, ws = w :: others ∧ type.Denotes w ∧ rest.Denotes others

def Fields.Denotes : Fields → List (Text × Value Number) → Prop
  | .last key optional type, members => hasField members key optional type.Denotes
  | .more key optional type rest, members => hasField members key optional type.Denotes ∧ rest.Denotes members

def Intersection.Denotes : Intersection → Value Number → Prop
  | .one operand arrays, v => arraysOf^[arrays] operand.Denotes v
  | .and operand arrays rest, v => arraysOf^[arrays] operand.Denotes v ∧ rest.Denotes v

def Union.Denotes : Union → Value Number → Prop
  | .one member, v => member.Denotes v
  | .or member rest, v => member.Denotes v ∨ rest.Denotes v

end

/-- The text of a string up to its closing quote, and what follows. -/
def closeQuote : Text → Text × Text
  | [] => ([], [])
  | u :: t =>
      if u = unit '"' then ([u], t)
      else if u = unit '\\' then
        match t with
        | [] => ([u], [])
        | v :: t => (u :: v :: (closeQuote t).1, (closeQuote t).2)
      else (u :: (closeQuote t).1, (closeQuote t).2)

/-- String literals are read by the rules of JSON, whose strings mean the same. -/
def readString (t : Text) : Option (Primary × Text) :=
  match parse (unit '"' :: (closeQuote t).1) with
  | some (.str s) => some (.string s, (closeQuote t).2)
  | _ => none

def numeralOf (t : Text) : Option Numeral :=
  if h : t.head?.any (fun u => u == unit '-' || isDigit u) = true ∧ t.all isNumberUnit = true ∧ (readNumber t).isSome then
    some ⟨t, (readNumber t).get h.2.2, h.1, h.2.1, (Option.some_get h.2.2).symm⟩
  else none

def readNumeral (t : Text) : Option (Primary × Text) :=
  (numeralOf (t.takeWhile isNumberUnit)).map fun n => (.number n, t.dropWhile isNumberUnit)

def isNameUnit (u : UInt16) : Bool :=
  isDigit u || between 'a' 'z' u || between 'A' 'Z' u || u == unit '_' || u == unit '$'

def readKeyword (t : Text) : Option (Primary × Text) :=
  keywords.findSome? fun k =>
    (t.dropPrefix? k.render).bind fun rest => if rest.head?.any isNameUnit then none else some (.keyword k, rest)

def readBrackets : Text → Nat × Text
  | u :: v :: t => if [u, v] = text "[]" then ((readBrackets t).1 + 1, (readBrackets t).2) else (0, u :: v :: t)
  | t => (0, t)

/-- `"key"` or `"key"?`, with the colon. -/
def readLabel (t : Text) : Option ((Text × Bool) × Text) :=
  (t.dropPrefix? (text "\"")).bind fun t =>
    (readString t).bind fun
      | (.string key, rest) =>
          match rest.dropPrefix? (text "?") with
          | some rest => (rest.dropPrefix? (text ": ")).map ((key, true), ·)
          | none => (rest.dropPrefix? (text ": ")).map ((key, false), ·)
      | _ => none

mutual

def readUnion : Nat → Text → Option (Union × Text)
  | 0, _ => none
  | fuel + 1, t =>
      (readIntersection fuel t).bind fun (member, rest) =>
        match rest.dropPrefix? (text " | ") with
        | none => some (.one member, rest)
        | some rest => (readUnion fuel rest).map fun (others, rest) => (.or member others, rest)

def readIntersection : Nat → Text → Option (Intersection × Text)
  | 0, _ => none
  | fuel + 1, t =>
      (readPrimary fuel t).bind fun (operand, rest) =>
        let arrays := (readBrackets rest).1
        match (readBrackets rest).2.dropPrefix? (text " & ") with
        | none => some (.one operand arrays, (readBrackets rest).2)
        | some rest => (readIntersection fuel rest).map fun (others, rest) => (.and operand arrays others, rest)

def readPrimary : Nat → Text → Option (Primary × Text)
  | 0, _ | _, [] => none
  | fuel + 1, u :: t =>
      if u = unit '(' then
        (readUnion fuel t).bind fun (type, rest) => (rest.dropPrefix? (text ")")).map (.group type, ·)
      else if u = unit '\x7b' then
        (t.dropPrefix? (text " ")).bind fun t =>
          (readFields fuel t).bind fun (fields, rest) => (rest.dropPrefix? (text " \x7d")).map (.object fields, ·)
      else if u = unit '[' then
        match t.dropPrefix? (text "]") with
        | some rest => some (.emptyTuple, rest)
        | none => (readItems fuel t).bind fun (items, rest) => (rest.dropPrefix? (text "]")).map (.tuple items, ·)
      else if u = unit '"' then readString t
      else if u = unit '-' ∨ isDigit u then readNumeral (u :: t)
      else readKeyword (u :: t)

def readItems : Nat → Text → Option (Items × Text)
  | 0, _ => none
  | fuel + 1, t =>
      (readUnion fuel t).bind fun (type, rest) =>
        match rest.dropPrefix? (text ",") with
        | none => some (.last type, rest)
        | some rest => (readItems fuel rest).map fun (others, rest) => (.more type others, rest)

def readFields : Nat → Text → Option (Fields × Text)
  | 0, _ => none
  | fuel + 1, t =>
      (readLabel t).bind fun ((key, optional), rest) =>
        (readUnion fuel rest).bind fun (type, rest) =>
          match rest.dropPrefix? (text "; ") with
          | none => some (.last key optional type, rest)
          | some rest => (readFields fuel rest).map fun (others, rest) => (.more key optional type others, rest)

end

/-- A type expression, with the precedence of its operators. -/
def read (t : Text) : Option Union :=
  match readUnion (3 * t.length) t with
  | some (type, []) => some type
  | _ => none

/-- What may follow a type, and what else may follow a member of a union, a member of an intersection and an operand. -/
def afterUnion : List Text := [text ")", text "]", text ",", text "; ", text " \x7d"]

def afterIntersection : List Text := text " | " :: afterUnion

def afterArrays : List Text := text " & " :: afterIntersection

def afterOperand : List Text := text "[]" :: afterArrays

def Begins (marks : List Text) (t : Text) : Prop := t = [] ∨ ∃ mark ∈ marks, ∃ rest, t = mark ++ rest

theorem dropPrefix_append (mark t : Text) : (mark ++ t).dropPrefix? mark = some t :=
  List.dropPrefix?_eq_some_iff.mpr ⟨mark, rfl, beq_self_eq_true mark⟩

theorem begins_mono {marks others : List Text} {t : Text} (h : Begins marks t) (hsub : marks ⊆ others) : Begins others t := by
  refine h.imp id ?_
  rintro ⟨mark, hmark, ht⟩
  exact ⟨mark, hsub hmark, ht⟩

theorem begins_append {marks : List Text} {mark : Text} (hmark : mark ∈ marks) (rest : Text) : Begins marks (mark ++ rest) :=
  Or.inr ⟨mark, hmark, rest, rfl⟩

/-- What is true of the end and of every mark, whatever follows it, is true of what begins so. -/
theorem begins_elim {marks : List Text} {p : Text → Prop} {t : Text} (h : Begins marks t) (hend : p [])
    (hmarks : ∀ mark ∈ marks, ∀ rest, p (mark ++ rest)) : p t := by
  rcases h with rfl | ⟨mark, hmark, rest, rfl⟩
  · exact hend
  · exact hmarks mark hmark rest

theorem no_bar {rest : Text} (h : Begins afterUnion rest) : rest.dropPrefix? (text " | ") = none := by
  refine begins_elim (p := fun t => t.dropPrefix? (text " | ") = none) h rfl ?_
  simp only [afterUnion, List.forall_mem_cons]
  exact ⟨fun _ => rfl, fun _ => rfl, fun _ => rfl, fun _ => rfl, fun _ => rfl, by simp⟩

theorem no_ampersand {rest : Text} (h : Begins afterIntersection rest) : rest.dropPrefix? (text " & ") = none := by
  refine begins_elim (p := fun t => t.dropPrefix? (text " & ") = none) h rfl ?_
  simp only [afterIntersection, afterUnion, List.forall_mem_cons]
  exact ⟨fun _ => rfl, fun _ => rfl, fun _ => rfl, fun _ => rfl, fun _ => rfl, fun _ => rfl, by simp⟩

theorem mem_keywords (k : Keyword) : k ∈ keywords := by cases k <;> simp [keywords]

/-- No keyword begins with another. -/
theorem dropPrefix_other {j k : Keyword} (hne : j ≠ k) (rest : Text) : (k.render ++ rest).dropPrefix? j.render = none := by
  cases j <;> cases k <;> first | rfl | exact absurd rfl hne

theorem readKeyword_render (k : Keyword) {rest : Text} (hrest : rest.head?.any isNameUnit = false) :
    readKeyword (k.render ++ rest) = some (.keyword k, rest) := by
  obtain ⟨before, after, hsplit, hbefore⟩ := List.eq_append_cons_of_mem (mem_keywords k)
  rw [readKeyword, List.findSome?_eq_some_iff]
  refine ⟨before, k, after, hsplit, ?_, fun j hj => ?_⟩
  · rw [dropPrefix_append, Option.bind_some, hrest]
    rfl
  · have hne : j ≠ k := by
      rintro rfl
      exact hbefore hj
    rw [dropPrefix_other hne, Option.bind_none]

theorem numeralOf_text (n : Numeral) : numeralOf n.text = some n := by
  have hsome : (readNumber n.text).isSome := by rw [n.reads]; rfl
  rw [numeralOf, dif_pos ⟨n.starts, n.units, hsome⟩]
  congr 1
  cases n
  simp_all

theorem readNumeral_text (n : Numeral) {rest : Text} (hrest : rest.head?.any isNumberUnit = false) :
    readNumeral (n.text ++ rest) = some (.number n, rest) := by
  have hunits : ∀ u ∈ n.text, isNumberUnit u = true := List.all_eq_true.mp n.units
  have hstop : rest.takeWhile isNumberUnit = [] ∧ rest.dropWhile isNumberUnit = rest := by
    cases rest with
    | nil => exact ⟨rfl, rfl⟩
    | cons u t =>
        have hu : isNumberUnit u = false := hrest
        simp [hu]
  rw [readNumeral, List.takeWhile_append_of_pos hunits, List.dropWhile_append_of_pos hunits, hstop.1, hstop.2,
    List.append_nil, numeralOf_text]
  rfl

theorem closeQuote_plain {u : UInt16} (hquote : u ≠ unit '"') (hslash : u ≠ unit '\\') (t : Text) :
    closeQuote (u :: t) = (u :: (closeQuote t).1, (closeQuote t).2) := by
  rw [closeQuote.eq_def]
  simp only [if_neg hquote, if_neg hslash]

theorem closeQuote_quote (t : Text) : closeQuote (unit '"' :: t) = ([unit '"'], t) := by
  rw [closeQuote.eq_def]
  simp only [if_pos]

theorem closeQuote_escape (v : UInt16) (t : Text) :
    closeQuote (unit '\\' :: v :: t) = (unit '\\' :: v :: (closeQuote t).1, (closeQuote t).2) := rfl

/-- A piece of a string in which no quote closes it. -/
def Inside (piece : Text) : Prop := ∀ t, closeQuote (piece ++ t) = (piece ++ (closeQuote t).1, (closeQuote t).2)

theorem Inside.append {a b : Text} (ha : Inside a) (hb : Inside b) : Inside (a ++ b) := by
  intro t
  rw [List.append_assoc, ha, hb, List.append_assoc]

theorem inside_plain {u : UInt16} (hquote : u ≠ unit '"') (hslash : u ≠ unit '\\') : Inside [u] :=
  fun t => closeQuote_plain hquote hslash t

theorem inside_nil : Inside [] := fun _ => rfl

theorem inside_of_all {t : Text} (h : ∀ u ∈ t, u ≠ unit '"' ∧ u ≠ unit '\\') : Inside t := by
  induction t with
  | nil => exact inside_nil
  | cons u t ih =>
      obtain ⟨hu, ht⟩ := List.forall_mem_cons.mp h
      exact (inside_plain hu.1 hu.2).append (ih ht)

theorem inside_escape {v : UInt16} : Inside [unit '\\', v] := fun t => closeQuote_escape v t

theorem hexDigit_plain {n : Nat} (hn : n < 16) : hexDigit n ≠ unit '"' ∧ hexDigit n ≠ unit '\\' := by
  have hall : ∀ n < 16, hexDigit n ≠ unit '"' ∧ hexDigit n ≠ unit '\\' := by decide
  exact hall n hn

theorem inside_unicodeEscape (u : UInt16) : Inside (unicodeEscape u) := by
  have hlt : u.toNat < 65536 := u.toNat_lt
  refine @Inside.append [unit '\\', unit 'u'] _ inside_escape (inside_of_all ?_)
  simp only [List.forall_mem_cons]
  exact ⟨hexDigit_plain (by omega), hexDigit_plain (by omega), hexDigit_plain (by omega), hexDigit_plain (by omega),
    fun _ h => absurd h List.not_mem_nil⟩

theorem inside_escapeUnit (u : UInt16) : Inside (escapeUnit u) := by
  rw [escapeUnit]
  split
  next letter v hfind => exact inside_escape
  next hnone =>
    split
    next => exact inside_unicodeEscape u
    next =>
      have hne : ∀ e ∈ escapes, e.2 ≠ u := fun e he => by simpa using List.find?_eq_none.mp hnone e he
      exact inside_plain (hne (unit '"', unit '"') (by decide)).symm (hne (unit '\\', unit '\\') (by decide)).symm

theorem inside_surrogate {u : UInt16} (hu : 0xD800 ≤ u) : Inside [u] := by
  have hge : 0xD800 ≤ u.toNat := UInt16.le_iff_toNat_le.mp hu
  apply inside_plain
  · rintro rfl
    exact absurd hge (by decide)
  · rintro rfl
    exact absurd hge (by decide)

theorem inside_escapeUnits (t : Text) : Inside (escapeUnits t) := by
  fun_induction escapeUnits t with
  | case1 => exact inside_nil
  | case2 u hlone => exact inside_unicodeEscape u
  | case3 u hlone => exact inside_escapeUnit u
  | case4 u v t hpair ih =>
      rw [Bool.and_eq_true] at hpair
      exact (inside_surrogate (isHighSurrogate_ge hpair.1)).append ((inside_surrogate (isLowSurrogate_ge hpair.2)).append ih)
  | case5 u v t hpair hlone ih => exact (inside_unicodeEscape u).append ih
  | case6 u v t hpair hlone ih => exact (inside_escapeUnit u).append ih

theorem readString_quote (t rest : Text) : readString (escapeUnits t ++ text "\"" ++ rest) = some (.string t, rest) := by
  have hclose : closeQuote (escapeUnits t ++ text "\"" ++ rest) = (escapeUnits t ++ [unit '"'], rest) := by
    have hend : closeQuote (text "\"" ++ rest) = ([unit '"'], rest) := closeQuote_quote rest
    rw [List.append_assoc, inside_escapeUnits, hend]
  have hparse : parse (quote t) = some (.str t) := @parse_stringify (.str t) trivial
  rw [readString, hclose]
  change (match parse (quote t) with
    | some (.str s) => some (Primary.string s, rest)
    | _ => none) = _
  rw [hparse]

theorem readLabel_fieldLabel (key : Text) (optional : Bool) (rest : Text) :
    readLabel (fieldLabel key optional ++ rest) = some ((key, optional), rest) := by
  have hquote (after : Text) : (quote key ++ after).dropPrefix? (text "\"") = some (escapeUnits key ++ text "\"" ++ after) :=
    dropPrefix_append (text "\"") _
  have hcolon := dropPrefix_append (text ": ") rest
  rw [fieldLabel, List.append_assoc, List.append_assoc, readLabel, hquote, Option.bind_some, readString_quote,
    Option.bind_some]
  cases optional with
  | false =>
      have hmark : (text ": " ++ rest).dropPrefix? (text "?") = none := rfl
      simp only [Bool.false_eq_true, if_false, List.nil_append, hmark, hcolon, Option.map_some]
  | true =>
      have hmark := dropPrefix_append (text "?") (text ": " ++ rest)
      simp only [if_true, hmark, hcolon, Option.map_some]

theorem readBrackets_brackets (n : Nat) {rest : Text} (hrest : readBrackets rest = (0, rest)) :
    readBrackets (brackets n ++ rest) = (n, rest) := by
  induction n with
  | zero => exact hrest
  | succ n ih =>
      change ((readBrackets (brackets n ++ rest)).1 + 1, (readBrackets (brackets n ++ rest)).2) = _
      rw [ih]

theorem begins_brackets (n : Nat) {rest : Text} (hrest : Begins afterArrays rest) :
    Begins afterOperand (brackets n ++ rest) := by
  cases n with
  | zero => exact begins_mono hrest (List.subset_cons_self _ _)
  | succ n => exact Or.inr ⟨text "[]", List.mem_cons_self, brackets n ++ rest, rfl⟩

theorem readBrackets_none {rest : Text} (h : Begins afterArrays rest) : readBrackets rest = (0, rest) := by
  refine begins_elim (p := fun t => readBrackets t = (0, t)) h rfl ?_
  simp only [afterArrays, afterIntersection, afterUnion, List.forall_mem_cons]
  refine ⟨fun _ => rfl, fun _ => rfl, fun t => ?_, fun t => ?_, fun t => ?_, fun _ => rfl, fun _ => rfl, by simp⟩
  all_goals cases t <;> rfl

theorem stops_operand {rest : Text} (h : Begins afterOperand rest) :
    rest.head?.any isNameUnit = false ∧ rest.head?.any isNumberUnit = false := by
  refine begins_elim (p := fun t => t.head?.any isNameUnit = false ∧ t.head?.any isNumberUnit = false) h ⟨rfl, rfl⟩ ?_
  simp only [afterOperand, afterArrays, afterIntersection, afterUnion, List.forall_mem_cons]
  exact ⟨fun _ => ⟨rfl, rfl⟩, fun _ => ⟨rfl, rfl⟩, fun _ => ⟨rfl, rfl⟩, fun _ => ⟨rfl, rfl⟩, fun _ => ⟨rfl, rfl⟩,
    fun _ => ⟨rfl, rfl⟩, fun _ => ⟨rfl, rfl⟩, fun _ => ⟨rfl, rfl⟩, by simp⟩

mutual

/-- The fuel that reading takes. -/
def Primary.size : Primary → Nat
  | .keyword _ => 1
  | .number _ => 1
  | .string _ => 1
  | .emptyTuple => 1
  | .tuple items => items.size + 1
  | .object fields => fields.size + 1
  | .group type => type.size + 1

def Items.size : Items → Nat
  | .last type => type.size + 1
  | .more type rest => type.size + rest.size + 1

def Fields.size : Fields → Nat
  | .last _ _ type => type.size + 1
  | .more _ _ type rest => type.size + rest.size + 1

def Intersection.size : Intersection → Nat
  | .one operand _ => operand.size + 1
  | .and operand _ rest => operand.size + rest.size + 1

def Union.size : Union → Nat
  | .one member => member.size + 1
  | .or member rest => member.size + rest.size + 1

end

theorem render_pos (k : Keyword) : 1 ≤ k.render.length := by cases k <;> decide

theorem Numeral.text_cons (n : Numeral) : ∃ u t, n.text = u :: t ∧ (u = unit '-' ∨ isDigit u = true) := by
  have hstarts := n.starts
  cases htext : n.text with
  | nil => simp [htext] at hstarts
  | cons u t => exact ⟨u, t, rfl, by simpa [htext] using hstarts⟩

theorem length_quote (t : Text) : 2 ≤ (quote t).length := by simp [quote]

theorem length_fieldLabel (key : Text) (optional : Bool) : 2 ≤ (fieldLabel key optional).length := by
  have hquote := length_quote key
  rw [fieldLabel, List.append_assoc, List.length_append]
  omega

mutual

theorem Primary.size_le (p : Primary) : p.size + 2 ≤ 3 * p.render.length := by
  match p with
  | .keyword k =>
      have hk := render_pos k
      rw [Primary.render, Primary.size]
      omega
  | .number n =>
      obtain ⟨u, t, htext, -⟩ := n.text_cons
      rw [Primary.render, Primary.size, htext, List.length_cons]
      omega
  | .string t =>
      have ht := length_quote t
      rw [Primary.render, Primary.size]
      omega
  | .emptyTuple => decide
  | .tuple items =>
      have hitems := items.size_le
      have htext : (text "[" ++ items.render ++ text "]").length = items.render.length + 2 := by
        simp [text, utf16]
      rw [Primary.render, Primary.size, htext]
      omega
  | .object fields =>
      have hfields := fields.size_le
      have htext : (text "\x7b " ++ fields.render ++ text " \x7d").length = fields.render.length + 4 := by
        simp [text, utf16]
      rw [Primary.render, Primary.size, htext]
      omega
  | .group type =>
      have htype := type.size_le
      have htext : (text "(" ++ type.render ++ text ")").length = type.render.length + 2 := by
        simp [text, utf16]
      rw [Primary.render, Primary.size, htext]
      omega

theorem Items.size_le (items : Items) : items.size ≤ 3 * items.render.length + 1 := by
  match items with
  | .last type =>
      have htype := type.size_le
      rw [Items.render, Items.size]
      omega
  | .more type rest =>
      have htype := type.size_le
      have hrest := rest.size_le
      have htext : (type.render ++ text "," ++ rest.render).length = type.render.length + rest.render.length + 1 := by
        simp [text, utf16]
        omega
      rw [Items.render, Items.size, htext]
      omega

theorem Fields.size_le (fields : Fields) : fields.size ≤ 3 * fields.render.length := by
  match fields with
  | .last key optional type =>
      have hlabel := length_fieldLabel key optional
      have htype := type.size_le
      rw [Fields.render, Fields.size, List.length_append]
      omega
  | .more key optional type rest =>
      have hlabel := length_fieldLabel key optional
      have htype := type.size_le
      have hrest := rest.size_le
      rw [Fields.render, Fields.size, List.length_append, List.length_append, List.length_append]
      omega

theorem Intersection.size_le (i : Intersection) : i.size + 1 ≤ 3 * i.render.length := by
  match i with
  | .one operand arrays =>
      have hoperand := operand.size_le
      rw [Intersection.render, Intersection.size, List.length_append]
      omega
  | .and operand arrays rest =>
      have hoperand := operand.size_le
      have hrest := rest.size_le
      rw [Intersection.render, Intersection.size, List.length_append, List.length_append, List.length_append]
      omega

theorem Union.size_le (type : Union) : type.size ≤ 3 * type.render.length := by
  match type with
  | .one member =>
      have hmember := member.size_le
      rw [Union.render, Union.size]
      omega
  | .or member rest =>
      have hmember := member.size_le
      have hrest := rest.size_le
      rw [Union.render, Union.size, List.length_append, List.length_append]
      omega

end

theorem readPrimary_keyword (fuel : Nat) (k : Keyword) (rest : Text) :
    readPrimary (fuel + 1) (k.render ++ rest) = readKeyword (k.render ++ rest) := by
  cases k <;> rfl

theorem readPrimary_number (fuel : Nat) (n : Numeral) (rest : Text) :
    readPrimary (fuel + 1) (n.text ++ rest) = readNumeral (n.text ++ rest) := by
  obtain ⟨u, t, htext, hu⟩ := n.text_cons
  have hne {v : UInt16} (hv : ¬(v = unit '-' ∨ isDigit v = true)) : u ≠ v := by
    rintro rfl
    exact hv hu
  rw [htext, List.cons_append, readPrimary, if_neg (hne (by decide)), if_neg (hne (by decide)), if_neg (hne (by decide)),
    if_neg (hne (by decide)), if_pos hu]

/-- The bracket that closes an empty tuple begins no type. -/
def Opens (t : Text) : Prop := ∃ u rest, t = u :: rest ∧ u ≠ unit ']'

theorem Opens.append {t : Text} (h : Opens t) (rest : Text) : Opens (t ++ rest) := by
  obtain ⟨u, t, rfl, hu⟩ := h
  exact ⟨u, t ++ rest, rfl, hu⟩

theorem Opens.dropPrefix {t : Text} (h : Opens t) : t.dropPrefix? (text "]") = none := by
  obtain ⟨u, t, rfl, hu⟩ := h
  change (if u == unit ']' then t.dropPrefix? [] else none) = none
  rw [beq_eq_false_iff_ne.mpr hu]
  rfl

theorem Primary.opens (p : Primary) : Opens p.render := by
  cases p with
  | keyword k => cases k <;> exact ⟨_, _, rfl, by decide⟩
  | number n =>
      obtain ⟨u, t, htext, hu⟩ := n.text_cons
      refine ⟨u, t, htext, ?_⟩
      rintro rfl
      exact absurd hu (by decide)
  | string t => exact ⟨unit '"', _, rfl, by decide⟩
  | emptyTuple => exact ⟨unit '[', _, rfl, by decide⟩
  | tuple items => exact ⟨unit '[', _, rfl, by decide⟩
  | object fields => exact ⟨unit '\x7b', _, rfl, by decide⟩
  | group type => exact ⟨unit '(', _, rfl, by decide⟩

theorem Intersection.opens (i : Intersection) : Opens i.render := by
  cases i with
  | one operand arrays => exact operand.opens.append _
  | and operand arrays rest => exact ((operand.opens.append _).append _).append _

theorem Union.opens (type : Union) : Opens type.render := by
  cases type with
  | one member => exact member.opens
  | or member rest => exact (member.opens.append _).append _

theorem Items.opens (items : Items) : Opens items.render := by
  cases items with
  | last type => exact type.opens
  | more type rest => exact (type.opens.append _).append _

theorem readPrimary_emptyTuple (fuel : Nat) (rest : Text) :
    readPrimary (fuel + 1) (text "[]" ++ rest) = some (.emptyTuple, rest) := by
  have hclose : (text "]" ++ rest).dropPrefix? (text "]") = some rest := dropPrefix_append _ _
  change readPrimary (fuel + 1) (unit '[' :: (text "]" ++ rest)) = _
  rw [readPrimary, if_neg (by decide), if_neg (by decide), if_pos rfl]
  simp only [hclose]

theorem readPrimary_tuple (fuel : Nat) {t : Text} (ht : Opens t) :
    readPrimary (fuel + 1) (text "[" ++ t) =
      (readItems fuel t).bind fun (items, rest) => (rest.dropPrefix? (text "]")).map (.tuple items, ·) := by
  change readPrimary (fuel + 1) (unit '[' :: t) = _
  rw [readPrimary, if_neg (by decide), if_neg (by decide), if_pos rfl]
  simp only [ht.dropPrefix]

theorem readPrimary_object (fuel : Nat) (t : Text) :
    readPrimary (fuel + 1) (text "\x7b " ++ t) =
      (readFields fuel t).bind fun (fields, rest) => (rest.dropPrefix? (text " \x7d")).map (.object fields, ·) := by
  have hspace : (text " " ++ t).dropPrefix? (text " ") = some t := dropPrefix_append _ _
  change readPrimary (fuel + 1) (unit '\x7b' :: (text " " ++ t)) = _
  rw [readPrimary, if_neg (by decide), if_pos rfl, hspace, Option.bind_some]

theorem readPrimary_group (fuel : Nat) (t : Text) :
    readPrimary (fuel + 1) (text "(" ++ t) =
      (readUnion fuel t).bind fun (type, rest) => (rest.dropPrefix? (text ")")).map (.group type, ·) := by
  change readPrimary (fuel + 1) (unit '(' :: t) = _
  rw [readPrimary, if_pos rfl]

mutual

theorem Union.read_render (type : Union) {fuel : Nat} (hfuel : type.size ≤ fuel) {rest : Text}
    (hrest : Begins afterUnion rest) :
    readUnion fuel (type.render ++ rest) = some (type, rest) := by
  match type, fuel with
  | .one member, fuel + 1 =>
      have hmember := member.read_render (Nat.le_of_succ_le_succ hfuel) (begins_mono hrest (List.subset_cons_self _ _))
      rw [Union.render, readUnion, hmember, Option.bind_some]
      simp only [no_bar hrest]
  | .or member others, fuel + 1 =>
      rw [Union.size] at hfuel
      have hmember := @member.read_render fuel (by omega) _ (begins_append List.mem_cons_self (others.render ++ rest))
      have hothers := @others.read_render fuel (by omega) rest hrest
      rw [Union.render, List.append_assoc, List.append_assoc, readUnion, hmember, Option.bind_some]
      simp only [dropPrefix_append, hothers, Option.map_some]

theorem Intersection.read_render (i : Intersection) {fuel : Nat} (hfuel : i.size ≤ fuel) {rest : Text}
    (hrest : Begins afterIntersection rest) : readIntersection fuel (i.render ++ rest) = some (i, rest) := by
  match i, fuel with
  | .one operand arrays, fuel + 1 =>
      have hend := begins_mono hrest (List.subset_cons_self (text " & ") _)
      have hoperand := operand.read_render (Nat.le_of_succ_le_succ hfuel) (begins_brackets arrays hend)
      have harrays := readBrackets_brackets arrays (readBrackets_none hend)
      rw [Intersection.render, List.append_assoc, readIntersection, hoperand, Option.bind_some]
      simp only [harrays, no_ampersand hrest]
  | .and operand arrays others, fuel + 1 =>
      rw [Intersection.size] at hfuel
      have hend : Begins afterArrays (text " & " ++ (others.render ++ rest)) := begins_append List.mem_cons_self _
      have hoperand := @operand.read_render fuel (by omega) _ (begins_brackets arrays hend)
      have harrays := readBrackets_brackets arrays (readBrackets_none hend)
      have hothers := @others.read_render fuel (by omega) rest hrest
      rw [Intersection.render, List.append_assoc, List.append_assoc, List.append_assoc, readIntersection, hoperand,
        Option.bind_some]
      simp only [harrays, dropPrefix_append, hothers, Option.map_some]

theorem Primary.read_render (p : Primary) {fuel : Nat} (hfuel : p.size ≤ fuel) {rest : Text}
    (hrest : Begins afterOperand rest) :
    readPrimary fuel (p.render ++ rest) = some (p, rest) := by
  match p, fuel with
  | .keyword k, fuel + 1 =>
      rw [Primary.render, readPrimary_keyword]
      exact readKeyword_render k (stops_operand hrest).1
  | .number n, fuel + 1 =>
      rw [Primary.render, readPrimary_number]
      exact readNumeral_text n (stops_operand hrest).2
  | .string t, fuel + 1 => exact readString_quote t rest
  | .emptyTuple, fuel + 1 =>
      rw [Primary.render]
      exact readPrimary_emptyTuple fuel rest
  | .tuple items, fuel + 1 =>
      have hitems := items.read_render (Nat.le_of_succ_le_succ hfuel) rest
      rw [Primary.render, List.append_assoc, List.append_assoc, readPrimary_tuple fuel (items.opens.append _), hitems,
        Option.bind_some]
      simp only [dropPrefix_append, Option.map_some]
  | .object fields, fuel + 1 =>
      have hfields := fields.read_render (Nat.le_of_succ_le_succ hfuel) rest
      rw [Primary.render, List.append_assoc, List.append_assoc, readPrimary_object, hfields, Option.bind_some]
      simp only [dropPrefix_append, Option.map_some]
  | .group type, fuel + 1 =>
      have hend : Begins afterUnion (text ")" ++ rest) := begins_append List.mem_cons_self _
      have htype := type.read_render (Nat.le_of_succ_le_succ hfuel) hend
      rw [Primary.render, List.append_assoc, List.append_assoc, readPrimary_group, htype, Option.bind_some]
      simp only [dropPrefix_append, Option.map_some]

theorem Items.read_render (items : Items) {fuel : Nat} (hfuel : items.size ≤ fuel) (rest : Text) :
    readItems fuel (items.render ++ (text "]" ++ rest)) = some (items, text "]" ++ rest) := by
  match items, fuel with
  | .last type, fuel + 1 =>
      have hend : Begins afterUnion (text "]" ++ rest) := begins_append (by decide) _
      have hcomma : (text "]" ++ rest).dropPrefix? (text ",") = none := rfl
      have htype := type.read_render (Nat.le_of_succ_le_succ hfuel) hend
      rw [Items.render, readItems, htype, Option.bind_some]
      simp only [hcomma]
  | .more type others, fuel + 1 =>
      rw [Items.size] at hfuel
      have hend : Begins afterUnion (text "," ++ (others.render ++ (text "]" ++ rest))) := begins_append (by decide) _
      have htype := @type.read_render fuel (by omega) _ hend
      have hothers := @others.read_render fuel (by omega) rest
      rw [Items.render, List.append_assoc, List.append_assoc, readItems, htype, Option.bind_some]
      simp only [dropPrefix_append, hothers, Option.map_some]

theorem Fields.read_render (fields : Fields) {fuel : Nat} (hfuel : fields.size ≤ fuel) (rest : Text) :
    readFields fuel (fields.render ++ (text " \x7d" ++ rest)) = some (fields, text " \x7d" ++ rest) := by
  match fields, fuel with
  | .last key optional type, fuel + 1 =>
      have hend : Begins afterUnion (text " \x7d" ++ rest) := begins_append (by decide) _
      have hnext : (text " \x7d" ++ rest).dropPrefix? (text "; ") = none := rfl
      have htype := type.read_render (Nat.le_of_succ_le_succ hfuel) hend
      rw [Fields.render, List.append_assoc, readFields, readLabel_fieldLabel, Option.bind_some]
      simp only [htype, Option.bind_some, hnext]
  | .more key optional type others, fuel + 1 =>
      rw [Fields.size] at hfuel
      have hend : Begins afterUnion (text "; " ++ (others.render ++ (text " \x7d" ++ rest))) := begins_append (by decide) _
      have htype := @type.read_render fuel (by omega) _ hend
      have hothers := @others.read_render fuel (by omega) rest
      rw [Fields.render, List.append_assoc, List.append_assoc, List.append_assoc, readFields, readLabel_fieldLabel,
        Option.bind_some]
      simp only [htype, Option.bind_some, dropPrefix_append, hothers, Option.map_some]

end

/-- What is written of an expression is read as that expression. -/
theorem read_render (type : Union) : read type.render = some type := by
  have hread := type.read_render type.size_le (Or.inl rfl)
  rw [List.append_nil] at hread
  rw [read, hread]

end Grammars.TypeExpressions
