import Savitools.Grammars.TypeExpressions

namespace Grammars.TypeRules

open Strings.CodeUnits Json.Numbers Json.Values Json.Writing Json.RoundTrip Grammars.TypeExpressions

/-- The text is a type of these values. -/
def Expresses (t : Text) (values : Value Number → Prop) : Prop :=
  ∃ type : Union, type.render = t ∧ ∀ v, type.Denotes v ↔ values v

/-- The text is a type of these values also where it is a member of a union. -/
def ExpressesMember (t : Text) (values : Value Number → Prop) : Prop :=
  ∃ member : Intersection, member.render = t ∧ ∀ v, member.Denotes v ↔ values v

/-- The text is a type of these values also where it is a member of an intersection or has brackets after it. -/
def ExpressesOperand (t : Text) (values : Value Number → Prop) : Prop :=
  ∃ (operand : Primary) (arrays : Nat), operand.render ++ brackets arrays = t ∧
    ∀ v, arraysOf^[arrays] operand.Denotes v ↔ values v

variable {t : Text} {values : Value Number → Prop}

theorem ExpressesOperand.member (h : ExpressesOperand t values) : ExpressesMember t values := by
  obtain ⟨operand, arrays, ht, hvalues⟩ := h
  exact ⟨.one operand arrays, by rw [Intersection.render, ht], hvalues⟩

theorem ExpressesMember.expresses (h : ExpressesMember t values) : Expresses t values := by
  obtain ⟨member, ht, hvalues⟩ := h
  exact ⟨.one member, by rw [Union.render, ht], hvalues⟩

theorem ExpressesOperand.expresses (h : ExpressesOperand t values) : Expresses t values := h.member.expresses

theorem Expresses.congr {others : Value Number → Prop} (h : Expresses t values) (heq : ∀ v, values v ↔ others v) :
    Expresses t others := by
  obtain ⟨type, ht, hvalues⟩ := h
  exact ⟨type, ht, fun v => (hvalues v).trans (heq v)⟩

theorem ExpressesMember.congr {others : Value Number → Prop} (h : ExpressesMember t values)
    (heq : ∀ v, values v ↔ others v) : ExpressesMember t others := by
  obtain ⟨member, ht, hvalues⟩ := h
  exact ⟨member, ht, fun v => (hvalues v).trans (heq v)⟩

theorem Expresses.read (h : Expresses t values) : ∃ type, read t = some type ∧ ∀ v, type.Denotes v ↔ values v := by
  obtain ⟨type, rfl, hvalues⟩ := h
  exact ⟨type, read_render type, hvalues⟩

theorem expresses_primary (p : Primary) : ExpressesOperand p.render p.Denotes :=
  ⟨p, 0, List.append_nil _, fun _ => Iff.rfl⟩

theorem expresses_keyword (k : Keyword) : ExpressesOperand k.render k.Denotes := expresses_primary (.keyword k)

/-! A union before another needs no parentheses, nor does an intersection before another. -/

def append : Union → Union → Union
  | .one member, others => .or member others
  | .or member rest, others => .or member (append rest others)

theorem render_append (type others : Union) : (append type others).render = type.render ++ text " | " ++ others.render := by
  fun_induction append type others with
  | case1 => rfl
  | case2 others member rest ih =>
      rw [Union.render, ih, Union.render]
      simp only [List.append_assoc]

theorem denotes_append (type others : Union) (v : Value Number) :
    (append type others).Denotes v ↔ type.Denotes v ∨ others.Denotes v := by
  fun_induction append type others with
  | case1 => exact Iff.rfl
  | case2 others member rest ih => exact (or_congr_right ih).trans or_assoc.symm

def meet : Intersection → Intersection → Intersection
  | .one operand arrays, others => .and operand arrays others
  | .and operand arrays rest, others => .and operand arrays (meet rest others)

theorem render_meet (member others : Intersection) :
    (meet member others).render = member.render ++ text " & " ++ others.render := by
  fun_induction meet member others with
  | case1 => rfl
  | case2 others operand arrays rest ih =>
      rw [Intersection.render, ih, Intersection.render]
      simp only [List.append_assoc]

theorem denotes_meet (member others : Intersection) (v : Value Number) :
    (meet member others).Denotes v ↔ member.Denotes v ∧ others.Denotes v := by
  fun_induction meet member others with
  | case1 => exact Iff.rfl
  | case2 others operand arrays rest ih => exact (and_congr_right fun _ => ih).trans and_assoc.symm

theorem Expresses.or (h : Expresses t values) {rest : Text} {others : Value Number → Prop} (hrest : Expresses rest others) :
    Expresses (t ++ text " | " ++ rest) (fun v => values v ∨ others v) := by
  obtain ⟨type, rfl, hvalues⟩ := h
  obtain ⟨other, rfl, hothers⟩ := hrest
  exact ⟨append type other, render_append type other, fun v => (denotes_append type other v).trans
    (or_congr (hvalues v) (hothers v))⟩

theorem ExpressesMember.and (h : ExpressesMember t values) {rest : Text} {others : Value Number → Prop}
    (hrest : ExpressesMember rest others) : ExpressesMember (t ++ text " & " ++ rest) (fun v => values v ∧ others v) := by
  obtain ⟨member, rfl, hvalues⟩ := h
  obtain ⟨other, rfl, hothers⟩ := hrest
  exact ⟨meet member other, render_meet member other, fun v => (denotes_meet member other v).trans
    (and_congr (hvalues v) (hothers v))⟩

section Members

variable {α : Type} {write : α → Text} {valid : α → Value Number → Prop}

theorem expresses_union {members : List α} (hmembers : ∀ m ∈ members, Expresses (write m) (valid m)) (hne : members ≠ []) :
    Expresses ((text " | ").intercalate (members.map write)) (fun v => ∃ m ∈ members, valid m v) := by
  induction members with
  | nil => exact absurd rfl hne
  | cons m members ih =>
      obtain ⟨hm, hrest⟩ := List.forall_mem_cons.mp hmembers
      cases members with
      | nil =>
          rw [List.map_singleton, List.intercalate_singleton]
          exact hm.congr fun v => by simp
      | cons m' members =>
          rw [List.map_cons, List.map_cons, List.intercalate_cons_cons, ← List.map_cons]
          exact (hm.or (ih hrest (List.cons_ne_nil m' members))).congr fun v => by rw [List.exists_mem_cons_iff _ m]

/-- The members of an intersection stand without parentheses, so none of them may be a union. -/
theorem expresses_intersection {members : List α} (hmembers : ∀ m ∈ members, ExpressesMember (write m) (valid m))
    (hne : members ≠ []) :
    ExpressesMember ((text " & ").intercalate (members.map write)) (fun v => ∀ m ∈ members, valid m v) := by
  induction members with
  | nil => exact absurd rfl hne
  | cons m members ih =>
      obtain ⟨hm, hrest⟩ := List.forall_mem_cons.mp hmembers
      cases members with
      | nil =>
          rw [List.map_singleton, List.intercalate_singleton]
          exact hm.congr fun v => by simp
      | cons m' members =>
          rw [List.map_cons, List.map_cons, List.intercalate_cons_cons, ← List.map_cons]
          exact (hm.and (ih hrest (List.cons_ne_nil m' members))).congr fun v => by rw [List.forall_mem_cons (a := m)]

theorem exists_fields {members : List α} {key : α → Text} {optional : α → Bool}
    (hmembers : ∀ m ∈ members, Expresses (write m) (valid m)) (hne : members ≠ []) :
    ∃ fields : Fields,
      fields.render = (text "; ").intercalate (members.map fun m => fieldLabel (key m) (optional m) ++ write m) ∧
      ∀ ms, fields.Denotes ms ↔ ∀ m ∈ members, hasField ms (key m) (optional m) (valid m) := by
  induction members with
  | nil => exact absurd rfl hne
  | cons m members ih =>
      obtain ⟨⟨type, htext, hvalues⟩, hrest⟩ := List.forall_mem_cons.mp hmembers
      have hfield (ms : List (Text × Value Number)) :
          hasField ms (key m) (optional m) type.Denotes ↔ hasField ms (key m) (optional m) (valid m) :=
        and_congr_right fun _ => forall_congr' fun w => imp_congr_right fun _ => hvalues w
      cases members with
      | nil =>
          refine ⟨.last (key m) (optional m) type, ?_, fun ms => ?_⟩
          · rw [List.map_singleton, List.intercalate_singleton, Fields.render, htext]
          · rw [List.forall_mem_singleton]
            exact hfield ms
      | cons m' members =>
          obtain ⟨fields, hfields, hdenotes⟩ := ih hrest (List.cons_ne_nil m' members)
          refine ⟨.more (key m) (optional m) type fields, ?_, fun ms => ?_⟩
          · rw [Fields.render, htext, hfields, List.map_cons, List.map_cons, List.map_cons, List.intercalate_cons_cons]
          · rw [List.forall_mem_cons]
            exact and_congr (hfield ms) (hdenotes ms)

theorem expresses_object {members : List α} {key : α → Text} {optional : α → Bool}
    (hmembers : ∀ m ∈ members, Expresses (write m) (valid m)) (hne : members ≠ []) :
    ExpressesOperand
      (text "\x7b " ++ (text "; ").intercalate (members.map fun m => fieldLabel (key m) (optional m) ++ write m) ++
        text " \x7d")
      (fun v => ∃ ms, v = .obj ms ∧ ∀ m ∈ members, hasField ms (key m) (optional m) (valid m)) := by
  obtain ⟨fields, hfields, hdenotes⟩ := @exists_fields α write valid members key optional hmembers hne
  refine ⟨.object fields, 0, ?_, fun v => ?_⟩
  · rw [Primary.render, hfields]
    exact List.append_nil _
  · exact exists_congr fun ms => and_congr_right fun _ => hdenotes ms

end Members

/-! Arrays -/

/-- What must stand in parentheses before the brackets of an array. -/
def Compound (t : Text) : Prop := text " | " <:+: t ∨ text " & " <:+: t

theorem infix_append (a mark b : Text) : mark <:+: a ++ mark ++ b := ⟨a, b, rfl⟩

/-- A type that is not an operand shows it. -/
theorem operand_of_not_compound {type : Union} (h : ¬Compound type.render) :
    ∃ operand arrays, type = .one (.one operand arrays) := by
  match type with
  | .one (.one operand arrays) => exact ⟨operand, arrays, rfl⟩
  | .one (.and operand arrays rest) => exact absurd (Or.inr (infix_append _ _ _)) h
  | .or member rest => exact absurd (Or.inl (infix_append _ _ _)) h

theorem arraysOf_congr {item other : Value Number → Prop} (h : ∀ v, item v ↔ other v) (v : Value Number) :
    arraysOf item v ↔ arraysOf other v :=
  exists_congr fun _ => and_congr_right fun _ => forall_congr' fun w => imp_congr_right fun _ => h w

theorem brackets_succ (n : Nat) : brackets (n + 1) = brackets n ++ text "[]" := by
  rw [brackets, List.replicate_succ', List.flatten_append, List.flatten_singleton, brackets]

theorem expresses_array (h : Expresses t values) {grouped : Bool} (hgrouped : grouped = false → ¬Compound t) :
    ExpressesOperand ((if grouped then text "(" ++ t ++ text ")" else t) ++ text "[]") (arraysOf values) := by
  obtain ⟨type, rfl, hvalues⟩ := h
  cases grouped with
  | true => exact ⟨.group type, 1, rfl, arraysOf_congr hvalues⟩
  | false =>
      obtain ⟨operand, arrays, rfl⟩ := operand_of_not_compound (hgrouped rfl)
      refine ⟨operand, arrays + 1, ?_, fun v => ?_⟩
      · rw [brackets_succ, ← List.append_assoc]
        rfl
      · rw [Function.iterate_succ_apply']
        exact arraysOf_congr hvalues v

/-! JSON values as types -/

mutual

/-- A value without objects, with numbers that are read back. -/
def Literal : Value Number → Prop
  | .num (.finite q) => Readable (.finite q)
  | .num (.infinite _) => False
  | .arr items => LiteralItems items
  | .obj _ => False
  | _ => True

def LiteralItems : List (Value Number) → Prop
  | [] => True
  | v :: items => Literal v ∧ LiteralItems items

end

theorem exists_numeral {q : Rat} (hq : Readable (.finite q)) :
    ∃ n : Numeral, n.text = numberText (.finite q) ∧ n.value = .finite q := by
  obtain ⟨⟨u, rest, htext, hu⟩, hunits, hreads⟩ := hq
  exact ⟨⟨numberText (.finite q), .finite q, by simp [htext, hu], List.all_eq_true.mpr hunits, hreads⟩, rfl, rfl⟩

mutual

theorem exists_primary (v : Value Number) (hv : Literal v) :
    ∃ p : Primary, p.render = stringify v ∧ ∀ w, p.Denotes w ↔ w = v := by
  match v with
  | .null => exact ⟨.keyword .null, rfl, fun _ => Iff.rfl⟩
  | .bool true => exact ⟨.keyword .true, rfl, fun _ => Iff.rfl⟩
  | .bool false => exact ⟨.keyword .false, rfl, fun _ => Iff.rfl⟩
  | .num (.finite q) =>
      obtain ⟨n, htext, hvalue⟩ := exists_numeral hv
      exact ⟨.number n, htext, fun w => by rw [Primary.Denotes, hvalue]⟩
  | .str t => exact ⟨.string t, rfl, fun _ => Iff.rfl⟩
  | .arr [] => exact ⟨.emptyTuple, rfl, fun _ => Iff.rfl⟩
  | .arr (v :: items) =>
      obtain ⟨types, htext, hvalues⟩ := exists_items (v :: items) hv (List.cons_ne_nil v items)
      refine ⟨.tuple types, ?_, fun w => ?_⟩
      · rw [Primary.render, htext, stringify]
        rfl
      · rw [Primary.Denotes]
        constructor
        · rintro ⟨ws, rfl, hws⟩
          rw [(hvalues ws).mp hws]
        · rintro rfl
          exact ⟨v :: items, rfl, (hvalues _).mpr rfl⟩

theorem exists_items (items : List (Value Number)) (hitems : LiteralItems items) (hne : items ≠ []) :
    ∃ types : Items, types.render = join (unit ',') (stringifyItems items) ∧ ∀ ws, types.Denotes ws ↔ ws = items := by
  match items with
  | [v] =>
      obtain ⟨p, htext, hvalue⟩ := exists_primary v hitems.1
      refine ⟨.last (.one (.one p 0)), ?_, fun ws => ?_⟩
      · rw [stringifyItems, stringifyItems, join_singleton, ← htext]
        exact List.append_nil _
      · rw [Items.Denotes]
        constructor
        · rintro ⟨w, rfl, hw⟩
          rw [(hvalue w).mp hw]
        · rintro rfl
          exact ⟨v, rfl, (hvalue v).mpr rfl⟩
  | v :: w :: items =>
      obtain ⟨p, htext, hvalue⟩ := exists_primary v hitems.1
      obtain ⟨types, htexts, hvalues⟩ := exists_items (w :: items) hitems.2 (List.cons_ne_nil w items)
      refine ⟨.more (.one (.one p 0)) types, ?_, fun ws => ?_⟩
      · rw [stringifyItems, stringifyItems, join_cons_cons, ← stringifyItems, ← htext, Items.render, htexts]
        simp [Union.render, Intersection.render, brackets]
        rfl
      · rw [Items.Denotes]
        constructor
        · rintro ⟨x, others, rfl, hx, hothers⟩
          rw [(hvalue x).mp hx, (hvalues others).mp hothers]
        · rintro rfl
          exact ⟨v, w :: items, rfl, (hvalue v).mpr rfl, (hvalues _).mpr rfl⟩

end

theorem expresses_stringify {v : Value Number} (hv : Literal v) : ExpressesOperand (stringify v) (· = v) := by
  obtain ⟨p, htext, hvalue⟩ := exists_primary v hv
  exact ⟨p, 0, by rw [htext]; exact List.append_nil _, hvalue⟩

end Grammars.TypeRules
