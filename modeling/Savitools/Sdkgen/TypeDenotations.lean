import Mathlib.Order.FixedPoints
import Savitools.Grammars.TypeRules
import Savitools.Sdkgen.Generators

namespace Savitools.Sdkgen.TypeDenotations

open Strings.CodeUnits Json.Numbers Json.Values Json.Writing Grammars.TypeExpressions Grammars.TypeRules Types

/-! The values of a schema -/

/-- The `type` of a schema. To TypeScript a whole number is a number as any other. -/
def HasType (type : Text) : Value Number → Prop
  | .null => type = text "null"
  | .bool _ => type = text "boolean"
  | .num _ => type = text "integer" ∨ type = text "number"
  | .str _ => type = text "string"
  | .arr _ => type = text "array"
  | .obj _ => type = text "object"

/-- The keywords of a schema, each of which a value must meet, with `valid` for the schemas in it. -/
structure Meets (valid : JsonSchema → Value Number → Prop) (schema : JsonSchema) (v : Value Number) : Prop where
  type : ∀ type ∈ schema.type, HasType type v
  enum : schema.enum ≠ [] → v ∈ schema.enum
  items : ∀ item ∈ schema.items, ∀ ws, v = .arr ws → ∀ w ∈ ws, valid item w
  properties : ∀ members, v = .obj members → ∀ property ∈ schema.properties,
    ∀ w, members.lookup property.1 = some w → valid property.2 w
  required : ∀ members, v = .obj members → ∀ key ∈ schema.required, (members.lookup key).isSome
  oneOf : schema.oneOf ≠ [] → ∃ m ∈ schema.oneOf, valid m v
  anyOf : schema.anyOf ≠ [] → ∃ m ∈ schema.anyOf, valid m v
  allOf : ∀ m ∈ schema.allOf, valid m v

/-- A reference stands for its target; what has no target has no values. -/
def Accepts (spec : OpenApiSpec) (valid : JsonSchema → Value Number → Prop) (schema : JsonSchema)
    (v : Value Number) : Prop :=
  match refTarget spec schema.ref with
  | some target => valid target v
  | none => schema.ref = [] ∧ ((schema.nullable = true ∧ v = .null) ∨ Meets valid schema v)

theorem Meets.mono {valid others : JsonSchema → Value Number → Prop} (hle : valid ≤ others) {schema : JsonSchema}
    {v : Value Number} (h : Meets valid schema v) : Meets others schema v where
  type := h.type
  enum := h.enum
  items item hitem ws hv w hw := hle item w (h.items item hitem ws hv w hw)
  properties members hv property hproperty w hw := hle property.2 w (h.properties members hv property hproperty w hw)
  required := h.required
  oneOf hne := (h.oneOf hne).imp fun m hm => ⟨hm.1, hle m v hm.2⟩
  anyOf hne := (h.anyOf hne).imp fun m hm => ⟨hm.1, hle m v hm.2⟩
  allOf m hm := hle m v (h.allOf m hm)

theorem accepts_mono (spec : OpenApiSpec) : Monotone (Accepts spec) := by
  intro valid others hle schema v h
  rw [Accepts] at h ⊢
  cases htarget : refTarget spec schema.ref with
  | some target =>
      rw [htarget] at h
      exact hle target v h
  | none =>
      rw [htarget] at h
      exact ⟨h.1, h.2.imp_right (Meets.mono hle)⟩

/-- The values of a schema. References may form cycles; what only a cycle would make valid is not. -/
def Valid (spec : OpenApiSpec) : JsonSchema → Value Number → Prop := OrderHom.lfp ⟨Accepts spec, accepts_mono spec⟩

variable {spec : OpenApiSpec} {schema : JsonSchema} {v : Value Number}

theorem valid_iff : Valid spec schema v ↔ Accepts spec (Valid spec) schema v := by
  have hfixed : Accepts spec (Valid spec) = Valid spec := OrderHom.map_lfp ⟨Accepts spec, accepts_mono spec⟩
  rw [hfixed]

theorem valid_of_target {target : JsonSchema} (h : refTarget spec schema.ref = some target) :
    Valid spec schema v ↔ Valid spec target v := by
  rw [valid_iff, Accepts, h]

theorem valid_resolveSchema (left : Nat) (schema : JsonSchema) :
    Valid spec (resolveSchema spec left schema) v ↔ Valid spec schema v := by
  induction left generalizing schema with
  | zero => exact Iff.rfl
  | succ left ih =>
      rw [resolveSchema]
      cases htarget : refTarget spec schema.ref with
      | none => exact Iff.rfl
      | some target => exact (ih target).trans (valid_of_target htarget).symm

theorem refTarget_nil : refTarget spec [] = none := by
  rw [refTarget]
  cases spec.schemas with
  | none => rfl
  | some schemas => rw [Option.bind_some, if_pos (Or.inl rfl)]

theorem valid_of_noRef (href : schema.ref = []) :
    Valid spec schema v ↔ (schema.nullable = true ∧ v = .null) ∨ Meets (Valid spec) schema v := by
  rw [valid_iff, Accepts, href, refTarget_nil]
  exact and_iff_right rfl

/-- Of no schema every value is valid. -/
def ValidFor (spec : OpenApiSpec) (schema : Option JsonSchema) (v : Value Number) : Prop := ∀ s ∈ schema, Valid spec s v

/-- What is written of a schema reads as a type, and that has the values of the schema. -/
def Denoted (spec : OpenApiSpec) (schema : JsonSchema) : Prop :=
  ∃ type, read (schemaToTypeScript spec maxDepth (some schema)) = some type ∧ ∀ v, type.Denotes v ↔ Valid spec schema v

/-! Where the types are those of the schemas -/

def scalarTypes : List Text := [text "integer", text "number", text "boolean", text "string"]

def Uncombined (schema : JsonSchema) : Prop := schema.oneOf = [] ∧ schema.anyOf = [] ∧ schema.allOf = []

/-- Without a type a schema says what it says in one way. -/
structure Untyped (schema : JsonSchema) : Prop where
  type : schema.type = none
  items : schema.items = none
  properties : schema.properties = []
  required : schema.required = []
  combined : (schema.anyOf = [] ∧ schema.allOf = []) ∨ (schema.oneOf = [] ∧ schema.allOf = []) ∨
    (schema.oneOf = [] ∧ schema.anyOf = [])

/-- The type is no union, so that it may stand in an intersection without parentheses. -/
def Single (spec : OpenApiSpec) : Nat → Option JsonSchema → Prop
  | 0, _ | _, none => True
  | left + 1, some schema =>
      let resolved := resolveSchema spec (left + 1) schema
      let lone (members : List JsonSchema) := ∀ m ∈ members, members = [m] ∧ Single spec left (some m)
      resolved.nullable = false ∧
        (if resolved.enum ≠ [] then resolved.enum.length = 1
        else resolved.type = none →
          lone resolved.oneOf ∧ lone resolved.anyOf ∧ ∀ m, resolved.allOf = [m] → Single spec left (some m))

/-- The schema says with one keyword what it says, its references lead to schemas, and of what is intersected nothing is a
union. -/
def Regular (spec : OpenApiSpec) : Nat → Option JsonSchema → Prop
  | _, none => True
  | 0, some _ => False
  | left + 1, some schema =>
      let resolved := resolveSchema spec (left + 1) schema
      resolved.ref = [] ∧
        (if resolved.enum ≠ [] then ∀ v ∈ resolved.enum, Literal v ∧ Valid spec resolved v
        else (Uncombined resolved ∧
            ((∃ type ∈ scalarTypes, resolved.type = some type) ∨
              (resolved.type = some (text "array") ∧ Regular spec left resolved.items) ∨
              (resolved.type = some (text "object") ∧ resolved.required ⊆ resolved.properties.map Prod.fst ∧
                ∀ property ∈ resolved.properties, Regular spec left (some property.2)))) ∨
          (Untyped resolved ∧ (∀ m ∈ resolved.oneOf ++ resolved.anyOf ++ resolved.allOf, Regular spec left (some m)) ∧
            (2 ≤ resolved.allOf.length → ∀ m ∈ resolved.allOf, Single spec left (some m))))

theorem hasType_array : HasType (text "array") v ↔ ∃ ws, v = .arr ws := by
  cases v with
  | arr ws => exact iff_of_true rfl ⟨ws, rfl⟩
  | _ => exact iff_of_false (fun h => by rw [HasType] at h; exact absurd h (by decide)) (by rintro ⟨ws, hws⟩; cases hws)

theorem hasType_object : HasType (text "object") v ↔ ∃ members, v = .obj members := by
  cases v with
  | obj members => exact iff_of_true rfl ⟨members, rfl⟩
  | _ => exact iff_of_false (fun h => by rw [HasType] at h; exact absurd h (by decide)) (by rintro ⟨ws, hws⟩; cases hws)

theorem hasType_number {type : Text} (htype : type = text "integer" ∨ type = text "number") :
    HasType type v ↔ Keyword.number.Denotes v := by
  cases v with
  | num n => exact iff_of_true htype ⟨n, rfl⟩
  | _ =>
      refine iff_of_false (fun h => ?_) (by rintro ⟨ws, hws⟩; cases hws)
      rw [HasType] at h
      subst h
      exact absurd htype (by decide)

theorem hasType_boolean : HasType (text "boolean") v ↔ Keyword.boolean.Denotes v := by
  cases v with
  | bool b => exact iff_of_true rfl ⟨b, rfl⟩
  | _ => exact iff_of_false (fun h => by rw [HasType] at h; exact absurd h (by decide)) (by rintro ⟨ws, hws⟩; cases hws)

theorem hasType_string : HasType (text "string") v ↔ Keyword.string.Denotes v := by
  cases v with
  | str t => exact iff_of_true rfl ⟨t, rfl⟩
  | _ => exact iff_of_false (fun h => by rw [HasType] at h; exact absurd h (by decide)) (by rintro ⟨ws, hws⟩; cases hws)

/-! What the keywords come to where there are no others -/

section Keywords

variable {valid : JsonSchema → Value Number → Prop} (henum : schema.enum = []) (hcomb : Uncombined schema)
include henum hcomb

theorem meets_scalar {type : Text} (htype : schema.type = some type) (hscalar : type ∈ scalarTypes) :
    Meets valid schema v ↔ HasType type v := by
  have harr : type ≠ text "array" := by
    rintro rfl
    exact absurd hscalar (by decide)
  have hobj : type ≠ text "object" := by
    rintro rfl
    exact absurd hscalar (by decide)
  refine ⟨fun h => h.type type htype, fun h => ?_⟩
  exact
    { type := fun t ht => by
        cases htype.symm.trans ht
        exact h
      enum := fun hne => absurd henum hne
      items := fun item _ ws hv => by
        subst hv
        exact absurd h harr
      properties := fun members hv => by
        subst hv
        exact absurd h hobj
      required := fun members hv => by
        subst hv
        exact absurd h hobj
      oneOf := fun hne => absurd hcomb.1 hne
      anyOf := fun hne => absurd hcomb.2.1 hne
      allOf := fun m hm => by
        rw [hcomb.2.2] at hm
        cases hm }

theorem meets_array (htype : schema.type = some (text "array")) :
    Meets valid schema v ↔ arraysOf (fun w => ∀ item ∈ schema.items, valid item w) v := by
  constructor
  · intro h
    obtain ⟨ws, rfl⟩ := hasType_array.mp (h.type _ htype)
    exact ⟨ws, rfl, fun w hw item hitem => h.items item hitem ws rfl w hw⟩
  · rintro ⟨ws, rfl, hws⟩
    exact
      { type := fun t ht => by
          cases htype.symm.trans ht
          rfl
        enum := fun hne => absurd henum hne
        items := fun item hitem ws' hv w hw => by
          cases hv
          exact hws w hw item hitem
        properties := fun members hv => by cases hv
        required := fun members hv => by cases hv
        oneOf := fun hne => absurd hcomb.1 hne
        anyOf := fun hne => absurd hcomb.2.1 hne
        allOf := fun m hm => by
          rw [hcomb.2.2] at hm
          cases hm }

theorem meets_object (htype : schema.type = some (text "object"))
    (hrequired : schema.required ⊆ schema.properties.map Prod.fst) :
    Meets valid schema v ↔ ∃ members, v = .obj members ∧ ∀ property ∈ schema.properties,
      hasField members property.1 (!schema.required.contains property.1) (valid property.2) := by
  constructor
  · intro h
    obtain ⟨members, rfl⟩ := hasType_object.mp (h.type _ htype)
    refine ⟨members, rfl, fun property hproperty => ⟨fun hneeded => ?_, h.properties members rfl property hproperty⟩⟩
    rw [Bool.not_eq_false', List.contains_iff_mem] at hneeded
    exact h.required members rfl _ hneeded
  · rintro ⟨members, rfl, hmembers⟩
    exact
      { type := fun t ht => by
          cases htype.symm.trans ht
          rfl
        enum := fun hne => absurd henum hne
        items := fun item _ ws hv => by cases hv
        properties := fun others hv property hproperty w hw => by
          cases hv
          exact (hmembers property hproperty).2 w hw
        required := fun others hv key hkey => by
          cases hv
          obtain ⟨property, hproperty, rfl⟩ := List.mem_map.mp (hrequired hkey)
          refine (hmembers property hproperty).1 ?_
          rw [Bool.not_eq_false', List.contains_iff_mem]
          exact hkey
        oneOf := fun hne => absurd hcomb.1 hne
        anyOf := fun hne => absurd hcomb.2.1 hne
        allOf := fun m hm => by
          rw [hcomb.2.2] at hm
          cases hm }

omit hcomb

theorem meets_untyped (h : Untyped schema) :
    Meets valid schema v ↔ (schema.oneOf ≠ [] → ∃ m ∈ schema.oneOf, valid m v) ∧
      (schema.anyOf ≠ [] → ∃ m ∈ schema.anyOf, valid m v) ∧ ∀ m ∈ schema.allOf, valid m v := by
  refine ⟨fun hv => ⟨hv.oneOf, hv.anyOf, hv.allOf⟩, ?_⟩
  rintro ⟨hone, hany, hall⟩
  exact
    { type := fun t ht => by
        rw [h.type] at ht
        cases ht
      enum := fun hne => absurd henum hne
      items := fun item hitem => by
        rw [h.items] at hitem
        cases hitem
      properties := fun members _ property hproperty => by
        rw [h.properties] at hproperty
        cases hproperty
      required := fun members _ key hkey => by
        rw [h.required] at hkey
        cases hkey
      oneOf := hone
      anyOf := hany
      allOf := hall }

end Keywords

/-! The texts of the generator -/

/-- What is written is a type of these values, and stands for them in an intersection too where it is `single`. -/
def Writes (single : Prop) (t : Text) (values : Value Number → Prop) : Prop :=
  Expresses t values ∧ (single → ExpressesMember t values)

theorem writes_operand {single : Prop} {t : Text} {values : Value Number → Prop} (h : ExpressesOperand t values) :
    Writes single t values :=
  ⟨h.expresses, fun _ => h.member⟩

theorem Writes.congr {single other : Prop} {t : Text} {values others : Value Number → Prop} (h : Writes single t values)
    (hsingle : other → single) (heq : ∀ v, values v ↔ others v) : Writes other t others :=
  ⟨h.1.congr heq, fun hother => (h.2 (hsingle hother)).congr heq⟩

theorem writes_orNull {single : Prop} {t : Text} {values : Value Number → Prop} (nullable : Bool)
    (h : Writes single t values) :
    Writes (nullable = false ∧ single) (orNull nullable t) (fun v => (nullable = true ∧ v = .null) ∨ values v) := by
  cases nullable with
  | false => exact h.congr And.right fun v => by simp
  | true =>
      refine ⟨?_, fun hsingle => absurd hsingle.1 (by decide)⟩
      have hnull : t ++ text " | null" = t ++ text " | " ++ Keyword.null.render := by
        rw [List.append_assoc]
        rfl
      rw [orNull, if_pos rfl, hnull]
      exact (h.1.or (expresses_keyword .null).expresses).congr fun v => by simp [Keyword.Denotes, or_comm]

section Members

variable {α : Type} {single : α → Prop} {write : α → Text} {valid : α → Value Number → Prop} {members : List α}
  (hmembers : ∀ m ∈ members, Writes (single m) (write m) (valid m)) (hne : members ≠ [])
include hmembers hne

theorem writes_union : Writes (∀ m ∈ members, members = [m] ∧ single m) ((text " | ").intercalate (members.map write))
    (fun v => ∃ m ∈ members, valid m v) := by
  refine ⟨expresses_union (fun m hm => (hmembers m hm).1) hne, fun hsingle => ?_⟩
  obtain ⟨m, hm⟩ := List.exists_mem_of_ne_nil members hne
  obtain ⟨rfl, hlone⟩ := hsingle m hm
  rw [List.map_singleton, List.intercalate_singleton]
  exact ((hmembers m hm).2 hlone).congr fun v => by simp

theorem writes_intersection (hsingle : 2 ≤ members.length → ∀ m ∈ members, single m) :
    Writes (∀ m, members = [m] → single m) ((text " & ").intercalate (members.map write))
      (fun v => ∀ m ∈ members, valid m v) := by
  match members with
  | [] => exact absurd rfl hne
  | [m] =>
      rw [List.map_singleton, List.intercalate_singleton]
      exact (hmembers m List.mem_cons_self).congr (fun hlone => hlone m rfl) fun v => by simp
  | m :: m' :: members =>
      have hmember := expresses_intersection
        (fun m'' hm => (hmembers m'' hm).2 (hsingle (by rw [List.length_cons, List.length_cons]; omega) m'' hm)) hne
      exact ⟨hmember.expresses, fun _ => hmember⟩

end Members

theorem needsParentheses_eq_false {t : Text} (h : needsParentheses t = false) : ¬Compound t := by
  rw [needsParentheses, Bool.or_eq_false_iff, decide_eq_false_iff_not, decide_eq_false_iff_not] at h
  exact not_or.mpr h

theorem fieldLabel_eq (key : Text) (required : Bool) :
    fieldLabel key (!required) = quote key ++ (if required then [] else text "?") ++ text ": " := by
  cases required <;> rfl

section Enumerations

variable {values : List (Value Number)} (hvalues : ∀ v ∈ values, Literal v) (hne : values ≠ [])
include hvalues hne

theorem writes_enum : Writes (values.length = 1) ((text " | ").intercalate (values.map stringify)) (· ∈ values) := by
  have hall : ∀ v ∈ values, Writes True (stringify v) (· = v) := fun v hv =>
    writes_operand (expresses_stringify (hvalues v hv))
  refine (writes_union hall hne).congr (fun hlength => ?_) fun v => by simp
  obtain ⟨v, rfl⟩ := List.length_eq_one_iff.mp hlength
  exact fun w hw => ⟨by rw [List.mem_singleton.mp hw], trivial⟩

end Enumerations

/-- What stands before `| null`, of a schema that is no enumeration. -/
def kindText (spec : OpenApiSpec) (left : Nat) (resolved : JsonSchema) : Text :=
  let union (separator : Text) (schemas : List JsonSchema) : Text :=
    separator.intercalate (schemas.map fun entry => schemaToTypeScript spec left (some entry))
  if resolved.type = some (text "integer") ∨ resolved.type = some (text "number") then text "number"
  else if resolved.type = some (text "boolean") then text "boolean"
  else if resolved.type = some (text "string") then text "string"
  else if resolved.type = some (text "array") then
    let item := schemaToTypeScript spec left resolved.items
    (if needsParentheses item then text "(" ++ item ++ text ")" else item) ++ text "[]"
  else if resolved.type = some (text "object") then
    if resolved.properties = [] then text "Record<string, unknown>"
    else
      text "\x7b " ++ (text "; ").intercalate (resolved.properties.map fun (key, value) =>
        quote key ++ (if resolved.required.contains key then [] else text "?") ++ text ": " ++
          schemaToTypeScript spec left (some value)) ++ text " \x7d"
  else if resolved.oneOf ≠ [] then union (text " | ") resolved.oneOf
  else if resolved.anyOf ≠ [] then union (text " | ") resolved.anyOf
  else if resolved.allOf ≠ [] then union (text " & ") resolved.allOf
  else text "unknown"

theorem schemaToTypeScript_succ (left : Nat) (schema : JsonSchema) :
    schemaToTypeScript spec (left + 1) (some schema) =
      let resolved := resolveSchema spec (left + 1) schema
      if resolved.ref ≠ [] then refName resolved.ref
      else if resolved.enum ≠ [] then orNull resolved.nullable ((text " | ").intercalate (resolved.enum.map stringify))
      else orNull resolved.nullable (kindText spec left resolved) := rfl

section Kinds

variable {left : Nat} {resolved : JsonSchema} {single : Prop} (henum : resolved.enum = [])
include henum

theorem writes_scalar (hcomb : Uncombined resolved) {type : Text} (htype : resolved.type = some type)
    (hscalar : type ∈ scalarTypes) : Writes single (kindText spec left resolved) (Meets (Valid spec) resolved) := by
  have hmeets (v : Value Number) : Meets (Valid spec) resolved v ↔ HasType type v := meets_scalar henum hcomb htype hscalar
  have hkeyword {k : Keyword} (hk : ∀ v, HasType type v ↔ k.Denotes v) :
      Writes single k.render (Meets (Valid spec) resolved) :=
    (writes_operand (expresses_keyword k)).congr id fun v => ((hmeets v).trans (hk v)).symm
  simp only [scalarTypes, List.mem_cons, List.not_mem_nil, or_false] at hscalar
  rw [kindText, htype]
  rcases hscalar with rfl | rfl | rfl | rfl
  · rw [if_pos (Or.inl rfl)]
    exact hkeyword (k := .number) fun v => hasType_number (Or.inl rfl)
  · rw [if_pos (Or.inr rfl)]
    exact hkeyword (k := .number) fun v => hasType_number (Or.inr rfl)
  · rw [if_neg (by decide), if_pos rfl]
    exact hkeyword (k := .boolean) fun v => hasType_boolean
  · rw [if_neg (by decide), if_neg (by decide), if_pos rfl]
    exact hkeyword (k := .string) fun v => hasType_string

theorem writes_array (hcomb : Uncombined resolved) (htype : resolved.type = some (text "array"))
    (hitem : Expresses (schemaToTypeScript spec left resolved.items) (ValidFor spec resolved.items)) :
    Writes single (kindText spec left resolved) (Meets (Valid spec) resolved) := by
  rw [kindText, htype, if_neg (by decide), if_neg (by decide), if_neg (by decide), if_pos rfl]
  exact (writes_operand (expresses_array hitem needsParentheses_eq_false)).congr id fun v =>
    (meets_array henum hcomb htype).symm

theorem writes_object (hcomb : Uncombined resolved) (htype : resolved.type = some (text "object"))
    (hrequired : resolved.required ⊆ resolved.properties.map Prod.fst)
    (hfields : ∀ property ∈ resolved.properties,
      Expresses (schemaToTypeScript spec left (some property.2)) (Valid spec property.2)) :
    Writes single (kindText spec left resolved) (Meets (Valid spec) resolved) := by
  have hmeets := fun v => @meets_object resolved v (Valid spec) henum hcomb htype hrequired
  rw [kindText, htype, if_neg (by decide), if_neg (by decide), if_neg (by decide), if_neg (by decide), if_pos rfl]
  by_cases hnone : resolved.properties = []
  · rw [if_pos hnone]
    refine (writes_operand (expresses_keyword .record)).congr id fun v => ((hmeets v).trans ?_).symm
    rw [hnone]
    simp [Keyword.Denotes]
  · rw [if_neg hnone]
    have hobject := @expresses_object _ _ _ _ Prod.fst (fun property => !resolved.required.contains property.1) hfields hnone
    simp only [fieldLabel_eq] at hobject
    exact (writes_operand hobject).congr id fun v => (hmeets v).symm

/-- A schema without a type is a union, an intersection or anything. -/
theorem writes_untyped (huntyped : Untyped resolved)
    (hmembers : ∀ m ∈ resolved.oneOf ++ resolved.anyOf ++ resolved.allOf,
      Writes (Single spec left (some m)) (schemaToTypeScript spec left (some m)) (Valid spec m))
    (hsingle : 2 ≤ resolved.allOf.length → ∀ m ∈ resolved.allOf, Single spec left (some m)) :
    Writes ((∀ m ∈ resolved.oneOf, resolved.oneOf = [m] ∧ Single spec left (some m)) ∧
        (∀ m ∈ resolved.anyOf, resolved.anyOf = [m] ∧ Single spec left (some m)) ∧
        ∀ m, resolved.allOf = [m] → Single spec left (some m))
      (kindText spec left resolved) (Meets (Valid spec) resolved) := by
  have hmeets := fun v => @meets_untyped resolved v (Valid spec) henum huntyped
  rw [List.forall_mem_append, List.forall_mem_append] at hmembers
  obtain ⟨⟨hones, hanys⟩, halls⟩ := hmembers
  rw [kindText, huntyped.type]
  simp only [reduceCtorEq, or_self, if_false]
  by_cases hone : resolved.oneOf = []
  · by_cases hany : resolved.anyOf = []
    · rw [if_neg (not_not.mpr hone), if_neg (not_not.mpr hany)]
      by_cases hall : resolved.allOf = []
      · rw [if_neg (not_not.mpr hall)]
        refine (writes_operand (expresses_keyword .unknown)).congr id fun v => ((hmeets v).trans ?_).symm
        simp [hone, hany, hall, Keyword.Denotes]
      · rw [if_pos hall]
        refine (writes_intersection halls hall hsingle).congr (fun h => h.2.2) fun v => ((hmeets v).trans ?_).symm
        simp [hone, hany]
    · have hall : resolved.allOf = [] := by
        rcases huntyped.combined with h | h | h
        · exact h.2
        · exact h.2
        · exact absurd h.2 hany
      rw [if_neg (not_not.mpr hone), if_pos hany]
      refine (writes_union hanys hany).congr (fun h => h.2.1) fun v => ((hmeets v).trans ?_).symm
      simp [hone, hany, hall]
  · obtain ⟨hany, hall⟩ : resolved.anyOf = [] ∧ resolved.allOf = [] := by
      rcases huntyped.combined with h | h | h
      · exact h
      · exact absurd h.1 hone
      · exact absurd h.1 hone
    rw [if_pos hone]
    refine (writes_union hones hone).congr (fun h => h.1) fun v => ((hmeets v).trans ?_).symm
    simp [hone, hany, hall]

end Kinds

theorem writes_none (left : Nat) :
    Writes (Single spec left none) (schemaToTypeScript spec left none) (ValidFor spec none) := by
  have hunknown : schemaToTypeScript spec left none = Keyword.unknown.render := by
    cases left <;> rfl
  rw [hunknown]
  exact (writes_operand (expresses_keyword .unknown)).congr id fun v => by simp [Keyword.Denotes, ValidFor]

/-- By the references that may still be followed: what is written of a regular schema has the values of the schema. -/
theorem writes_schemaToTypeScript (left : Nat) (schema : Option JsonSchema) (h : Regular spec left schema) :
    Writes (Single spec left schema) (schemaToTypeScript spec left schema) (ValidFor spec schema) := by
  induction left generalizing schema with
  | zero =>
      cases schema with
      | none => exact writes_none 0
      | some schema => exact absurd h id
  | succ left ih =>
      cases schema with
      | none => exact writes_none (left + 1)
      | some schema =>
          have hsome (s : JsonSchema) (hs : Regular spec left (some s)) :
              Writes (Single spec left (some s)) (schemaToTypeScript spec left (some s)) (Valid spec s) :=
            (ih (some s) hs).congr id fun v => by simp [ValidFor]
          have hresolved (v : Value Number) :
              Valid spec (resolveSchema spec (left + 1) schema) v ↔ ValidFor spec (some schema) v := by
            rw [valid_resolveSchema]
            simp [ValidFor]
          rw [Regular] at h
          rw [schemaToTypeScript_succ, Single]
          generalize resolveSchema spec (left + 1) schema = resolved at h hresolved ⊢
          obtain ⟨href, h⟩ := h
          refine Writes.congr ?_ id hresolved
          rw [if_neg (not_not.mpr href)]
          by_cases henum : resolved.enum = []
          · rw [if_neg (not_not.mpr henum)] at h
            rw [if_neg (not_not.mpr henum), if_neg (not_not.mpr henum)]
            refine (writes_orNull resolved.nullable ?_).congr id fun v => (valid_of_noRef href).symm
            rcases h with ⟨hcomb, ⟨type, hscalar, htype⟩ | ⟨htype, hitems⟩ | ⟨htype, hrequired, hproperties⟩⟩ |
              ⟨huntyped, hregular, hsingle⟩
            · exact writes_scalar henum hcomb htype hscalar
            · exact writes_array henum hcomb htype (ih resolved.items hitems).1
            · exact writes_object henum hcomb htype hrequired fun property hproperty =>
                (hsome property.2 (hproperties property hproperty)).1
            · exact (writes_untyped henum huntyped (fun m hm => hsome m (hregular m hm)) hsingle).congr
                (fun hlone => hlone huntyped.type) fun v => Iff.rfl
          · rw [if_pos henum] at h
            rw [if_pos henum, if_pos henum]
            have hvalues := writes_enum (fun v hv => (h v hv).1) henum
            refine (writes_orNull resolved.nullable hvalues).congr id fun v => ?_
            rw [valid_of_noRef href]
            constructor
            · rintro (hnull | hv)
              · exact Or.inl hnull
              · exact (valid_of_noRef href).mp (h v hv).2
            · exact Or.imp_right fun hmeets => hmeets.enum henum

theorem schemaToTypeScript_denotes (spec : OpenApiSpec) (schema : JsonSchema) (h : Regular spec maxDepth (some schema)) :
    Denoted spec schema := by
  obtain ⟨type, htype, hvalues⟩ := (writes_schemaToTypeScript maxDepth (some schema) h).1.read
  exact ⟨type, htype, fun v => (hvalues v).trans (by simp [ValidFor])⟩

section Examples

def typed (type : String) : JsonSchema := { JsonSchema.empty with type := some (text type) }

def nullable (schema : JsonSchema) : JsonSchema := { schema with nullable := true }

def allOf (members : List JsonSchema) : JsonSchema := { JsonSchema.empty with allOf := members }

def localSpec : OpenApiSpec := ⟨[], none⟩

def oneText (t : Text) : JsonSchema := { JsonSchema.empty with enum := [.str t] }

/-- `{ "tags": (string | null)[]; "size"?: string & "small" }` -/
def tagged : JsonSchema :=
  { typed "object" with
    properties := [(text "tags", { typed "array" with items := some (nullable (typed "string")) }),
      (text "size", allOf [typed "string", oneText (text "small")])]
    required := [text "tags"] }

theorem regular_typed {type : String} (hscalar : text type ∈ scalarTypes) (left : Nat) (b : Bool) :
    Regular localSpec (left + 1) (some { typed type with nullable := b }) :=
  ⟨rfl, Or.inl ⟨⟨rfl, rfl, rfl⟩, Or.inl ⟨text type, hscalar, rfl⟩⟩⟩

theorem valid_oneText (t : Text) : Valid localSpec (oneText t) (.str t) :=
  (valid_of_noRef rfl).mpr <| Or.inr
    { type := fun _ h => by cases h
      enum := fun _ => List.mem_cons_self
      items := fun _ h => by cases h
      properties := fun _ h => by cases h
      required := fun _ h => by cases h
      oneOf := fun h => absurd rfl h
      anyOf := fun h => absurd rfl h
      allOf := fun _ h => by cases h }

theorem regular_oneText (t : Text) (left : Nat) : Regular localSpec (left + 1) (some (oneText t)) :=
  ⟨rfl, List.forall_mem_singleton.mpr ⟨trivial, valid_oneText t⟩⟩

theorem regular_tagged : Regular localSpec maxDepth (some tagged) := by
  have htags : Regular localSpec 6 (some { typed "array" with items := some (nullable (typed "string")) }) :=
    ⟨rfl, Or.inl ⟨⟨rfl, rfl, rfl⟩, Or.inr (Or.inl ⟨rfl, regular_typed (by decide) 4 true⟩)⟩⟩
  have hmembers : ∀ m ∈ [typed "string", oneText (text "small")],
      Regular localSpec 5 (some m) ∧ Single localSpec 5 (some m) :=
    List.forall_mem_cons.mpr ⟨⟨regular_typed (by decide) 4 false, rfl, fun h => by cases h⟩,
      List.forall_mem_singleton.mpr ⟨regular_oneText _ 4, rfl, rfl⟩⟩
  have hsize : Regular localSpec 6 (some (allOf [typed "string", oneText (text "small")])) :=
    ⟨rfl, Or.inr ⟨⟨rfl, rfl, rfl, rfl, Or.inr (Or.inr ⟨rfl, rfl⟩)⟩, fun m hm => (hmembers m hm).1,
      fun _ m hm => (hmembers m hm).2⟩⟩
  refine ⟨rfl, Or.inl ⟨⟨rfl, rfl, rfl⟩, Or.inr (Or.inr ⟨rfl, ?_, ?_⟩)⟩⟩
  · exact List.cons_subset.mpr ⟨List.mem_cons_self, List.nil_subset _⟩
  · exact List.forall_mem_cons.mpr ⟨htags, List.forall_mem_singleton.mpr hsize⟩

theorem tagged_denoted : Denoted localSpec tagged := schemaToTypeScript_denotes localSpec tagged regular_tagged

/-- `string & number | null` -/
def mixed : Union :=
  .or (.and (.keyword .string) 0 (.one (.keyword .number) 0)) (.one (.one (.keyword .null) 0))

theorem not_denoted_allOf : ¬Denoted localSpec (allOf [typed "string", nullable (typed "number")]) := by
  rintro ⟨type, htype, hvalues⟩
  have htext : schemaToTypeScript localSpec maxDepth (some (allOf [typed "string", nullable (typed "number")])) =
      mixed.render := by decide
  rw [htext, read_render] at htype
  cases htype
  have hvalid := (hvalues .null).mp (Or.inr rfl)
  rcases (valid_of_noRef rfl).mp hvalid with h | h
  · exact absurd h.1 (by decide)
  · rcases (valid_of_noRef rfl).mp (h.allOf (typed "string") List.mem_cons_self) with h | h
    · exact absurd h.1 (by decide)
    · have htype := h.type _ rfl
      rw [HasType] at htype
      exact absurd htype (by decide)

theorem valid_string : Valid localSpec (nullable (typed "string")) v ↔ v = .null ∨ Keyword.string.Denotes v := by
  rw [valid_of_noRef rfl, meets_scalar rfl ⟨rfl, rfl, rfl⟩ rfl (by decide), hasType_string]
  exact or_congr_left (and_iff_right rfl)

/-- A union may stand in an intersection that it changes nothing of, so the condition is not a necessary one. -/
theorem denoted_irregular :
    Denoted localSpec (allOf [JsonSchema.empty, nullable (typed "string")]) ∧
      ¬Regular localSpec maxDepth (some (allOf [JsonSchema.empty, nullable (typed "string")])) := by
  constructor
  · have htext : schemaToTypeScript localSpec maxDepth (some (allOf [JsonSchema.empty, nullable (typed "string")])) =
        (Union.or (.and (.keyword .unknown) 0 (.one (.keyword .string) 0)) (.one (.one (.keyword .null) 0))).render := by
      decide
    refine ⟨_, by rw [htext, read_render], fun v => ?_⟩
    have hempty : Valid localSpec JsonSchema.empty v :=
      (valid_of_noRef rfl).mpr (Or.inr ((meets_untyped rfl ⟨rfl, rfl, rfl, rfl, Or.inl ⟨rfl, rfl⟩⟩).mpr
        ⟨fun h => absurd rfl h, fun h => absurd rfl h, fun _ h => by cases h⟩))
    have hall : Valid localSpec (allOf [JsonSchema.empty, nullable (typed "string")]) v ↔
        v = .null ∨ Keyword.string.Denotes v := by
      refine (valid_of_noRef rfl).trans ((or_iff_right fun h => absurd h.1 (by decide)).trans ?_)
      refine (meets_untyped rfl ⟨rfl, rfl, rfl, rfl, Or.inr (Or.inr ⟨rfl, rfl⟩)⟩).trans ⟨fun h => ?_, fun h => ?_⟩
      · exact valid_string.mp (h.2.2 _ (List.mem_cons_of_mem _ List.mem_cons_self))
      · exact ⟨fun hne => absurd rfl hne, fun hne => absurd rfl hne,
          List.forall_mem_cons.mpr ⟨hempty, List.forall_mem_singleton.mpr (valid_string.mpr h)⟩⟩
    rw [hall]
    simp [Union.Denotes, Intersection.Denotes, Primary.Denotes, Keyword.Denotes, or_comm]
  · rintro ⟨-, h | ⟨-, -, hsingle⟩⟩
    · exact absurd h.1.2.2 (List.cons_ne_nil _ _)
    · exact absurd (hsingle (Nat.le_refl 2) _ (List.mem_cons_of_mem _ List.mem_cons_self)).1 (by decide)

end Examples

end Savitools.Sdkgen.TypeDenotations
