import Savitools.Json.Writing
import Savitools.Strings.CodeUnits

namespace Savitools.Sdkgen.Types

open Strings.CodeUnits Strings.Cases Json.Numbers Json.Values Json.Writing

/-- What the generators read of a schema. Lists that are missing are empty, and so is a missing
reference; the members of records stand in the order in which they are enumerated. -/
structure JsonSchema where
  type : Option Text
  enum : List (Value Number)
  nullable : Bool
  properties : List (Text × JsonSchema)
  required : List Text
  items : Option JsonSchema
  oneOf : List JsonSchema
  anyOf : List JsonSchema
  allOf : List JsonSchema
  ref : Text

def JsonSchema.empty : JsonSchema := ⟨none, [], false, [], [], none, [], [], [], []⟩

structure OpenApiMediaType where
  schema : Option JsonSchema

structure OpenApiResponse where
  content : Option (List (Text × OpenApiMediaType))

structure OpenApiOperation where
  responses : List (Text × OpenApiResponse)

structure OpenApiSpec where
  paths : List (Text × List (Text × OpenApiOperation))
  schemas : Option (List (Text × JsonSchema))

structure GeneratorContext where
  spec : OpenApiSpec
  endpoint : Option Text

structure OperationEntry where
  path : Text
  method : Text
  operation : OpenApiOperation

def HTTP_METHODS : List Text :=
  [text "get", text "post", text "put", text "patch", text "delete", text "head", text "options"]

def RESPONSE_PREFERENCE : List Text :=
  [text "200", text "201", text "202", text "203", text "204", text "205", text "206"]

def operationsFor (context : GeneratorContext) : List OperationEntry :=
  let paths :=
    match context.endpoint.filter (· != []) with
    | some endpoint => ((context.spec.paths.lookup endpoint).map fun pathItem => (endpoint, pathItem)).toList
    | none => context.spec.paths
  paths.flatMap fun (path, pathItem) =>
    (pathItem.filter fun entry => HTTP_METHODS.contains entry.1).map fun (method, operation) => ⟨path, method, operation⟩

/-- The names that every object has from its prototype. What stands there has no member of a schema. -/
def prototypeMembers : List Text :=
  [text "constructor", text "__defineGetter__", text "__defineSetter__", text "hasOwnProperty", text "__lookupGetter__",
    text "__lookupSetter__", text "isPrototypeOf", text "propertyIsEnumerable", text "toString", text "valueOf",
    text "__proto__", text "toLocaleString"]

/-- `components.schemas[name]` -/
def namedSchema (schemas : List (Text × JsonSchema)) (name : Text) : Option JsonSchema :=
  (schemas.lookup name).or (if prototypeMembers.contains name then some .empty else none)

def lastSegment (ref : Text) : Text := (split (unit '/') ref).getLastD []

def refTarget (spec : OpenApiSpec) (ref : Text) : Option JsonSchema :=
  spec.schemas.bind fun schemas =>
    if ref = [] ∨ lastSegment ref = [] then none else namedSchema schemas (lastSegment ref)

/-- The references that may still be followed at the start, as many as there are depths up to 6. -/
def maxDepth : Nat := 7

/-- With the references that may still be followed in place of the depth. -/
def resolveSchema (spec : OpenApiSpec) : Nat → JsonSchema → JsonSchema
  | 0, schema => schema
  | left + 1, schema =>
      match refTarget spec schema.ref with
      | some target => resolveSchema spec left target
      | none => schema

def isLetter (u : UInt16) : Bool := between 'a' 'z' u || between 'A' 'Z' u

def isAlphanumeric (u : UInt16) : Bool := isLetter u || isDigit u

def refName (ref : Text) : Text :=
  let name := (lastSegment ref).filter isAlphanumeric
  if name = [] then text "Schema" else name

/-- `/^2\d\d$/` -/
def isSuccess (key : Text) : Bool :=
  match key with
  | [a, b, c] => a == unit '2' && isDigit b && isDigit c
  | _ => false

def preferredResponse (responses : List (Text × OpenApiResponse)) : Option Text :=
  let keys := responses.map Prod.fst
  (RESPONSE_PREFERENCE.find? fun key => (responses.lookup key).isSome).or
    ((keys.find? isSuccess).or
      (if (responses.lookup (text "default")).isSome then some (text "default") else keys.head?))

def responseSchema (operation : OpenApiOperation) (spec : OpenApiSpec) : Option JsonSchema :=
  ((preferredResponse operation.responses).bind fun key => operation.responses.lookup key).bind fun response =>
    response.content.bind fun content =>
      ((content.lookup (text "application/json")).or (content.head?.map Prod.snd)).bind fun media =>
        media.schema.map (resolveSchema spec maxDepth)

/-- `replace(/[…]+/g, ' ')` for the units that are not kept. -/
def blankRuns (keep : UInt16 → Bool) : Bool → Text → Text
  | _, [] => []
  | within, u :: t =>
      if keep u then u :: blankRuns keep false t
      else if within then blankRuns keep true t else unit ' ' :: blankRuns keep true t

def capitalize : Text → Text
  | [] => []
  | u :: t => toUpperAscii u :: t

def pascalCase (value : Text) : Text :=
  ((split (unit ' ') (trim (blankRuns isAlphanumeric false value))).map capitalize).flatten

def responseTypeName (method path : Text) : Text :=
  let name := pascalCase method ++ pascalCase path ++ text "Response"
  if name.head?.any isLetter then name else text "Response" ++ name

def needsParentheses (type : Text) : Bool := text " | " <:+: type || text " & " <:+: type

def orNull (nullable : Bool) (type : Text) : Text := if nullable then type ++ text " | null" else type

def schemaToTypeScript (spec : OpenApiSpec) : Nat → Option JsonSchema → Text
  | 0, _ | _, none => text "unknown"
  | left + 1, some schema =>
      let resolved := resolveSchema spec (left + 1) schema
      let union (separator : Text) (schemas : List JsonSchema) : Text :=
        separator.intercalate (schemas.map fun entry => schemaToTypeScript spec left (some entry))
      if resolved.ref ≠ [] then refName resolved.ref
      else if resolved.enum ≠ [] then orNull resolved.nullable ((text " | ").intercalate (resolved.enum.map stringify))
      else
        orNull resolved.nullable <|
          if resolved.type = some (text "integer") ∨ resolved.type = some (text "number") then text "number"
          else if resolved.type = some (text "boolean") then text "boolean"
          else if resolved.type = some (text "string") then text "string"
          else if resolved.type = some (text "array") then
            let item := schemaToTypeScript spec left resolved.items
            (if needsParentheses item then text "(" ++ item ++ text ")" else item) ++ text "[]"
          else if resolved.type = some (text "object") then
            if resolved.properties = [] then text "Record<string, unknown>"
            else
              text "\x7b " ++ (text "; ").intercalate (resolved.properties.map fun (key, value) =>
                quote key ++ (if resolved.required.contains key then [] else text "?") ++ text ": " ++
                  schemaToTypeScript spec left (some value)) ++ text " \x7d"
          else if resolved.oneOf ≠ [] then union (text " | ") resolved.oneOf
          else if resolved.anyOf ≠ [] then union (text " | ") resolved.anyOf
          else if resolved.allOf ≠ [] then union (text " & ") resolved.allOf
          else text "unknown"

def schemaToPython (spec : OpenApiSpec) : Nat → Option JsonSchema → Text
  | 0, _ | _, none => text "Any"
  | left + 1, some schema =>
      let resolved := resolveSchema spec (left + 1) schema
      if resolved.ref ≠ [] then refName resolved.ref
      else if resolved.enum ≠ [] then text "str"
      else
        let type :=
          if resolved.type = some (text "integer") then text "int"
          else if resolved.type = some (text "number") then text "float"
          else if resolved.type = some (text "boolean") then text "bool"
          else if resolved.type = some (text "string") then text "str"
          else if resolved.type = some (text "array") then
            text "List[" ++ schemaToPython spec left resolved.items ++ text "]"
          else if resolved.type = some (text "object") then text "Dict[str, Any]"
          else text "Any"
        if resolved.nullable then text "Optional[" ++ type ++ text "]" else type

def schemaToGo (spec : OpenApiSpec) : Nat → Option JsonSchema → Text
  | 0, _ | _, none => text "interface\x7b\x7d"
  | left + 1, some schema =>
      let resolved := resolveSchema spec (left + 1) schema
      if resolved.ref ≠ [] then refName resolved.ref
      else if resolved.type = some (text "integer") then text "int"
      else if resolved.type = some (text "number") then text "float64"
      else if resolved.type = some (text "boolean") then text "bool"
      else if resolved.type = some (text "string") then text "string"
      else if resolved.type = some (text "array") then text "[]" ++ schemaToGo spec left resolved.items
      else if resolved.type = some (text "object") then text "map[string]interface\x7b\x7d"
      else text "interface\x7b\x7d"

def isObjectSchema (schema : JsonSchema) (spec : OpenApiSpec) : Bool :=
  let resolved := resolveSchema spec maxDepth schema
  resolved.ref = [] && resolved.type = some (text "object") && !resolved.properties.isEmpty

end Savitools.Sdkgen.Types

namespace Savitools.Sdkgen.Generators

open Strings.CodeUnits Strings.Cases Json.Writing Types

inductive Language
  | typescript
  | python
  | go
deriving DecidableEq

/-- What generated code is put together from, as far as types go: the declaration of a type, and
the call of an operation with the type that it gives its response. -/
inductive Piece
  | declaration (name code : Text)
  | call (entry : OperationEntry) (type : Option Text)

def isIdentifierUnit (u : UInt16) : Bool := isAlphanumeric u || u == unit '_'

def lines (ls : List Text) : Text := join (unit '\n') ls

/-- The blank units between two others. -/
def splitBlanks (t : Text) : List Text := (t.splitOn (unit ' ')).filter (· != [])

def goFieldName (value : Text) : Text :=
  let identifier := trim (value.map fun u => if isIdentifierUnit u then u else unit ' ')
  let pascal := ((splitBlanks identifier).map capitalize).flatten
  if pascal = [] then text "Field" else if pascal.head?.any isDigit then text "Field" ++ pascal else pascal

def pyIdentifier (value : Text) : Text :=
  let identifier := value.map fun u => if isIdentifierUnit u then u else unit '_'
  if identifier.head?.any fun u => isLetter u || u == unit '_' then identifier else text "field_" ++ identifier

variable (spec : OpenApiSpec)

/-- `interface` of the TypeScript generator -/
def interface (name : Text) (schema : JsonSchema) : Text :=
  text "interface " ++ name ++ text " \x7b\n" ++ lines (schema.properties.map fun (key, value) =>
    text "  " ++ quote key ++ (if schema.required.contains key then [] else text "?") ++ text ": " ++
      schemaToTypeScript spec maxDepth (some value) ++ text ";") ++ text "\n\x7d\n\n"

/-- `typedDict` of the Python generator -/
def typedDict (name : Text) (schema : JsonSchema) : Text :=
  text "class " ++ name ++ text "(TypedDict, total=False):\n" ++ lines (schema.properties.map fun (key, value) =>
    text "    " ++ pyIdentifier key ++ text ": " ++ schemaToPython spec maxDepth (some value)) ++ text "\n\n"

/-- `struct` of the Go generator -/
def struct (name : Text) (schema : JsonSchema) : Text :=
  text "type " ++ name ++ text " struct \x7b\n" ++ lines (schema.properties.map fun (key, value) =>
    text "\t" ++ goFieldName key ++ text " " ++ schemaToGo spec maxDepth (some value) ++ text " `json:\"" ++ key ++
      text "\"`") ++ text "\n\x7d\n\n"

/-- The declaration that a language makes of a response. -/
def declarationOf (language : Language) (name : Text) (response : JsonSchema) : Text :=
  match language with
  | .typescript =>
      if isObjectSchema response spec then interface spec name response
      else text "type " ++ name ++ text " = " ++ schemaToTypeScript spec maxDepth (some response) ++ text ";\n\n"
  | .python =>
      if isObjectSchema response spec then typedDict spec name response
      else name ++ text " = " ++ schemaToPython spec maxDepth (some response) ++ text "\n\n"
  | .go =>
      if isObjectSchema response spec then struct spec name response
      else text "type " ++ name ++ text " " ++ schemaToGo spec maxDepth (some response) ++ text "\n\n"

def responseOf (entry : OperationEntry) : Option JsonSchema := responseSchema entry.operation spec

def typeNameOf (entry : OperationEntry) : Text := responseTypeName entry.method entry.path

def callOf (entry : OperationEntry) : Piece :=
  .call entry ((responseOf spec entry).map fun _ => typeNameOf entry)

/-- The declaration for an operation, unless its name has been emitted. -/
def declarationsOf (language : Language) (emittedTypes : List Text) (entry : OperationEntry) : List Piece :=
  match responseOf spec entry with
  | none => []
  | some response =>
      let typeName := typeNameOf entry
      if emittedTypes.contains typeName then [] else [.declaration typeName (declarationOf spec language typeName response)]

/-- The emitted names after an operation. -/
def emit (emittedTypes : List Text) (entry : OperationEntry) : List Text :=
  if (responseOf spec entry).isSome then typeNameOf entry :: emittedTypes else emittedTypes

/-- The loop of the Go generator that makes the declarations. -/
def declarations (language : Language) : List Text → List OperationEntry → List Piece
  | _, [] => []
  | emittedTypes, entry :: entries =>
      declarationsOf spec language emittedTypes entry ++ declarations language (emit spec emittedTypes entry) entries

/-- The loop that makes each declaration before the first call that needs it. -/
def interleaved (language : Language) : List Text → List OperationEntry → List Piece
  | _, [] => []
  | emittedTypes, entry :: entries =>
      declarationsOf spec language emittedTypes entry ++
        callOf spec entry :: interleaved language (emit spec emittedTypes entry) entries

def generate (language : Language) (context : GeneratorContext) : List Piece :=
  match language with
  | .typescript | .python => interleaved context.spec language [] (operationsFor context)
  | .go =>
      declarations context.spec language [] (operationsFor context) ++ (operationsFor context).map (callOf context.spec)

end Savitools.Sdkgen.Generators

namespace Savitools.Sdkgen.OwnTypes

open Strings.CodeUnits Types Generators

/-- Every operation with a response schema is called with its type, whose one declaration is made from that schema, and
operations with different schemas have no type in common. -/
structure KeepsOwnTypes (language : Language) (context : GeneratorContext) : Prop where
  own : ∀ entry ∈ operationsFor context, ∀ response, responseOf context.spec entry = some response →
    ∃ name, .call entry (some name) ∈ generate language context ∧
      ∀ code, .declaration name code ∈ generate language context ↔ code = declarationOf context.spec language name response
  apart : ∀ entry ∈ operationsFor context, ∀ other ∈ operationsFor context, ∀ response otherResponse name,
    responseOf context.spec entry = some response →
    responseOf context.spec other = some otherResponse →
    .call entry (some name) ∈ generate language context → .call other (some name) ∈ generate language context →
    response = otherResponse

/-- Operations of the same method whose paths run together to the same word have the same response schema. -/
def Unconfused (context : GeneratorContext) : Prop :=
  ∀ entry ∈ operationsFor context, ∀ other ∈ operationsFor context, entry.method = other.method →
    pascalCase entry.path = pascalCase other.path →
    ∀ response otherResponse, responseOf context.spec entry = some response →
      responseOf context.spec other = some otherResponse → response = otherResponse

section

variable {spec : OpenApiSpec} {language : Language} {emittedTypes : List Text} {entries : List OperationEntry}

theorem mem_declarationsOf {entry : OperationEntry} {piece : Piece} :
    piece ∈ declarationsOf spec language emittedTypes entry ↔
      ∃ response, responseOf spec entry = some response ∧ typeNameOf entry ∉ emittedTypes ∧
        piece = .declaration (typeNameOf entry)
          (declarationOf spec language (typeNameOf entry) response) := by
  rw [declarationsOf]
  cases responseOf spec entry with
  | none => simp
  | some response =>
      by_cases hmem : typeNameOf entry ∈ emittedTypes
      · simp [hmem]
      · simp [hmem]

theorem mem_emit {entry : OperationEntry} {name : Text} :
    name ∈ emit spec emittedTypes entry ↔
      name ∈ emittedTypes ∨ (responseOf spec entry).isSome = true ∧ name = typeNameOf entry := by
  rw [emit]
  split
  next h => simp [h, or_comm]
  next h => simp [h]

/-- A declaration is that of the first operation with its name. -/
theorem of_mem_declarations {name code : Text} (h : .declaration name code ∈ declarations spec language emittedTypes entries) :
    name ∉ emittedTypes ∧ ∃ entry ∈ entries, ∃ response, responseOf spec entry = some response ∧
      name = typeNameOf entry ∧ code = declarationOf spec language name response := by
  induction entries generalizing emittedTypes with
  | nil => cases h
  | cons entry entries ih =>
      obtain hfirst | hrest := List.mem_append.mp h
      · obtain ⟨response, hresponse, hnew, heq⟩ := mem_declarationsOf.mp hfirst
        cases heq
        exact ⟨hnew, entry, List.mem_cons_self, response, hresponse, rfl, rfl⟩
      · obtain ⟨hnew, other, hother, found⟩ := ih hrest
        exact ⟨fun hmem => hnew (mem_emit.mpr (.inl hmem)), other, List.mem_cons_of_mem _ hother, found⟩

variable (language emittedTypes) in
/-- Every name that is needed and not emitted gets a declaration. -/
theorem exists_declaration {entry : OperationEntry} (hentry : entry ∈ entries)
    (hresponse : (responseOf spec entry).isSome = true) (hnew : typeNameOf entry ∉ emittedTypes) :
    ∃ code, .declaration (typeNameOf entry) code ∈ declarations spec language emittedTypes entries := by
  induction entries generalizing emittedTypes with
  | nil => cases hentry
  | cons first entries ih =>
      by_cases hsame : (responseOf spec first).isSome = true ∧
          typeNameOf entry = typeNameOf first
      · obtain ⟨response, hfirst⟩ := Option.isSome_iff_exists.mp hsame.1
        rw [hsame.2] at hnew ⊢
        exact ⟨_, List.mem_append_left _ (mem_declarationsOf.mpr ⟨response, hfirst, hnew, rfl⟩)⟩
      · have hrest : entry ∈ entries := (List.mem_cons.mp hentry).resolve_left fun heq =>
          hsame ⟨heq ▸ hresponse, congrArg typeNameOf heq⟩
        obtain ⟨code, hcode⟩ := ih _ hrest fun hmem => (mem_emit.mp hmem).elim hnew hsame
        exact ⟨code, List.mem_append_right _ hcode⟩

theorem declaration_mem_interleaved {name code : Text} :
    .declaration name code ∈ interleaved spec language emittedTypes entries ↔
      .declaration name code ∈ declarations spec language emittedTypes entries := by
  induction entries generalizing emittedTypes with
  | nil => exact Iff.rfl
  | cons entry entries ih =>
      rw [interleaved, declarations, List.mem_append, List.mem_append, List.mem_cons, ih]
      simp [callOf]

theorem call_mem_interleaved {entry : OperationEntry} {type : Option Text} :
    .call entry type ∈ interleaved spec language emittedTypes entries ↔
      .call entry type ∈ entries.map (callOf spec) := by
  induction entries generalizing emittedTypes with
  | nil => exact Iff.rfl
  | cons first entries ih =>
      rw [interleaved, List.mem_append, List.mem_cons, ih, List.map_cons, List.mem_cons]
      refine or_iff_right fun h => ?_
      obtain ⟨response, -, -, heq⟩ := mem_declarationsOf.mp h
      cases heq

theorem call_not_mem_declarations {entry : OperationEntry} {type : Option Text} :
    .call entry type ∉ declarations spec language emittedTypes entries := by
  induction entries generalizing emittedTypes with
  | nil => exact List.not_mem_nil
  | cons first entries ih =>
      intro h
      obtain hfirst | hrest := List.mem_append.mp h
      · obtain ⟨response, -, -, heq⟩ := mem_declarationsOf.mp hfirst
        cases heq
      · exact ih hrest

end

variable {language : Language} {context : GeneratorContext}

theorem declaration_mem_generate {name code : Text} :
    .declaration name code ∈ generate language context ↔
      .declaration name code ∈ declarations context.spec language [] (operationsFor context) := by
  cases language with
  | typescript => exact declaration_mem_interleaved
  | python => exact declaration_mem_interleaved
  | go => simp [generate, callOf]

/-- An operation is called with its own name for the type of its response. -/
theorem call_mem_generate {entry : OperationEntry} {type : Option Text} :
    .call entry type ∈ generate language context ↔ entry ∈ operationsFor context ∧
      type = (responseOf context.spec entry).map fun _ => typeNameOf entry := by
  have hmap : .call entry type ∈ (operationsFor context).map (callOf context.spec) ↔ entry ∈ operationsFor context ∧
      type = (responseOf context.spec entry).map fun _ => typeNameOf entry := by
    rw [List.mem_map]
    constructor
    · rintro ⟨other, hother, heq⟩
      cases heq
      exact ⟨hother, rfl⟩
    · rintro ⟨hentry, rfl⟩
      exact ⟨entry, hentry, rfl⟩
  cases language with
  | typescript => exact call_mem_interleaved.trans hmap
  | python => exact call_mem_interleaved.trans hmap
  | go => exact (List.mem_append.trans (or_iff_right call_not_mem_declarations)).trans hmap

theorem method_mem {entry : OperationEntry} (h : entry ∈ operationsFor context) : entry.method ∈ HTTP_METHODS := by
  obtain ⟨pathItem, -, hitem⟩ := List.mem_flatMap.mp h
  obtain ⟨member, hmember, rfl⟩ := List.mem_map.mp hitem
  simpa using (List.mem_filter.mp hmember).2

theorem pascalCase_methods : ∀ method ∈ HTTP_METHODS, ∀ other ∈ HTTP_METHODS,
    pascalCase method <+: pascalCase other → method = other := by
  decide

theorem letter_methods : ∀ method ∈ HTTP_METHODS, (pascalCase method).head?.any isLetter = true := by
  decide

theorem responseTypeName_eq {method : Text} (hmethod : method ∈ HTTP_METHODS) (path : Text) :
    responseTypeName method path = pascalCase method ++ pascalCase path ++ text "Response" := by
  have hletter := letter_methods method hmethod
  rw [responseTypeName]
  refine if_pos ?_
  cases hname : pascalCase method with
  | nil =>
      rw [hname] at hletter
      cases hletter
  | cons u rest =>
      rw [hname] at hletter
      exact hletter

/-- Names are only shared within a method. -/
theorem responseTypeName_inj {method other path otherPath : Text} (hmethod : method ∈ HTTP_METHODS) (hother : other ∈ HTTP_METHODS) :
    responseTypeName method path = responseTypeName other otherPath ↔
      method = other ∧ pascalCase path = pascalCase otherPath := by
  rw [responseTypeName_eq hmethod, responseTypeName_eq hother, List.append_left_inj]
  constructor
  · intro h
    have hprefix : pascalCase method <+: pascalCase other ++ pascalCase otherPath := h ▸ List.prefix_append _ _
    obtain hle | hle := List.prefix_or_prefix_of_prefix hprefix (List.prefix_append _ _)
    · obtain rfl := pascalCase_methods method hmethod other hother hle
      exact ⟨rfl, List.append_cancel_left h⟩
    · obtain rfl := pascalCase_methods other hother method hmethod hle
      exact ⟨rfl, List.append_cancel_left h⟩
  · rintro ⟨rfl, hpath⟩
    rw [hpath]

theorem unconfused_of_apart (h : KeepsOwnTypes language context) : Unconfused context := by
  intro entry hentry other hother hmethod hpath response otherResponse hresponse hotherResponse
  have hname : typeNameOf entry = typeNameOf other :=
    (responseTypeName_inj (method_mem hentry) (method_mem hother)).mpr ⟨hmethod, hpath⟩
  refine h.apart entry hentry other hother response otherResponse (typeNameOf entry) hresponse hotherResponse ?_ ?_
  · exact call_mem_generate.mpr ⟨hentry, by rw [hresponse]; rfl⟩
  · exact call_mem_generate.mpr ⟨hother, by rw [hotherResponse, hname]; rfl⟩

theorem same_response (h : Unconfused context) {entry other : OperationEntry} (hentry : entry ∈ operationsFor context)
    (hother : other ∈ operationsFor context) (hname : typeNameOf entry = typeNameOf other)
    {response otherResponse : JsonSchema} (hresponse : responseOf context.spec entry = some response)
    (hotherResponse : responseOf context.spec other = some otherResponse) : response = otherResponse := by
  obtain ⟨hmethod, hpath⟩ := (responseTypeName_inj (method_mem hentry) (method_mem hother)).mp hname
  exact h entry hentry other hother hmethod hpath response otherResponse hresponse hotherResponse

theorem keepsOwnTypes_of_unconfused (h : Unconfused context) : KeepsOwnTypes language context where
  own := by
    intro entry hentry response hresponse
    refine ⟨typeNameOf entry, call_mem_generate.mpr ⟨hentry, by rw [hresponse]; rfl⟩, fun code => ?_⟩
    have hown {code : Text} (hcode : .declaration (typeNameOf entry) code ∈
        declarations context.spec language [] (operationsFor context)) :
        code = declarationOf context.spec language (typeNameOf entry) response := by
      obtain ⟨-, other, hother, otherResponse, hotherResponse, hname, rfl⟩ := of_mem_declarations hcode
      rw [same_response h hentry hother hname hresponse hotherResponse]
    rw [declaration_mem_generate]
    refine ⟨hown, ?_⟩
    rintro rfl
    obtain ⟨code, hcode⟩ := exists_declaration language [] hentry (Option.isSome_of_eq_some hresponse) List.not_mem_nil
    exact hown hcode ▸ hcode
  apart := by
    intro entry hentry other hother response otherResponse name hresponse hotherResponse hcall hotherCall
    obtain ⟨-, hname⟩ := call_mem_generate.mp hcall
    obtain ⟨-, hotherName⟩ := call_mem_generate.mp hotherCall
    rw [hresponse, Option.map_some, Option.some.injEq] at hname
    rw [hotherResponse, Option.map_some, Option.some.injEq] at hotherName
    exact same_response h hentry hother (hname.symm.trans hotherName) hresponse hotherResponse

/-- The generators keep the types of operations apart exactly when no two operations are confused. -/
theorem keepsOwnTypes_iff (language : Language) (context : GeneratorContext) :
    KeepsOwnTypes language context ↔ Unconfused context :=
  ⟨unconfused_of_apart, keepsOwnTypes_of_unconfused⟩

/-- An operation that answers with a value of this type. -/
def answers (type : Text) : OpenApiOperation :=
  ⟨[(text "200", ⟨some [(text "application/json", ⟨some { JsonSchema.empty with type := some type }⟩)]⟩)]⟩

/-- Two operations that are called with one name and answer with different values. -/
def confusedContext : GeneratorContext where
  spec :=
    { paths := [(text "/a-b", [(text "get", answers (text "string"))]), (text "/a/b", [(text "get", answers (text "integer"))])]
      schemas := none }
  endpoint := none

theorem not_unconfused : ¬Unconfused confusedContext := by
  intro h
  have hmem : (⟨text "/a-b", text "get", answers (text "string")⟩ : OperationEntry) ∈ operationsFor confusedContext ∧
      (⟨text "/a/b", text "get", answers (text "integer")⟩ : OperationEntry) ∈ operationsFor confusedContext :=
    ⟨List.mem_cons_self, List.mem_cons_of_mem _ List.mem_cons_self⟩
  have hpath : pascalCase (text "/a-b") = pascalCase (text "/a/b") := by decide
  have hsame := h _ hmem.1 _ hmem.2 rfl hpath _ _ rfl rfl
  have htype : some (text "string") = some (text "integer") := congrArg JsonSchema.type hsame
  exact absurd htype (by decide)

/-- In none of the languages. -/
theorem not_keepsOwnTypes : ¬KeepsOwnTypes .typescript confusedContext ∧ ¬KeepsOwnTypes .python confusedContext ∧
    ¬KeepsOwnTypes .go confusedContext :=
  ⟨fun h => not_unconfused (unconfused_of_apart h), fun h => not_unconfused (unconfused_of_apart h),
    fun h => not_unconfused (unconfused_of_apart h)⟩

end Savitools.Sdkgen.OwnTypes
