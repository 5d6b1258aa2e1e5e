import Savitools.Json.Conversions
import Savitools.Json.Writing
import Savitools.Strings.Utf8
import Mathlib.Algebra.Ring.Int.Defs
import Savitools.Strings.HexBytes

namespace Savitools.Contracts.AbiCatalog

open Strings.CodeUnits Strings.Decimals Strings.Utf8 Json.Numbers Json.Values Json.Writing Json.Conversions

def abiMaxBytes : Nat := 512 * 1024

def abiSupportedArgTypes : List Text :=
  [text "Address", text "Bool", text "Bytes", text "I32", text "I64", text "I128", text "I256", text "Symbol",
    text "String", text "U32", text "U64", text "U128", text "U256"]

def maxMethodNameLength : Nat := 64

def maxArguments : Nat := 32

def maxTopics : Nat := 8

structure AbiMethodArg where
  name : Text
  type : Text
deriving DecidableEq

structure AbiEventTopic where
  name : Text
  indexed : Bool
deriving DecidableEq

structure AbiMethod where
  name : Text
  arguments : List AbiMethodArg
  returnType : Text
deriving DecidableEq

structure AbiEvent where
  name : Text
  arguments : List AbiMethodArg
  topics : List AbiEventTopic
deriving DecidableEq

structure AbiCatalogEntry where
  id : Text
  contractId : Text
  wasmId : Option Text
  network : Text
  name : Option Text
  methods : List AbiMethod
  events : List AbiEvent
  attachedAt : Text
deriving DecidableEq

structure FieldError where
  field : Text
  message : Text
deriving DecidableEq

inductive AbiError
  | badRequest (message : Text)
  | unprocessable (errors : List FieldError)
deriving DecidableEq

/-- `/^option<.+>$/` -/
def isWrappedOption (lower : Text) : Bool :=
  let inner := (lower.drop 7).dropLast
  lower.take 7 == text "option<" && lower.getLast? == some (unit '>') && inner != [] && !inner.any isLineEnd

/-- The match of `/^(u|i)(32|64|128|256)$/`, with the letter in upper case. -/
def intMatch : Text → Option Text
  | [] => none
  | u :: bits =>
      if (u = unit 'u' ∨ u = unit 'i') ∧ bits ∈ [text "32", text "64", text "128", text "256"] then
        some ((u - 32) :: bits)
      else none

variable (beyondAscii : Text → Text)

def normalizeType (type : Text) : Text :=
  let lower := toLowerCase beyondAscii (trim type)
  match abiSupportedArgTypes.find? (fun t => t.map toLowerAscii == lower) with
  | some direct => direct
  | none =>
      if isWrappedOption lower then text "Option"
      else if lower = text "boolean" then text "Bool"
      else if text "bytes" <+: lower then text "Bytes"
      else (intMatch lower).getD (trim type)

def nonNull : Option (Value Number) → Option (Value Number)
  | some .null => none
  | v => v

/-- `fields[a] ?? fields[b] ?? ...` -/
def firstOf (fields : List (Text × Value Number)) (keys : List Text) : Option (Value Number) :=
  keys.findSome? (fun key => nonNull (fields.lookup key))

def nonEmptyText : Option (Value Number) → Option Text
  | some (.str (u :: t)) => some (u :: t)
  | _ => none

/-- The message is that of the exception. -/
def parseArg (raw : Value Number) (field : Text) : Except Text AbiMethodArg :=
  match raw with
  | .obj fields =>
      match nonEmptyText (fields.lookup (text "name")) with
      | none => .error (field ++ text ".name must be a non-empty string")
      | some name =>
          match nonEmptyText (firstOf fields [text "type", text "argType", text "kind"]) with
          | none => .error (field ++ text ".type must be a non-empty string")
          | some type => .ok ⟨name, normalizeType beyondAscii type⟩
  | _ => .error (field ++ text " must be an object with name and type")

def items : Option (Value Number) → Option (List (Value Number))
  | some (.arr items) => some items
  | _ => none

/-- The first of the four fields that is an array; without one there are no arguments. -/
def rawArgList (fields : List (Text × Value Number)) : List (Value Number) × Text :=
  ([text "args", text "arguments", text "params", text "data"].findSome? fun field =>
    (items (fields.lookup field)).map (·, field)).getD ([], text "arguments")

def indexed (field : Text) (i : Nat) : Text := field ++ unit '[' :: ofNat i ++ [unit ']']

def parseArgs (argsField : Text) : Nat → List (Value Number) → Except Text (List AbiMethodArg)
  | _, [] => .ok []
  | j, raw :: raws => do
      let arg ← parseArg beyondAscii raw (indexed argsField j)
      let args ← parseArgs argsField (j + 1) raws
      return arg :: args

/-- The part of a message up to its first white space, when it names a field. -/
def messageField (message argsField : Text) : Text :=
  let field := message.takeWhile (fun u => !isSpace u)
  if text "schema." <+: message ∧ 7 < field.length then field else argsField

def messageRest (message : Text) : Text :=
  if text "schema." <+: message ∧ 7 < (message.takeWhile (fun u => !isSpace u)).length then
    trimStart (message.dropWhile (fun u => !isSpace u))
  else message

/-- `replace(/^Option<|>$/g, '')` -/
def unwrapped (type : Text) : Text :=
  let type := if text "Option<" <+: type then type.drop 7 else type
  if type.getLast? = some (unit '>') then type.dropLast else type

def assertSupportedTypes (arguments : List AbiMethodArg) (field : Text) : List FieldError :=
  arguments.filterMap fun arg =>
    if arg.type ∉ abiSupportedArgTypes ∧ arg.type ≠ text "Option" then
      some ⟨field ++ unit '.' :: arg.name ++ text ".type",
        text "unsupported type '" ++ unwrapped arg.type ++ text "' for the existing SCVal utilities"⟩
    else none

/-- What a loop over the methods or events has gathered. -/
structure Gathered (α : Type) where
  seen : List Text
  entries : List α
  errors : List FieldError

def Gathered.fail {α : Type} (g : Gathered α) (field message : Text) : Gathered α :=
  { g with errors := g.errors ++ [⟨field, message⟩] }

def Gathered.see {α : Type} (g : Gathered α) (name : Text) : Gathered α := { g with seen := g.seen ++ [name] }

/-- The body of the loop over the methods. -/
def addMethod (g : Gathered AbiMethod) (i : Nat) (rawMethod : Value Number) : Gathered AbiMethod :=
  let field := indexed (text "schema.methods") i
  match rawMethod with
  | .obj fields =>
      match nonEmptyText (fields.lookup (text "name")) with
      | none => g.fail (field ++ text ".name") (text "must be a non-empty string")
      | some name =>
          if maxMethodNameLength < name.length then
            g.fail (field ++ text ".name") (text "exceeds the maximum length of " ++ ofNat maxMethodNameLength)
          else if name ∈ g.seen then
            g.fail (field ++ text ".name") (text "duplicate method name '" ++ name ++ text "'")
          else
            let g := g.see name
            let (array, argField) := rawArgList fields
            let argsField := field ++ unit '.' :: argField
            match parseArgs beyondAscii argsField 0 array with
            | .error message => g.fail (messageField message argsField) (messageRest message)
            | .ok parsedArgs =>
                if maxArguments < parsedArgs.length then
                  g.fail argsField (text "exceeds the maximum of " ++ ofNat maxArguments ++ text " arguments")
                else
                  let returnType :=
                    match firstOf fields [text "return", text "returns", text "returnType"] with
                    | some (.str returnTypeRaw) => normalizeType beyondAscii returnTypeRaw
                    | _ => text "Void"
                  { g with
                    entries := g.entries ++ [⟨name, parsedArgs, returnType⟩]
                    errors := g.errors ++ assertSupportedTypes parsedArgs argsField }
  | _ => g.fail field (text "must be an object")

def numberIsZero : Number → Bool
  | .finite q => q == 0
  | .infinite _ => false

def toBoolean : Option (Value Number) → Bool
  | none => false
  | some v => v.truthy numberIsZero

def parseTopic (field : Text) (j : Nat) (t : Value Number) : Except FieldError AbiEventTopic :=
  match t with
  | .obj fields =>
      match fields.lookup (text "name") with
      | some (.str name) => .ok ⟨name, toBoolean (fields.lookup (text "indexed"))⟩
      | _ => .error ⟨indexed (field ++ text ".topics") j, text "must be an object with a name"⟩
  | _ => .error ⟨indexed (field ++ text ".topics") j, text "must be an object with a name"⟩

/-- The body of the loop over the events. -/
def addEvent (g : Gathered AbiEvent) (i : Nat) (rawEvent : Value Number) : Gathered AbiEvent :=
  let field := indexed (text "schema.events") i
  match rawEvent with
  | .obj fields =>
      match nonEmptyText (firstOf fields [text "name", text "type"]) with
      | none => g.fail (field ++ text ".name") (text "must be a non-empty string")
      | some name =>
          if name ∈ g.seen then
            g.fail (field ++ text ".name") (text "duplicate event name '" ++ name ++ text "'")
          else
            let g := g.see name
            let (array, argField) := rawArgList fields
            let argsField := field ++ unit '.' :: argField
            match parseArgs beyondAscii argsField 0 array with
            | .error message => g.fail (messageField message argsField) (messageRest message)
            | .ok parsedArgs =>
                let parsed := (((items (fields.lookup (text "topics"))).getD []).take maxTopics).mapIdx (parseTopic field)
                { g with
                  entries := g.entries ++ [⟨name, parsedArgs, parsed.filterMap Except.toOption⟩]
                  errors := g.errors ++ parsed.filterMap fun t => match t with
                    | .error error => some error
                    | .ok _ => none }
  | _ => g.fail field (text "must be an object")

def gather {α : Type} (add : Gathered α → Nat → Value Number → Gathered α) :
    Gathered α → Nat → List (Value Number) → Gathered α
  | g, _, [] => g
  | g, i, raw :: raws => gather add (add g i raw) (i + 1) raws

/-- A missing list is empty; anything else that is no array is an error. -/
def gatherAll {α : Type} (add : Gathered α → Nat → Value Number → Gathered α) (field : Text) :
    Option (Value Number) → Gathered α
  | none => ⟨[], [], []⟩
  | some (.arr raws) => gather add ⟨[], [], []⟩ 0 raws
  | some _ => ⟨[], [], [⟨field, text "must be an array"⟩]⟩

mutual

/-- The message of the exception, if there is a key `__proto__` anywhere. -/
def prototypePollution (path : Text) : Value Number → Option Text
  | .arr values => pollutedItem path 0 values
  | .obj fields => pollutedField path fields
  | _ => none

def pollutedItem (path : Text) : Nat → List (Value Number) → Option Text
  | _, [] => none
  | i, v :: values => (prototypePollution (indexed path i) v).or (pollutedItem path (i + 1) values)

def pollutedField (path : Text) : List (Text × Value Number) → Option Text
  | [] => none
  | (key, v) :: fields =>
      if key = text "__proto__" then some (path ++ unit '.' :: key ++ text " is not allowed")
      else (prototypePollution (path ++ unit '.' :: key) v).or (pollutedField path fields)

end

structure Options where
  wasmId : Option Text
  network : Option Text
  name : Option Text

def catalogId (contractId : Text) (wasmId : Option Text) : Text :=
  contractId ++ unit ':' :: wasmId.getD (text "default")

/-- A missing document is measured like an empty one. -/
def serializedBytes : Value Number → Nat
  | .null => (textEncode (stringify (.obj []))).length
  | rawSchema => (textEncode (stringify rawSchema)).length

def methodsOf (fields : List (Text × Value Number)) : Gathered AbiMethod :=
  gatherAll (addMethod beyondAscii) (text "schema.methods") (firstOf fields [text "methods", text "functions"])

def eventsOf (fields : List (Text × Value Number)) : Gathered AbiEvent :=
  gatherAll (addEvent beyondAscii) (text "schema.events") (firstOf fields [text "events"])

def buildAbiCatalog (contractId : Text) (rawSchema : Value Number) (options : Options) (attachedAt : Text) :
    Except AbiError AbiCatalogEntry :=
  if abiMaxBytes < serializedBytes rawSchema then
    .error (.badRequest (text "schema exceeds the maximum accepted size of " ++ ofNat abiMaxBytes ++ text " bytes"))
  else
    match rawSchema with
    | .obj fields =>
        match prototypePollution (text "schema") (.obj fields) with
        | some message => .error (.badRequest message)
        | none =>
            let methods := methodsOf beyondAscii fields
            let events := eventsOf beyondAscii fields
            if methods.errors ++ events.errors ≠ [] then .error (.unprocessable (methods.errors ++ events.errors))
            else
              .ok {
                id := catalogId contractId options.wasmId
                contractId := contractId
                wasmId := options.wasmId
                network := options.network.getD (text "testnet")
                name := options.name
                methods := methods.entries
                events := events.entries
                attachedAt := attachedAt }
    | _ => .error (.badRequest (text "schema must be a JSON object"))

end Savitools.Contracts.AbiCatalog

namespace Savitools.Contracts.AbiEncoding

open Strings.CodeUnits Strings.Decimals Strings.HexBytes Strings.Utf8 Json.Numbers Json.Values Json.Conversions AbiCatalog

/-- The values of the contract language that an argument can be encoded as. -/
inductive ScVal
  | bool (b : Bool)
  | integer (signed : Bool) (bits : Nat) (n : Int)
  | bytes (bytes : List (BitVec 8))
  | string (t : Text)
  | symbol (t : Text)
  | address (t : Text)
deriving DecidableEq

/-- What is used of the Stellar SDK; a call without a result throws. -/
structure Sdk where
  nativeInteger : Bool → Nat → Int → Option ScVal
  nativeBool : Bool → Option ScVal
  nativeSymbol : Text → Option ScVal
  nativeString : Text → Option ScVal
  nativeBytes : List (BitVec 8) → Option ScVal
  addressScVal : Text → Option ScVal
  toXDR : ScVal → Option Text

structure DecodedScVal where
  type : Text
  value : Value Number
  raw : Text

structure Encoded where
  xdrBase64 : Text
  decoded : DecodedScVal

inductive EncodeError
  | unsupported (message : Text)
  | thrown
deriving DecidableEq

def scValName : ScVal → Text
  | .bool _ => text "scvBool"
  | .integer signed bits _ => (if signed then text "scvI" else text "scvU") ++ ofNat bits
  | .bytes _ => text "scvBytes"
  | .string _ => text "scvString"
  | .symbol _ => text "scvSymbol"
  | .address _ => text "scvAddress"

/-- Integers of 64 bits and more are written as text. -/
def decodedValue : ScVal → Value Number
  | .bool b => .bool b
  | .integer _ bits n => if bits = 32 then .num (.ofInt n) else .str (intText n)
  | .bytes bytes => .str (bytesHex bytes)
  | .string t | .symbol t | .address t => .str t

def decodeScVal (sdk : Sdk) (v : ScVal) : Option DecodedScVal :=
  (sdk.toXDR v).map fun raw => ⟨scValName v, decodedValue v, raw⟩

/-- `replace(/^0x/, '')` -/
def withoutMark (t : Text) : Text := if text "0x" <+: t then t.drop 2 else t

/-- The integer types, with what they are called in the SDK. -/
def integerType (normalized : Text) : Option (Bool × Nat) :=
  [(text "U32", false, 32), (text "U64", false, 64), (text "U128", false, 128), (text "U256", false, 256),
    (text "I32", true, 32), (text "I64", true, 64), (text "I128", true, 128), (text "I256", true, 256)].lookup normalized

/-- The value that an argument of a normalised type becomes; nothing when a call throws. -/
def toScVal (sdk : Sdk) (normalized : Text) (value : Value Number) : Option (Option ScVal) :=
  match integerType normalized with
  | some (signed, bits) => some ((toBigInt (stringOf value)).bind (sdk.nativeInteger signed bits))
  | none =>
      if normalized = text "Bool" then some (sdk.nativeBool (toBoolean (some value)))
      else if normalized = text "Symbol" then some (sdk.nativeSymbol (stringOf value))
      else if normalized = text "String" then some (sdk.nativeString (stringOf value))
      else if normalized = text "Bytes" then some (sdk.nativeBytes (hexBytes (withoutMark (stringOf value))))
      else if normalized = text "Address" then some (sdk.addressScVal (stringOf value))
      else none

def encodeAbiArgument (beyondAscii : Text → Text) (sdk : Sdk) (type : Text) (value : Value Number) :
    Except EncodeError Encoded :=
  match toScVal sdk (normalizeType beyondAscii type) value with
  | none => .error (.unsupported (text "Unsupported argument type '" ++ type ++ text "' for SCVal encoding"))
  | some v =>
      match v.bind sdk.toXDR, v.bind (decodeScVal sdk) with
      | some xdrBase64, some decoded => .ok ⟨xdrBase64, decoded⟩
      | _, _ => .error .thrown

end Savitools.Contracts.AbiEncoding
