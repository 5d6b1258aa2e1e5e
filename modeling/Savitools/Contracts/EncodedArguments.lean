import Savitools.Contracts.InvocableCatalogs

namespace Savitools.Contracts.EncodedArguments

open Strings.CodeUnits Strings.HexBytes Json.Numbers Json.Values Json.Conversions AbiCatalog AbiEncoding InvocableCatalogs

/-- What the SDK makes of a native value and its type is that value. -/
structure Faithful (sdk : Sdk) : Prop where
  integer : ∀ signed bits n v, sdk.nativeInteger signed bits n = some v → v = .integer signed bits n
  range : ∀ signed bits n, Encodes sdk (sdk.nativeInteger signed bits n) → Fits signed bits n
  bool : ∀ b v, sdk.nativeBool b = some v → v = .bool b
  symbol : ∀ t v, sdk.nativeSymbol t = some v → v = .symbol t
  string : ∀ t v, sdk.nativeString t = some v → v = .string t
  bytes : ∀ b v, sdk.nativeBytes b = some v → v = .bytes b
  address : ∀ t v, sdk.addressScVal t = some v → v = .address t

/-- Pairs of hexadecimal digits and nothing else. -/
def isFullHex (t : Text) : Bool := t.length % 2 = 0 && t.all isHexDigit

def isSymbol (t : Text) : Bool := t.length ≤ 32 && t.all isSymbolUnit

/-- The integer that a value writes: a whole number, or a text that is not blank. -/
def denotedInteger : Value Number → Option Int
  | .num (.finite q) => if q.den = 1 then some q.num else none
  | .str t => if trim t = [] then none else toBigInt t
  | _ => none

def denotedBool : Value Number → Option Bool
  | .bool b => some b
  | .str t => if t = text "true" then some true else if t = text "false" then some false else none
  | _ => none

def denotedText (holds : Text → Bool) : Value Number → Option Text
  | .str t => if holds t then some t else none
  | _ => none

/-- What a JSON value denotes at a type. -/
def denoted (normalized : Text) (value : Value Number) : Option ScVal :=
  match integerType normalized with
  | some (signed, bits) =>
      ((denotedInteger value).filter fun n => Fits signed bits n).map (.integer signed bits)
  | none =>
      if normalized = text "Bool" then (denotedBool value).map .bool
      else if normalized = text "Symbol" then (denotedText isSymbol value).map .symbol
      else if normalized = text "String" then (denotedText (fun _ => true) value).map .string
      else if normalized = text "Bytes" then
        (denotedText (fun t => isFullHex (withoutMark t)) value).map fun t => .bytes (hexBytes (withoutMark t))
      else if normalized = text "Address" then (denotedText (fun _ => true) value).map .address
      else none

variable {beyondAscii : Text → Text} {sdk : Sdk}

theorem encode_ok_iff {type : Text} {value : Value Number} {encoded : Encoded} :
    encodeAbiArgument beyondAscii sdk type value = .ok encoded ↔
      ∃ v, toScVal sdk (normalizeType beyondAscii type) value = some (some v) ∧ sdk.toXDR v = some encoded.xdrBase64 ∧
        decodeScVal sdk v = some encoded.decoded := by
  rw [encodeAbiArgument]
  cases toScVal sdk (normalizeType beyondAscii type) value with
  | none => simp
  | some made =>
      cases made with
      | none => simp
      | some v =>
          simp only [Option.bind_some, Option.some.injEq, exists_eq_left']
          cases hxdr : sdk.toXDR v with
          | none => simp
          | some xdr =>
              cases hdecoded : decodeScVal sdk v with
              | none => simp
              | some decoded =>
                  cases encoded
                  simp

/-- Two integers of one type, or two other values of one kind. -/
def SameKind : ScVal → ScVal → Prop
  | .integer signed bits _, .integer signed' bits' _ => signed = signed' ∧ bits = bits'
  | .bool _, .bool _ | .bytes _, .bytes _ | .string _, .string _ | .symbol _, .symbol _ | .address _, .address _ => True
  | _, _ => False

theorem sampleSdk_faithful : Faithful sampleSdk where
  integer signed bits n v h := by
    simp only [sampleSdk, Option.ite_none_right_eq_some] at h
    exact (Option.some.inj h.2).symm
  range signed bits n h := by
    obtain ⟨v, hv, -⟩ := h
    simp only [sampleSdk, Option.ite_none_right_eq_some] at hv
    exact hv.1
  bool b v h := (Option.some.inj h).symm
  symbol t v h := (Option.some.inj h).symm
  string t v h := (Option.some.inj h).symm
  bytes b v h := (Option.some.inj h).symm
  address t v h := by
    simp only [sampleSdk, Option.ite_none_right_eq_some] at h
    exact (Option.some.inj h.2).symm

end Savitools.Contracts.EncodedArguments
