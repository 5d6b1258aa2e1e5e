import Savitools.Contracts.AbiCatalogs
import Savitools.Contracts.InvocableCatalogs
import Savitools.Contracts.ScValDecoder
import Savitools.Json.WholeTexts

namespace Savitools.Composer.HostFunctions

open Strings.CodeUnits Strings.Decimals Strings.HexBytes Json.Numbers Json.Values Json.Conversions Json.WholeTexts
open Contracts.AbiCatalog Contracts.AbiCatalogs
open Contracts.ScValDecoder (ScVal)

/-- What is given to `nativeToScVal` without a type; a missing member is no value. -/
inductive Native
  | json (value : Option (Value Number))
  | bigint (n : Int)
  | buffer (bytes : List (BitVec 8))
  | nan

structure InvokeOperation where
  contract : Text
  function : Text
  args : List ScVal

/-- What is used of the Stellar SDK; a call without a result throws. -/
structure ComposerSdk where
  isValidContract : Text → Bool
  fromXDR : Value Number → Option ScVal
  nativeToScVal : Native → Option ScVal
  addressFromString : Option (Value Number) → Option ScVal
  invokeContractFunction : Text → Text → List ScVal → Option InvokeOperation

structure InvokeHostFunctionDto where
  contractId : Text
  functionName : Text
  arguments : Option (List (Value Number))
  useAbi : Option Bool
  rawMode : Option Bool
  wasmId : Option Text

/-- A failed conversion is a bad request as well, with the type that was asked for and the reason of the SDK in its message. -/
inductive InvokeError
  | badRequest (message : Text)
  | conversion (type : Value Number)
  | thrown

/-- `String(v)`, also of a value that is missing. -/
def stringOfAny (value : Option (Value Number)) : Text := value.elim (text "undefined") stringOf

/-- `BigInt(v)` of a value, where it does not throw. -/
def toBigIntValue : Option (Value Number) → Option Int
  | some (.num (.finite q)) => if q.den = 1 then some q.num else none
  | some (.bool b) => some (if b then 1 else 0)
  | some (.str t) => toBigInt t
  | some (.arr items) => toBigInt (stringOf (.arr items))
  | _ => none

/-- `Number(v)`; nothing stands for NaN. -/
def toNumberValue : Value Number → Option Number
  | .null => some (.finite 0)
  | .bool b => some (.finite (if b then 1 else 0))
  | .num x => some x
  | .str t => toNumber t
  | .arr items => toNumber (stringOf (.arr items))
  | .obj _ => none

/-- What a number is stored as in a byte. -/
def toUint8 : Option Number → BitVec 8
  | some (.finite q) => BitVec.ofInt 8 (q.num.tdiv q.den)
  | _ => 0

/-- `Buffer.from(v)` of what is no text: an array, an object with a length, or a buffer as it is written in JSON. -/
def bufferFrom : Option (Value Number) → Option (List (BitVec 8))
  | some (.arr items) => some (items.map fun v => toUint8 (toNumberValue v))
  | some (.obj fields) =>
      match fields.lookup (text "length") with
      | some (.num (.finite q)) =>
          some ((List.range (q.num.toNat / q.den)).map fun i => toUint8 ((fields.lookup (ofNat i)).bind toNumberValue))
      | some (.num (.infinite negative)) => if negative then some [] else none
      | some _ => some []
      | none =>
          match fields.lookup (text "type"), fields.lookup (text "data") with
          | some (.str t), some (.arr items) =>
              if t = text "Buffer" then some (items.map fun v => toUint8 (toNumberValue v)) else none
          | _, _ => none
  | _ => none

variable (beyondAscii : Text → Text) (sdk : ComposerSdk)

/-- The cases of `buildScValFromType` for values without parts; for the other types there is no answer. -/
def buildScalar (type : Text) (value : Option (Value Number)) : Option (Option ScVal) :=
  if type = text "address" then some (sdk.addressFromString value)
  else if type = text "bool" ∨ type = text "boolean" then
    some (sdk.nativeToScVal (.json (some (.bool (toBoolean value)))))
  else if type = text "bytes" then
    match value with
    | some (.str t) => some (sdk.nativeToScVal (.buffer (hexBytes t)))
    | _ => some ((bufferFrom value).bind fun bytes => sdk.nativeToScVal (.buffer bytes))
  else if type = text "string" then some (sdk.nativeToScVal (.json (some (.str (stringOfAny value)))))
  else if type = text "symbol" then some (some (.symbol (stringOfAny value)))
  else if type = text "i32" ∨ type = text "u32" then
    some (sdk.nativeToScVal ((parseIntAny (stringOfAny value)).elim .nan fun x => .json (some (.num x))))
  else if type ∈ [text "i64", text "i128", text "i256", text "u64", text "u128", text "u256"] then
    some ((toBigIntValue value).bind fun n => sdk.nativeToScVal (.bigint n))
  else none

mutual

/-- Nothing when the conversion throws; a type that is no text has no `toLowerCase`. -/
def buildScValFromType (type value : Value Number) : Option ScVal :=
  match type with
  | .str t =>
      let lower := toLowerCase beyondAscii t
      match buildScalar sdk lower (some value) with
      | some built => built
      | none =>
          if lower = text "vec" ∨ lower = text "array" then
            match value with
            | .arr items => (buildItems items).map fun elements => .vec (some elements)
            | _ => none
          else if lower = text "map" ∨ lower = text "object" then
            match value with
            | .obj fields => (buildFields fields).map fun entries => .map (some entries)
            | _ => none
          else sdk.nativeToScVal (.json (some value))
  | _ => none

def buildItems : List (Value Number) → Option (List ScVal)
  | [] => some []
  | item :: items => do
      let element ← buildPart item
      let elements ← buildItems items
      return element :: elements

def buildFields : List (Text × Value Number) → Option (List (ScVal × ScVal))
  | [] => some []
  | (key, val) :: fields => do
      let keyScVal ← sdk.nativeToScVal (.json (some (.str key)))
      let valScVal ← buildPart val
      let entries ← buildFields fields
      return (keyScVal, valScVal) :: entries

/-- An item of a list or a value of a map: an object that names a type is built from it, and null has no members. -/
def buildPart : Value Number → Option ScVal
  | .null => none
  | .obj fields =>
      match fields.lookup (text "type") with
      | some type => if toBoolean (some type) then buildMember type fields else sdk.nativeToScVal (.json (some (.obj fields)))
      | none => sdk.nativeToScVal (.json (some (.obj fields)))
  | item => sdk.nativeToScVal (.json (some item))

/-- `buildScValFromType(type, item.value)` -/
def buildMember (type : Value Number) : List (Text × Value Number) → Option ScVal
  | [] =>
      match type with
      | .str t =>
          let lower := toLowerCase beyondAscii t
          match buildScalar sdk lower none with
          | some built => built
          | none =>
              if lower ∈ [text "vec", text "array", text "map", text "object"] then none else sdk.nativeToScVal (.json none)
      | _ => none
  | (name, value) :: fields => if name = text "value" then buildScValFromType type value else buildMember type fields

end

/-- One argument in raw mode: a type with a value, XDR, or a native value. -/
def convertRawArgument : Value Number → Except InvokeError ScVal
  | .obj fields =>
      match fields.lookup (text "type"), fields.lookup (text "value"), fields.lookup (text "xdr") with
      | some type, some value, xdr =>
          if toBoolean (some type) then
            (buildScValFromType beyondAscii sdk type value).elim (.error (.conversion type)) .ok
          else orXdr fields xdr
      | _, _, xdr => orXdr fields xdr
  | arg => converted (sdk.nativeToScVal (.json (some arg)))
where
  converted (v : Option ScVal) : Except InvokeError ScVal := v.elim (.error .thrown) .ok
  orXdr (fields : List (Text × Value Number)) (xdr : Option (Value Number)) : Except InvokeError ScVal :=
    if toBoolean xdr then converted (xdr.bind sdk.fromXDR) else converted (sdk.nativeToScVal (.json (some (.obj fields))))

def convertRawArgumentsToScVals (args : List (Value Number)) : Except InvokeError (List ScVal) :=
  args.mapM (convertRawArgument beyondAscii sdk)

def nativeArguments (args : List (Value Number)) : Option (List ScVal) :=
  args.mapM fun arg => sdk.nativeToScVal (.json (some arg))

def decodeArguments (encoded : List EncodedArg) : Option (List ScVal) :=
  encoded.mapM fun arg => sdk.fromXDR (.str arg.encoded.xdrBase64)

/-- The three modes; ABI mode falls back to native values when anything in it throws. -/
def argumentScVals (abi : Contracts.AbiEncoding.Sdk) (now : Nat) (service : Option Catalogs) (dto : InvokeHostFunctionDto) :
    Option Catalogs × Except InvokeError (List ScVal) :=
  let args := dto.arguments.getD []
  let native : Except InvokeError (List ScVal) := (nativeArguments sdk args).elim (.error .thrown) .ok
  if dto.rawMode = some true then (service, convertRawArgumentsToScVals beyondAscii sdk args)
  else
    match service with
    | none => (none, native)
    | some catalogs =>
        if dto.useAbi = some false then (some catalogs, native)
        else
          match encodeAbiArguments beyondAscii abi dto.contractId dto.functionName args dto.wasmId now catalogs with
          | (catalogs, .ok encoded) => (some catalogs, (decodeArguments sdk encoded).elim native .ok)
          | (catalogs, .error _) => (some catalogs, native)

/-- With the catalogs of the contracts service, where there is one, as the call leaves them. -/
def buildInvokeHostFunctionOperation (abi : Contracts.AbiEncoding.Sdk) (now : Nat) (service : Option Catalogs)
    (dto : InvokeHostFunctionDto) : Option Catalogs × Except InvokeError InvokeOperation :=
  if !sdk.isValidContract dto.contractId then (service, .error (.badRequest (text "Invalid contract ID format")))
  else if dto.functionName = [] then (service, .error (.badRequest (text "Function name is required")))
  else
    match argumentScVals beyondAscii sdk abi now service dto with
    | (service, .error error) => (service, .error error)
    | (service, .ok scVals) =>
        (service, (sdk.invokeContractFunction dto.contractId dto.functionName scVals).elim (.error .thrown) .ok)

/-- The request asks for ABI mode, which is the default. -/
def AbiMode (dto : InvokeHostFunctionDto) : Prop := dto.rawMode ≠ some true ∧ dto.useAbi ≠ some false

/-- There is a catalog for the contract of the request, and it has not expired. -/
def Attached (now : Nat) (catalogs : Catalogs) (dto : InvokeHostFunctionDto) : Prop :=
  ∃ slot, catalogs.lookup (catalogId dto.contractId dto.wasmId) = some slot ∧ now ≤ slot.expiresAt

section Fallback

variable (abi : Contracts.AbiEncoding.Sdk) (now : Nat) (catalogs : Catalogs) (dto : InvokeHostFunctionDto)

def EncodedAs (scVals : List ScVal) : Prop :=
  ∃ encoded, (encodeAbiArguments beyondAscii abi dto.contractId dto.functionName (dto.arguments.getD []) dto.wasmId now
    catalogs).2 = .ok encoded ∧ decodeArguments sdk encoded = some scVals

/-- With a catalog attached, an operation that is built in ABI mode has the arguments that the catalog encodes. -/
def NeverDegrades : Prop :=
  AbiMode dto → Attached now catalogs dto → ∀ operation,
    (buildInvokeHostFunctionOperation beyondAscii sdk abi now (some catalogs) dto).2 = .ok operation →
      ∃ scVals, EncodedAs beyondAscii sdk abi now catalogs dto scVals ∧
        sdk.invokeContractFunction dto.contractId dto.functionName scVals = some operation

/-- The catalog encodes the arguments, or the request fails in any case: its contract or function has no proper name, or
the SDK makes no operation of the arguments as native values. -/
def EncodesOrFails : Prop :=
  AbiMode dto → Attached now catalogs dto →
    (∃ scVals, EncodedAs beyondAscii sdk abi now catalogs dto scVals) ∨ sdk.isValidContract dto.contractId = false ∨
      dto.functionName = [] ∨ ∀ scVals, nativeArguments sdk (dto.arguments.getD []) = some scVals →
        sdk.invokeContractFunction dto.contractId dto.functionName scVals = none

end Fallback

variable {beyondAscii} {sdk} {abi : Contracts.AbiEncoding.Sdk} {now : Nat} {catalogs : Catalogs} {dto : InvokeHostFunctionDto}

/-- In ABI mode the arguments are those that the catalog encodes, or else native values. -/
theorem argumentScVals_abi (hmode : AbiMode dto) :
    (∃ scVals, EncodedAs beyondAscii sdk abi now catalogs dto scVals ∧
        (argumentScVals beyondAscii sdk abi now (some catalogs) dto).2 = .ok scVals) ∨
      (¬ ∃ scVals, EncodedAs beyondAscii sdk abi now catalogs dto scVals) ∧
        (argumentScVals beyondAscii sdk abi now (some catalogs) dto).2 =
          (nativeArguments sdk (dto.arguments.getD [])).elim (.error .thrown) .ok := by
  simp only [argumentScVals, if_neg hmode.1, if_neg hmode.2, EncodedAs]
  generalize encodeAbiArguments beyondAscii abi dto.contractId dto.functionName (dto.arguments.getD []) dto.wasmId now
    catalogs = result
  obtain ⟨catalogs, answer⟩ := result
  cases answer with
  | error error => exact .inr ⟨by simp, rfl⟩
  | ok encoded =>
      cases hdecoded : decodeArguments sdk encoded with
      | none => exact .inr ⟨by simp [hdecoded], by simp only [hdecoded, Option.elim_none]⟩
      | some scVals => exact .inl ⟨scVals, ⟨encoded, rfl, hdecoded⟩, by simp only [hdecoded, Option.elim_some]⟩

theorem build_ok_iff {service : Option Catalogs} {operation : InvokeOperation} :
    (buildInvokeHostFunctionOperation beyondAscii sdk abi now service dto).2 = .ok operation ↔
      sdk.isValidContract dto.contractId = true ∧ dto.functionName ≠ [] ∧
        ∃ scVals, (argumentScVals beyondAscii sdk abi now service dto).2 = .ok scVals ∧
          sdk.invokeContractFunction dto.contractId dto.functionName scVals = some operation := by
  rw [buildInvokeHostFunctionOperation]
  cases hvalid : sdk.isValidContract dto.contractId with
  | false => simp
  | true =>
      by_cases hname : dto.functionName = []
      · simp [hname]
      · simp only [Bool.not_true, Bool.false_eq_true, if_false, true_and, ne_eq, hname, not_false_eq_true]
        generalize argumentScVals beyondAscii sdk abi now service dto = result
        obtain ⟨service, answer⟩ := result
        cases answer with
        | error error => simp
        | ok scVals =>
            cases hcall : sdk.invokeContractFunction dto.contractId dto.functionName scVals <;> simp [hcall]

/-- ABI mode degrades to native values exactly when the catalog rejects arguments that the SDK takes as native values. -/
theorem abi_mode_never_degrades_iff (beyondAscii : Text → Text) (sdk : ComposerSdk) (abi : Contracts.AbiEncoding.Sdk)
    (now : Nat) (catalogs : Catalogs) (dto : InvokeHostFunctionDto) :
    NeverDegrades beyondAscii sdk abi now catalogs dto ↔ EncodesOrFails beyondAscii sdk abi now catalogs dto := by
  refine forall_congr' fun hmode => forall_congr' fun _ => ?_
  simp only [build_ok_iff]
  rcases @argumentScVals_abi beyondAscii sdk abi now catalogs dto hmode with ⟨scVals, hencoded, hargs⟩ | ⟨hnot, hargs⟩
  · refine iff_of_true ?_ (.inl ⟨scVals, hencoded⟩)
    rintro operation ⟨-, -, args, hok, hcall⟩
    obtain rfl : scVals = args := Except.ok.inj (hargs.symm.trans hok)
    exact ⟨scVals, hencoded, hcall⟩
  · have hnative (scVals : List ScVal) : (argumentScVals beyondAscii sdk abi now (some catalogs) dto).2 = .ok scVals ↔
        nativeArguments sdk (dto.arguments.getD []) = some scVals := by
      rw [hargs]
      cases nativeArguments sdk (dto.arguments.getD []) <;> simp
    simp only [hnative, or_iff_right hnot]
    constructor
    · intro hnever
      -- an operation of native values would not be one of encoded arguments
      have hnone : ∀ operation, ¬ (sdk.isValidContract dto.contractId = true ∧ dto.functionName ≠ [] ∧
          ∃ scVals, nativeArguments sdk (dto.arguments.getD []) = some scVals ∧
            sdk.invokeContractFunction dto.contractId dto.functionName scVals = some operation) := by
        intro operation hbuilt
        obtain ⟨scVals, hencoded, -⟩ := hnever operation hbuilt
        exact hnot ⟨scVals, hencoded⟩
      by_cases hvalid : sdk.isValidContract dto.contractId = true
      · by_cases hname : dto.functionName = []
        · exact .inr (.inl hname)
        · refine .inr (.inr fun scVals hscVals => ?_)
          rw [Option.eq_none_iff_forall_not_mem]
          exact fun operation hcall => hnone operation ⟨hvalid, hname, scVals, hscVals, hcall⟩
      · exact .inl (by simpa using hvalid)
    · rintro hfails operation ⟨hvalid, hname, scVals, hscVals, hcall⟩
      rcases hfails with hinvalid | hempty | hrefused
      · exact absurd (hvalid.symm.trans hinvalid) (by decide)
      · exact absurd hempty hname
      · exact absurd (hcall.symm.trans (hrefused scVals hscVals)) (by simp)

section Sample

open Contracts.InvocableCatalogs

def sampleBits (n : Int) : Nat := if Fits (n < 0) 64 n then 64 else if Fits (n < 0) 128 n then 128 else 256

def sampleInteger (n : Int) : Option ScVal :=
  if Fits (n < 0) 256 n then some (.integer (n < 0) (sampleBits n) n) else none

def sampleNative : Native → Option ScVal
  | .json (some .null) => some .void
  | .json (some (.bool b)) => some (.bool b)
  | .json (some (.num (.finite q))) => if q.den = 1 then sampleInteger q.num else none
  | .json (some (.str t)) => some (.string t)
  | .bigint n => sampleInteger n
  | .buffer bytes => some (.bytes bytes)
  | _ => none

def sampleComposerSdk : ComposerSdk where
  isValidContract t := t = sampleContractId
  fromXDR _ := none
  nativeToScVal := sampleNative
  addressFromString value :=
    match value with
    | some (.str t) => if t = knownAddress then some (.address (some t)) else none
    | _ => none
  invokeContractFunction contract function args := some ⟨contract, function, args⟩

/-- An `I128` is asked for, and a word given. -/
def wordForAmount : InvokeHostFunctionDto :=
  ⟨sampleContractId, text "transfer", some [.str (text "abc")], none, none, none⟩

def attachedSample : Catalogs :=
  [(catalogId sampleContractId none, ⟨sampleEntry (text "I128"), ABI_CATALOG_TTL_MS⟩)]

theorem word_sent_as_native : ¬ NeverDegrades id sampleComposerSdk sampleSdk 0 attachedSample wordForAmount := by
  intro h
  have hattached : Attached 0 attachedSample wordForAmount := ⟨_, rfl, Nat.zero_le _⟩
  obtain ⟨scVals, ⟨encoded, hencoded, -⟩, -⟩ := h ⟨nofun, nofun⟩ hattached
    ⟨sampleContractId, text "transfer", [.string (text "abc")]⟩ (by rfl)
  have hrejected : (encodeAbiArguments id sampleSdk wordForAmount.contractId wordForAmount.functionName
      (wordForAmount.arguments.getD []) wordForAmount.wasmId 0 attachedSample).2 = .error (.argument .thrown) := by rfl
  exact absurd (hencoded.symm.trans hrejected) nofun

end Sample

end Savitools.Composer.HostFunctions
