import Savitools.Contracts.AbiCatalog
import Savitools.Web.StrKey

namespace Savitools.Contracts.InvocableCatalogs

open Strings.CodeUnits Strings.Utf8 Json.Numbers Json.Values Json.Conversions AbiCatalog AbiEncoding

variable (beyondAscii : Text → Text)

def typeText : Value Number → Option Text
  | .obj fields => nonEmptyText (firstOf fields [text "type", text "argType", text "kind"])
  | _ => none

def methodTypes : Value Number → List Text
  | .obj fields => (rawArgList fields).1.filterMap typeText
  | _ => []

/-- The type texts of all arguments of the methods of a document, as they are written there. -/
def documentTypes : Value Number → List Text
  | .obj fields => ((items (firstOf fields [text "methods", text "functions"])).getD []).flatMap methodTypes
  | _ => []

/-- An option of some type, or the bare word. -/
def IsOption (type : Text) : Prop :=
  isWrappedOption (toLowerCase beyondAscii (trim type)) = true ∨ trim type = text "Option"

variable {beyondAscii}

theorem lower_option {type : Text} (h : trim type = text "Option") :
    toLowerCase beyondAscii (trim type) = text "option" := by
  rw [h]
  rfl

theorem length_intMatch {lower matched : Text} (h : intMatch lower = some matched) : matched.length ≤ 4 := by
  cases lower with
  | nil => cases h
  | cons u bits =>
      rw [intMatch] at h
      split at h
      next hmatch =>
        obtain rfl := Option.some.inj h
        have hbits : ∀ bits ∈ [text "32", text "64", text "128", text "256"], bits.length ≤ 3 := by decide
        exact Nat.succ_le_succ (hbits _ hmatch.2)
      next => cases h

/-- The option types are all catalogued under one name. -/
theorem normalizeType_eq_option {type : Text} :
    normalizeType beyondAscii type = text "Option" ↔ IsOption beyondAscii type := by
  have hsupported : abiSupportedArgTypes.all (fun t =>
      t ≠ text "Option" ∧ isWrappedOption (t.map toLowerAscii) = false ∧ t.map toLowerAscii ≠ text "option") = true := by
    decide
  simp only [normalizeType, IsOption]
  generalize hlower : toLowerCase beyondAscii (trim type) = lower
  have hbare (h : trim type = text "Option") : lower = text "option" := hlower.symm.trans (lower_option h)
  split
  next direct hfind =>
    obtain ⟨hne, hwrapped, hother⟩ := of_decide_eq_true (List.all_eq_true.mp hsupported _ (List.mem_of_find?_eq_some hfind))
    have hdirect : direct.map toLowerAscii = lower := by simpa using List.find?_some hfind
    rw [hdirect] at hwrapped hother
    refine iff_of_false hne (not_or.mpr ⟨by simp [hwrapped], fun h => hother (hbare h)⟩)
  next hnone =>
    split
    next hwrapped => exact iff_of_true rfl (.inl hwrapped)
    next hwrapped =>
      split
      next hbool =>
        refine iff_of_false (by decide) (not_or.mpr ⟨hwrapped, fun h => ?_⟩)
        exact absurd (hbool.symm.trans (hbare h)) (by decide)
      next =>
        split
        next hbytes =>
          refine iff_of_false (by decide) (not_or.mpr ⟨hwrapped, fun h => ?_⟩)
          rw [hbare h] at hbytes
          exact absurd hbytes (by decide)
        next =>
          cases hint : intMatch lower with
          | none => exact ⟨.inr, fun h => h.resolve_left hwrapped⟩
          | some matched =>
              have hlength := length_intMatch hint
              refine iff_of_false (fun h => ?_) (not_or.mpr ⟨hwrapped, fun h => ?_⟩)
              · rw [Option.getD_some] at h
                rw [h] at hlength
                exact absurd hlength (by decide)
              · have hnone : intMatch (text "option") = none := by decide
                rw [hbare h, hnone] at hint
                cases hint

/-- The SDK makes a value of it and writes that value. -/
def Encodes (sdk : Sdk) (v : Option ScVal) : Prop := ∃ scVal, v = some scVal ∧ ∃ xdr, sdk.toXDR scVal = some xdr

def Fits (signed : Bool) (bits : Nat) (n : Int) : Prop :=
  if signed then -2 ^ (bits - 1) ≤ n ∧ n < 2 ^ (bits - 1) else 0 ≤ n ∧ n < 2 ^ bits

def isSymbolUnit (u : UInt16) : Bool := between 'A' 'Z' u || between 'a' 'z' u || isDigit u || u == unit '_'

/-- An account address that the SDK knows. -/
def knownAddress : Text := text "GAAZI4TCR3TY5OJHCTJC2A4QSY6CJWJH5IAJTGKIN2ER7LBNVKOCCWN7"

/-- What is documented of the SDK. Whether the integers of 32 bits may be given as a BigInt
is left open. -/
structure Documented (sdk : Sdk) : Prop where
  wide : ∀ signed bits n, bits ∈ [64, 128, 256] → Fits signed bits n → Encodes sdk (sdk.nativeInteger signed bits n)
  bool : ∀ b, Encodes sdk (sdk.nativeBool b)
  symbol : ∀ t : Text, t.length ≤ 32 → t.all isSymbolUnit = true → Encodes sdk (sdk.nativeSymbol t)
  string : ∀ t, Encodes sdk (sdk.nativeString t)
  bytes : ∀ b, Encodes sdk (sdk.nativeBytes b)
  address : Encodes sdk (sdk.addressScVal knownAddress)

/-- Whether some integer of 32 bits can be given as a BigInt. -/
def Narrow (sdk : Sdk) (signed : Bool) : Prop := ∃ n, Encodes sdk (sdk.nativeInteger signed 32 n)

def narrowType (signed : Bool) : Text := if signed then text "I32" else text "U32"

def Callable (beyondAscii : Text → Text) (sdk : Sdk) (type : Text) : Prop :=
  ∃ value encoded, encodeAbiArgument beyondAscii sdk type value = .ok encoded

theorem callable_iff {sdk : Sdk} {type : Text} :
    Callable beyondAscii sdk type ↔
      ∃ value v, toScVal sdk (normalizeType beyondAscii type) value = some v ∧ Encodes sdk v := by
  refine exists_congr fun value => ?_
  rw [encodeAbiArgument]
  cases toScVal sdk (normalizeType beyondAscii type) value with
  | none => simp
  | some v =>
      cases v with
      | none => simp [Encodes]
      | some scVal =>
          cases hxdr : sdk.toXDR scVal with
          | none => simp [Encodes, decodeScVal, hxdr]
          | some xdr => simp [Encodes, decodeScVal, hxdr]

theorem callable_integer {sdk : Sdk} {type : Text} {signed : Bool} {bits : Nat}
    (htype : integerType (normalizeType beyondAscii type) = some (signed, bits)) :
    Callable beyondAscii sdk type ↔ ∃ n, Encodes sdk (sdk.nativeInteger signed bits n) := by
  rw [callable_iff]
  simp only [toScVal, htype, Option.some.injEq, exists_eq_left']
  constructor
  · rintro ⟨value, v, hv, hxdr⟩
    obtain ⟨n, -, hn⟩ := Option.bind_eq_some_iff.mp hv
    exact ⟨n, v, hn, hxdr⟩
  · rintro ⟨n, hn⟩
    refine ⟨.str (intText n), ?_⟩
    rwa [stringOf, toBigInt_intText, Option.bind_some]

theorem callable_wide {sdk : Sdk} (h : Documented sdk) {type : Text} {signed : Bool} {bits : Nat}
    (htype : integerType (normalizeType beyondAscii type) = some (signed, bits)) (hbits : bits ∈ [64, 128, 256]) :
    Callable beyondAscii sdk type := by
  refine (callable_integer htype).mpr ⟨0, h.wide signed bits 0 hbits ?_⟩
  have hpos (k : Nat) : (0 : Int) < 2 ^ k := Int.pow_pos (by decide)
  rw [Fits]
  split
  · exact ⟨Int.neg_nonpos_of_nonneg (Int.le_of_lt (hpos _)), hpos _⟩
  · exact ⟨Int.le_refl 0, hpos _⟩

theorem callable_of_value {sdk : Sdk} {type normalized : Text} (value : Value Number) {v : Option ScVal}
    (htype : normalizeType beyondAscii type = normalized) (hv : toScVal sdk normalized value = some v)
    (hencodes : Encodes sdk v) : Callable beyondAscii sdk type :=
  callable_iff.mpr ⟨value, v, htype ▸ hv, hencodes⟩

theorem not_callable_option {sdk : Sdk} : ¬Callable beyondAscii sdk (text "Option") := by
  rw [callable_iff]
  rintro ⟨value, v, hv, -⟩
  have hnormal : normalizeType beyondAscii (text "Option") = text "Option" := normalizeType_eq_option.mpr (.inr rfl)
  rw [hnormal] at hv
  cases hv

theorem narrowType_inj {signed other : Bool} (h : narrowType signed = narrowType other) : signed = other := by
  revert h
  cases signed <;> cases other <;> decide

theorem callable_narrow {sdk : Sdk} (signed : Bool) :
    Callable beyondAscii sdk (narrowType signed) ↔ ∀ other, narrowType signed = narrowType other → Narrow sdk other := by
  have htype : integerType (normalizeType beyondAscii (narrowType signed)) = some (signed, 32) := by
    cases signed <;> rfl
  rw [callable_integer htype]
  constructor
  · intro h other hother
    rwa [← narrowType_inj hother]
  · exact fun h => h signed rfl

theorem callable_plain {sdk : Sdk} (h : Documented sdk) {type : Text}
    (htype : type ∈ [text "Bool", text "Symbol", text "String", text "Bytes", text "Address"]) :
    Callable beyondAscii sdk type := by
  simp only [List.mem_cons, List.not_mem_nil, or_false] at htype
  rcases htype with rfl | rfl | rfl | rfl | rfl
  · exact callable_of_value (.bool true) rfl rfl (h.bool _)
  · exact callable_of_value (.str (text "a")) rfl rfl (h.symbol _ (by decide) (by decide))
  · exact callable_of_value (.str []) rfl rfl (h.string _)
  · exact callable_of_value (.str []) rfl rfl (h.bytes _)
  · exact callable_of_value (.str knownAddress) rfl rfl h.address

/-- Which of the types that a catalog may hold can be encoded. -/
theorem callable_catalogued {sdk : Sdk} (h : Documented sdk) {type : Text}
    (htype : type ∈ abiSupportedArgTypes ∨ type = text "Option") :
    Callable beyondAscii sdk type ↔ type ≠ text "Option" ∧ ∀ signed, type = narrowType signed → Narrow sdk signed := by
  have hplain (hne : type ∉ [text "Option", narrowType true, narrowType false]) (hcallable : Callable beyondAscii sdk type) :
      Callable beyondAscii sdk type ↔ type ≠ text "Option" ∧ ∀ signed, type = narrowType signed → Narrow sdk signed := by
    simp only [List.mem_cons, List.not_mem_nil, or_false, not_or] at hne
    refine iff_of_true hcallable ⟨hne.1, fun signed hnarrow => ?_⟩
    cases signed
    · exact absurd hnarrow hne.2.2
    · exact absurd hnarrow hne.2.1
  have hwide {signed : Bool} {bits : Nat} (hne : type ∉ [text "Option", narrowType true, narrowType false])
      (hinteger : integerType (normalizeType beyondAscii type) = some (signed, bits)) (hbits : bits ∈ [64, 128, 256]) :=
    hplain hne (callable_wide h hinteger hbits)
  have hnarrow (signed : Bool) (hsigned : type = narrowType signed) :
      Callable beyondAscii sdk type ↔ type ≠ text "Option" ∧ ∀ signed, type = narrowType signed → Narrow sdk signed := by
    rw [hsigned, callable_narrow]
    refine ⟨fun h => ⟨?_, h⟩, And.right⟩
    cases signed <;> decide
  rcases htype with htype | rfl
  · by_cases hmem : type ∈ [text "Bool", text "Symbol", text "String", text "Bytes", text "Address"]
    · refine hplain (fun hother => ?_) (callable_plain h hmem)
      revert hother
      simp only [List.mem_cons, List.not_mem_nil, or_false] at hmem
      rcases hmem with rfl | rfl | rfl | rfl | rfl <;> decide
    · simp only [abiSupportedArgTypes, List.mem_cons, List.not_mem_nil, or_false] at htype hmem
      rcases htype with rfl | rfl | rfl | rfl | rfl | rfl | rfl | rfl | rfl | rfl | rfl | rfl | rfl
      · simp at hmem
      · simp at hmem
      · simp at hmem
      · exact hnarrow true rfl
      · exact hwide (by decide) rfl (by decide)
      · exact hwide (by decide) rfl (by decide)
      · exact hwide (by decide) rfl (by decide)
      · simp at hmem
      · simp at hmem
      · exact hnarrow false rfl
      · exact hwide (by decide) rfl (by decide)
      · exact hwide (by decide) rfl (by decide)
      · exact hwide (by decide) rfl (by decide)
  · exact iff_of_false not_callable_option (fun hne => hne.1 rfl)

theorem parseArg_type {raw : Value Number} {field : Text} {arg : AbiMethodArg}
    (h : parseArg beyondAscii raw field = .ok arg) : (typeText raw).map (normalizeType beyondAscii) = some arg.type := by
  cases raw with
  | obj fields =>
      rw [parseArg] at h
      split at h
      next => cases h
      next =>
        split at h
        next => cases h
        next type htype =>
          obtain rfl := Except.ok.inj h
          rw [typeText, htype]
          rfl
  | null | bool _ | num _ | str _ | arr _ => cases h

theorem parseArgs_types {argsField : Text} {raws : List (Value Number)} : ∀ {j : Nat} {args : List AbiMethodArg},
    parseArgs beyondAscii argsField j raws = .ok args →
      args.map AbiMethodArg.type = (raws.filterMap typeText).map (normalizeType beyondAscii) := by
  induction raws with
  | nil =>
      intro j args h
      obtain rfl := Except.ok.inj h
      rfl
  | cons raw raws ih =>
      intro j args h
      rw [parseArgs] at h
      cases harg : parseArg beyondAscii raw (indexed argsField j) with
      | error message =>
          rw [harg] at h
          cases h
      | ok arg =>
          cases hargs : parseArgs beyondAscii argsField (j + 1) raws with
          | error message =>
              rw [harg, hargs] at h
              cases h
          | ok args =>
              rw [harg, hargs] at h
              obtain rfl := Except.ok.inj h
              obtain ⟨type, htype, hnormal⟩ := Option.map_eq_some_iff.mp (parseArg_type harg)
              rw [List.map_cons, ih hargs, List.filterMap_cons, htype, List.map_cons, hnormal]

theorem assertSupportedTypes_eq_nil {arguments : List AbiMethodArg} {field : Text} :
    assertSupportedTypes arguments field = [] ↔
      ∀ arg ∈ arguments, arg.type ∈ abiSupportedArgTypes ∨ arg.type = text "Option" := by
  simp only [assertSupportedTypes, List.filterMap_eq_nil_iff]
  refine forall₂_congr fun arg _ => ?_
  simp only [ite_eq_right_iff, reduceCtorEq, imp_false]
  exact or_iff_not_and_not.symm

/-- What the loop over the methods keeps: without an error so far, the entries have the names
seen, each once, and the types read, as they are catalogued. -/
structure Catalogued (beyondAscii : Text → Text) (g : Gathered AbiMethod) (types : List Text) : Prop where
  names : g.entries.map AbiMethod.name = g.seen
  nodup : g.seen.Nodup
  types : (g.entries.flatMap AbiMethod.arguments).map AbiMethodArg.type = types.map (normalizeType beyondAscii)
  supported : ∀ method ∈ g.entries, ∀ arg ∈ method.arguments, arg.type ∈ abiSupportedArgTypes ∨ arg.type = text "Option"

theorem fail_errors {α : Type} (g : Gathered α) (field message : Text) : (g.fail field message).errors ≠ [] :=
  List.append_ne_nil_of_right_ne_nil _ (List.cons_ne_nil _ _)

theorem addMethod_catalogued {g : Gathered AbiMethod} {i : Nat} {raw : Value Number} {types : List Text}
    (h : g.errors = [] → Catalogued beyondAscii g types) (herrors : (addMethod beyondAscii g i raw).errors = []) :
    Catalogued beyondAscii (addMethod beyondAscii g i raw) (types ++ methodTypes raw) := by
  cases raw with
  | obj fields =>
      simp only [addMethod] at herrors ⊢
      cases hname : nonEmptyText (fields.lookup (text "name")) with
      | none =>
          simp only [hname] at herrors
          exact absurd herrors (fail_errors _ _ _)
      | some name =>
          simp only [hname] at herrors ⊢
          by_cases hlength : maxMethodNameLength < name.length
          · rw [if_pos hlength] at herrors
            exact absurd herrors (fail_errors _ _ _)
          rw [if_neg hlength] at herrors ⊢
          by_cases hseen : name ∈ g.seen
          · rw [if_pos hseen] at herrors
            exact absurd herrors (fail_errors _ _ _)
          rw [if_neg hseen] at herrors ⊢
          generalize hfield : indexed (text "schema.methods") i ++ unit '.' :: (rawArgList fields).2 = argsField at herrors ⊢
          cases hargs : parseArgs beyondAscii argsField 0 (rawArgList fields).1 with
          | error message =>
              simp only [hargs] at herrors
              exact absurd herrors (fail_errors _ _ _)
          | ok args =>
              simp only [hargs] at herrors ⊢
              by_cases hmany : maxArguments < args.length
              · rw [if_pos hmany] at herrors
                exact absurd herrors (fail_errors _ _ _)
              rw [if_neg hmany] at herrors ⊢
              obtain ⟨hbefore, hsupported⟩ := List.append_eq_nil_iff.mp herrors
              obtain ⟨hnames, hnodup, htypes, hold⟩ := h hbefore
              exact {
                names := by simp [Gathered.see, hnames]
                nodup := List.nodup_append.mpr ⟨hnodup, List.nodup_singleton name,
                  fun a ha b hb hab => hseen (List.mem_singleton.mp hb ▸ hab ▸ ha)⟩
                types := by
                  rw [Gathered.see, List.flatMap_append, List.map_append, htypes, List.map_append, methodTypes,
                    ← parseArgs_types hargs, List.flatMap_singleton]
                supported := by
                  intro method hmethod
                  rcases List.mem_append.mp hmethod with hmethod | hmethod
                  · exact hold method hmethod
                  · obtain rfl := List.mem_singleton.mp hmethod
                    exact assertSupportedTypes_eq_nil.mp hsupported }
  | null | bool _ | num _ | str _ | arr _ => exact absurd herrors (fail_errors _ _ _)

theorem gather_catalogued {raws : List (Value Number)} : ∀ {g : Gathered AbiMethod} {i : Nat} {types : List Text},
    (g.errors = [] → Catalogued beyondAscii g types) →
      (gather (addMethod beyondAscii) g i raws).errors = [] →
      Catalogued beyondAscii (gather (addMethod beyondAscii) g i raws) (types ++ raws.flatMap methodTypes) := by
  induction raws with
  | nil =>
      intro g i types h herrors
      rw [List.flatMap_nil, List.append_nil]
      exact h herrors
  | cons raw raws ih =>
      intro g i types h herrors
      rw [List.flatMap_cons, ← List.append_assoc]
      exact ih (addMethod_catalogued h) herrors

/-- An accepted document has its methods catalogued under distinct names, with their types. -/
theorem buildAbiCatalog_catalogued {contractId attachedAt : Text} {rawSchema : Value Number} {options : Options}
    {entry : AbiCatalogEntry} (h : buildAbiCatalog beyondAscii contractId rawSchema options attachedAt = .ok entry) :
    ∃ g, entry.methods = g.entries ∧ Catalogued beyondAscii g (documentTypes rawSchema) := by
  have hempty : Catalogued beyondAscii ⟨[], [], []⟩ [] := ⟨rfl, List.nodup_nil, rfl, nofun⟩
  cases rawSchema with
  | obj fields =>
      simp only [buildAbiCatalog] at h
      split at h
      next => cases h
      next =>
        split at h
        next => cases h
        next =>
          split at h
          next => cases h
          next herrors =>
            obtain rfl := Except.ok.inj h
            refine ⟨methodsOf beyondAscii fields, rfl, ?_⟩
            have hmethods := (List.append_eq_nil_iff.mp (not_not.mp herrors)).1
            rw [methodsOf] at hmethods ⊢
            rw [documentTypes]
            cases hraw : firstOf fields [text "methods", text "functions"] with
            | none => exact hempty
            | some raw =>
                rw [hraw] at hmethods
                cases raw with
                | arr raws => exact @gather_catalogued _ raws _ 0 [] (fun _ => hempty) hmethods
                | null | bool _ | num _ | str _ | obj _ => cases hmethods
  | null | bool _ | num _ | str _ | arr _ =>
      simp only [buildAbiCatalog] at h
      split at h <;> cases h

/-- Names are distinct, and for every argument there is a value that can be encoded. -/
def Invocable (beyondAscii : Text → Text) (sdk : Sdk) (entry : AbiCatalogEntry) : Prop :=
  (entry.methods.map AbiMethod.name).Nodup ∧
    ∀ method ∈ entry.methods, ∀ arg ∈ method.arguments,
      ∃ value encoded, encodeAbiArgument beyondAscii sdk arg.type value = .ok encoded

/-- An accepted document is invocable exactly when none of its types is an option, and none an
integer of 32 bits unless the SDK takes such an integer as a BigInt. -/
theorem catalog_invocable_iff {sdk : Sdk} (h : Documented sdk) {contractId attachedAt : Text} {rawSchema : Value Number}
    {options : Options} {entry : AbiCatalogEntry}
    (hbuild : buildAbiCatalog beyondAscii contractId rawSchema options attachedAt = .ok entry) :
    Invocable beyondAscii sdk entry ↔
      ∀ type ∈ documentTypes rawSchema, ¬IsOption beyondAscii type ∧
        ∀ signed, normalizeType beyondAscii type = narrowType signed → Narrow sdk signed := by
  obtain ⟨g, hentries, hcatalogued⟩ := buildAbiCatalog_catalogued hbuild
  have hcallable {type : Text} (htype : type ∈ (documentTypes rawSchema).map (normalizeType beyondAscii)) :
      Callable beyondAscii sdk type ↔ type ≠ text "Option" ∧ ∀ signed, type = narrowType signed → Narrow sdk signed := by
    rw [← hcatalogued.types] at htype
    obtain ⟨arg, harg, rfl⟩ := List.mem_map.mp htype
    obtain ⟨method, hmethod, harg⟩ := List.mem_flatMap.mp harg
    exact callable_catalogued h (hcatalogued.supported method hmethod arg harg)
  calc
    Invocable beyondAscii sdk entry ↔ ∀ type ∈ (documentTypes rawSchema).map (normalizeType beyondAscii),
        Callable beyondAscii sdk type := by
      rw [Invocable, hentries, hcatalogued.names, and_iff_right hcatalogued.nodup, ← hcatalogued.types]
      rw [List.forall_mem_map, List.forall_mem_flatMap]
      rfl
    _ ↔ _ := by
      rw [List.forall_mem_map]
      refine forall₂_congr fun type htype => ?_
      rw [hcallable (List.mem_map_of_mem htype), Ne, normalizeType_eq_option]

/-- A document with one method, of one argument. -/
def sampleSchema (type : Text) : Value Number :=
  .obj [(text "methods", .arr [.obj [(text "name", .str (text "transfer")),
    (text "args", .arr [.obj [(text "name", .str (text "amount")), (text "type", .str type)]])]])]

def sampleContractId : Text := text "CAAQCAIBAEAQCAIBAEAQCAIBAEAQCAIBAEAQCAIBAEAQCAIBAEAQCXTX"

def sampleEntry (type : Text) : AbiCatalogEntry where
  id := catalogId sampleContractId none
  contractId := sampleContractId
  wasmId := none
  network := text "testnet"
  name := none
  methods := [⟨text "transfer", [⟨text "amount", type⟩], text "Void"⟩]
  events := []
  attachedAt := text "2026-01-01T00:00:00.000Z"

def bigEndian (size : Nat) (n : Int) : List Web.StrKey.Byte :=
  (List.range size).reverse.map fun i => BitVec.ofInt 8 (n / 256 ^ i)

def lengthPrefixed (bytes : List Web.StrKey.Byte) : List Web.StrKey.Byte :=
  bigEndian 4 bytes.length ++ bytes ++ List.replicate ((4 - bytes.length % 4) % 4) 0

/-- Only plain numbers are written in 32 bits. -/
def sampleXdr : ScVal → Option (List Web.StrKey.Byte)
  | .bool b => some (bigEndian 4 0 ++ bigEndian 4 (if b then 1 else 0))
  | .integer signed bits n =>
      ([((false, 64), 5), ((true, 64), 6), ((false, 128), 9), ((true, 128), 10), ((false, 256), 11),
        ((true, 256), 12)].lookup (signed, bits)).map fun discriminant => bigEndian 4 discriminant ++ bigEndian (bits / 8) n
  | .bytes bytes => some (bigEndian 4 13 ++ lengthPrefixed bytes)
  | .string t => some (bigEndian 4 14 ++ lengthPrefixed (textEncode t))
  | .symbol t => some (bigEndian 4 15 ++ lengthPrefixed (textEncode t))
  | .address t =>
      (Web.StrKey.base32Decode t).toOption.map fun raw => bigEndian 4 18 ++ bigEndian 4 0 ++ bigEndian 4 0 ++ (raw.drop 1).take 32

instance (signed : Bool) (bits : Nat) (n : Int) : Decidable (Fits signed bits n) :=
  inferInstanceAs (Decidable (if signed then _ else _))

def sampleSdk : Sdk where
  nativeInteger signed bits n := if Fits signed bits n then some (.integer signed bits n) else none
  nativeBool b := some (.bool b)
  nativeSymbol t := some (.symbol t)
  nativeString t := some (.string t)
  nativeBytes bytes := some (.bytes bytes)
  addressScVal t := if t = knownAddress then some (.address t) else none
  toXDR v := (sampleXdr v).map Web.StrKey.bytesToBase64

theorem sampleSdk_documented : Documented sampleSdk where
  wide signed bits n hbits hfits := by
    refine ⟨.integer signed bits n, if_pos hfits, ?_⟩
    simp only [List.mem_cons, List.not_mem_nil, or_false] at hbits
    rcases hbits with rfl | rfl | rfl <;> cases signed <;> exact ⟨_, rfl⟩
  bool b := ⟨.bool b, rfl, _, rfl⟩
  symbol t _ _ := ⟨.symbol t, rfl, _, rfl⟩
  string t := ⟨.string t, rfl, _, rfl⟩
  bytes b := ⟨.bytes b, rfl, _, rfl⟩
  address := ⟨.address knownAddress, rfl, _, rfl⟩

theorem buildAbiCatalog_sample :
    buildAbiCatalog id sampleContractId (sampleSchema (text "i128")) ⟨none, none, none⟩ (text "2026-01-01T00:00:00.000Z") =
      .ok (sampleEntry (text "I128")) := by decide

theorem sample_invocable : Documented sampleSdk ∧ Invocable id sampleSdk (sampleEntry (text "I128")) := by
  refine ⟨sampleSdk_documented, (catalog_invocable_iff sampleSdk_documented buildAbiCatalog_sample).mpr ?_⟩
  have htypes : documentTypes (sampleSchema (text "i128")) = [text "i128"] := rfl
  rw [htypes]
  refine List.forall_mem_singleton.mpr ⟨by unfold IsOption; decide, fun signed h => ?_⟩
  cases signed
  · exact absurd h (by decide)
  · exact absurd h (by decide)

theorem not_catalog_invocable :
    buildAbiCatalog id sampleContractId (sampleSchema (text "Option<U32>")) ⟨none, none, none⟩
        (text "2026-01-01T00:00:00.000Z") = .ok (sampleEntry (text "Option")) ∧
      ∀ sdk, ¬Invocable id sdk (sampleEntry (text "Option")) := by
  refine ⟨by decide, fun sdk h => ?_⟩
  exact not_callable_option (h.2 _ (List.mem_singleton_self _) _ (List.mem_singleton_self _))

end Savitools.Contracts.InvocableCatalogs
