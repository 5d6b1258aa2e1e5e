import Savitools.Composer.HostFunctions
import Savitools.Contracts.EncodedArguments

namespace Savitools.Composer.RawArguments

open Strings.CodeUnits Strings.HexBytes Json.Numbers Json.Values Json.Conversions Json.WholeTexts HostFunctions
open Contracts Contracts.AbiCatalog Contracts.AbiEncoding Contracts.InvocableCatalogs Contracts.EncodedArguments

/-- The scalar types of both modes: what raw mode compares with in lower case, and what the type is in ABI mode. -/
def scalarTypes : List (Text × Text) :=
  [(text "address", text "Address"), (text "bool", text "Bool"), (text "boolean", text "Bool"), (text "bytes", text "Bytes"),
    (text "string", text "String"), (text "symbol", text "Symbol"), (text "i32", text "I32"), (text "i64", text "I64"),
    (text "i128", text "I128"), (text "i256", text "I256"), (text "u32", text "U32"), (text "u64", text "U64"),
    (text "u128", text "U128"), (text "u256", text "U256")]

def scalarNames : List Text := scalarTypes.map Prod.fst

def ofEncoded : ScVal → ScValDecoder.ScVal
  | .bool b => .bool b
  | .integer signed bits n => .integer signed bits n
  | .bytes bytes => .bytes bytes
  | .string t => .string t
  | .symbol t => .symbol t
  | .address t => .address (some t)

/-- What is documented of the SDK where no type is given. The width of an integer is chosen from its magnitude, 64 bits
at least; there is none for an integer that is too large. -/
structure Untyped (sdk : ComposerSdk) (width : Int → Option Nat) : Prop where
  bigint : ∀ n, sdk.nativeToScVal (.bigint n) = (width n).map fun bits => .integer (n < 0) bits n
  number : ∀ n : Int, n.natAbs < 2 ^ 53 →
    sdk.nativeToScVal (.json (some (.num (.ofInt n)))) = (width n).map fun bits => .integer (n < 0) bits n
  minimum : ∀ n : Int, n.natAbs < 2 ^ 63 → width n = some 64
  nan : sdk.nativeToScVal .nan = none
  bool : ∀ b, sdk.nativeToScVal (.json (some (.bool b))) = some (.bool b)
  string : ∀ t, sdk.nativeToScVal (.json (some (.str t))) = some (.string t)
  bytes : ∀ bytes, sdk.nativeToScVal (.buffer bytes) = some (.bytes bytes)
  address : ∀ value w, sdk.addressFromString value = some w → ∃ t, value = some (.str t) ∧ w = .address (some t)

section Agreement

variable (beyondAscii : Text → Text) (sdk : ComposerSdk) (abi : Sdk) (width : Int → Option Nat)

/-- A value that both modes accept becomes the same value in both. -/
def Agree (type : Text) (value : Value Number) : Prop :=
  ∀ encoded v w, encodeAbiArgument beyondAscii abi type value = .ok encoded →
    toScVal abi (normalizeType beyondAscii type) value = some (some v) →
      buildScValFromType beyondAscii sdk (.str type) value = some w → w = ofEncoded v

/-- No integer of 32 bits comes from raw mode: it fails on a blank text only. -/
def SmallAgrees (signed : Bool) (value : Value Number) : Prop :=
  ∀ n, toBigInt (stringOf value) = some n → Encodes abi (abi.nativeInteger signed 32 n) → trim (stringOf value) = []

/-- The integer is the one that its text writes, and its sign and magnitude are what the type declares. -/
def WideAgrees (signed : Bool) (bits : Nat) (value : Value Number) : Prop :=
  ∀ n m chosen, toBigInt (stringOf value) = some n → Fits signed bits n → toBigIntValue (some value) = some m →
    width m = some chosen → m = n ∧ decide (m < 0) = signed ∧ chosen = bits

/-- A text has no bytes behind the mark `0x`; of other values the bytes are those that their text writes. -/
def BytesAgree : Value Number → Prop
  | .str t => text "0x" <+: t → hexBytes (t.drop 2) = []
  | value => ∀ bytes, bufferFrom (some value) = some bytes → bytes = hexBytes (withoutMark (stringOf value))

def AgreesWhen (normalized : Text) (value : Value Number) : Prop :=
  match integerType normalized with
  | some (signed, bits) => if bits = 32 then SmallAgrees abi signed value else WideAgrees width signed bits value
  | none => if normalized = text "Bytes" then BytesAgree value else True

end Agreement

variable {beyondAscii : Text → Text} {sdk : ComposerSdk} {abi : Sdk} {width : Int → Option Nat}
variable {type name normalized : Text} {value : Value Number}

theorem normalizeType_scalar (hlower : ∀ t : Text, t.all (· < 128) = false → beyondAscii t ∉ scalarNames)
    (hname : toLowerCase beyondAscii type = name) (hmem : (name, normalized) ∈ scalarTypes) :
    normalizeType beyondAscii type = normalized := by
  have hascii : type.all (· < 128) = true := by
    by_contra h
    rw [toLowerCase, if_neg h] at hname
    exact hlower type (by simpa using h) (hname ▸ List.mem_map_of_mem hmem)
  have hmap : type.map toLowerAscii = name := by rwa [toLowerCase, if_pos hascii] at hname
  have hblank : scalarTypes.all (fun names => (names.1 ++ names.1.map (· - 32)).all fun u => !isSpace u) = true := by decide
  have htrim : trim type = type := trim_eq_self fun u hu => by
    have hunits := List.all_eq_true.mp (List.all_eq_true.mp hblank _ hmem) u
    simpa using hunits (mem_of_toLowerAscii (hmap ▸ List.mem_map_of_mem hu))
  have hfound : ∀ names ∈ scalarTypes,
      abiSupportedArgTypes.find? (fun t => t.map toLowerAscii == names.1) = some names.2 ∨
        abiSupportedArgTypes.find? (fun t => t.map toLowerAscii == names.1) = none ∧ isWrappedOption names.1 = false ∧
          names = (text "boolean", text "Bool") := by decide
  simp only [normalizeType, htrim, hname]
  rcases hfound _ hmem with hdirect | ⟨hnone, hoption, hboolean⟩
  · rw [hdirect]
  · obtain ⟨rfl, rfl⟩ := Prod.mk.inj hboolean
    rw [hnone, hoption]
    rfl

section Scalars

variable {built : Option ScValDecoder.ScVal} {made : Option ScVal}

theorem agree_iff (hname : toLowerCase beyondAscii type = name) (hnormal : normalizeType beyondAscii type = normalized)
    (hbuilt : buildScalar sdk name (some value) = some built) (hmade : toScVal abi normalized value = some made) :
    Agree beyondAscii sdk abi type value ↔
      ∀ v w, made = some v → Encodes abi made → built = some w → w = ofEncoded v := by
  have hraw : buildScValFromType beyondAscii sdk (.str type) value = built := by
    cases value <;> simp only [buildScValFromType, hname, hbuilt]
  subst hnormal
  simp only [Agree, hraw, hmade, Option.some.injEq]
  constructor
  · rintro h v w rfl ⟨_, hv, xdr, hxdr⟩ hw
    obtain rfl := Option.some.inj hv
    have hdecoded : decodeScVal abi v = some ⟨scValName v, decodedValue v, xdr⟩ := by
      rw [decodeScVal, hxdr, Option.map_some]
    exact h ⟨xdr, _⟩ v w (encode_ok_iff.mpr ⟨v, hmade, hxdr, hdecoded⟩) rfl hw
  · rintro h encoded v w hencoded rfl hw
    obtain ⟨v', hv', hxdr, -⟩ := encode_ok_iff.mp hencoded
    obtain rfl := Option.some.inj (Option.some.inj (hmade.symm.trans hv'))
    exact h v w rfl ⟨v, rfl, _, hxdr⟩ hw

theorem agree_plain {v : ScVal} (hname : toLowerCase beyondAscii type = name)
    (hnormal : normalizeType beyondAscii type = normalized) (hbuilt : buildScalar sdk name (some value) = some built)
    (hmade : toScVal abi normalized value = some made) (habi : ∀ v', made = some v' → v' = v)
    (hraw : ∀ w, built = some w → w = ofEncoded v) : Agree beyondAscii sdk abi type value := by
  refine (agree_iff hname hnormal hbuilt hmade).mpr fun v' w hv' _ hw => ?_
  rw [habi v' hv', hraw w hw]

end Scalars

theorem agree_bytes (hraw : Untyped sdk width) (hdoc : Documented abi) (habi : Faithful abi)
    (hname : toLowerCase beyondAscii type = text "bytes") (hnormal : normalizeType beyondAscii type = text "Bytes") :
    Agree beyondAscii sdk abi type value ↔ BytesAgree value := by
  have hmade : toScVal abi (text "Bytes") value = some (abi.nativeBytes (hexBytes (withoutMark (stringOf value)))) := rfl
  obtain ⟨v, hv, hxdr⟩ := hdoc.bytes (hexBytes (withoutMark (stringOf value)))
  obtain rfl := habi.bytes _ _ hv
  have hencodes : Encodes abi (abi.nativeBytes (hexBytes (withoutMark (stringOf value)))) := ⟨_, hv, hxdr⟩
  -- the bytes of raw mode, where there are any
  have hbuilt (bytes : Option (List (BitVec 8)))
      (h : buildScalar sdk (text "bytes") (some value) = some (bytes.bind fun b => sdk.nativeToScVal (.buffer b))) :
      Agree beyondAscii sdk abi type value ↔ ∀ b, bytes = some b → b = hexBytes (withoutMark (stringOf value)) := by
    rw [agree_iff hname hnormal h hmade]
    simp only [hv, hraw.bytes] at hencodes ⊢
    constructor
    · rintro h b rfl
      simpa [ofEncoded] using h _ _ rfl hencodes rfl
    · rintro h v w hv' - hw
      obtain ⟨b, hb, rfl⟩ := Option.map_eq_some_iff.mp (by simpa [Option.map_eq_bind] using hw)
      rw [← Option.some.inj hv', ofEncoded, h b hb]
  cases value with
  | str t =>
      have htext : stringOf (.str t) = t := by rw [stringOf]
      rw [hbuilt (some (hexBytes t)) rfl, htext, BytesAgree]
      simp only [Option.some.injEq, forall_eq', withoutMark]
      by_cases hmark : text "0x" <+: t
      · have hempty : hexBytes t = [] := by
          obtain ⟨rest, rfl⟩ := hmark
          rfl
        rw [if_pos hmark, hempty, forall_prop_of_true hmark, eq_comm]
      · rw [if_neg hmark]
        exact iff_of_true rfl fun h => absurd h hmark
  | null | bool _ | num _ | arr _ | obj _ => exact hbuilt _ rfl

theorem agree_small (hraw : Untyped sdk width) (habi : Faithful abi) {signed : Bool}
    (hname : toLowerCase beyondAscii type = name) (hnormal : normalizeType beyondAscii type = normalized)
    (htype : integerType normalized = some (signed, 32))
    (hbuilt : buildScalar sdk name (some value) =
      some (sdk.nativeToScVal ((parseIntAny (stringOf value)).elim .nan fun x => .json (some (.num x))))) :
    Agree beyondAscii sdk abi type value ↔ SmallAgrees abi signed value := by
  have hmade : toScVal abi normalized value = some ((toBigInt (stringOf value)).bind (abi.nativeInteger signed 32)) := by
    simp only [toScVal, htype]
  rw [agree_iff hname hnormal hbuilt hmade]
  constructor
  · intro h n hn hencodes
    by_contra hblank
    have hfits := habi.range _ _ _ hencodes
    have hsmall : n.natAbs < 2 ^ 53 := by
      cases signed <;> simp [Fits] at hfits <;> omega
    obtain ⟨m, hm, hparsed⟩ := parseIntAny_of_toBigInt hn hsmall hblank
    obtain ⟨v, hv, hxdr⟩ := hencodes
    have hbuiltAs := hraw.number m hm
    rw [hraw.minimum m (hm.trans (by decide)), Option.map_some] at hbuiltAs
    have hsame := h v (.integer (m < 0) 64 m) (by rw [hn]; exact hv) ⟨v, by rw [hn]; exact hv, hxdr⟩
      (by rw [hparsed]; exact hbuiltAs)
    obtain rfl := habi.integer _ _ _ _ hv
    simp [ofEncoded] at hsame
  · rintro h v w hv hencodes hw
    obtain ⟨n, hn, hnative⟩ := Option.bind_eq_some_iff.mp hv
    rw [hn] at hencodes
    rw [parseIntAny_blank (h n hn hencodes), Option.elim_none, hraw.nan] at hw
    cases hw

theorem agree_wide (hraw : Untyped sdk width) (hdoc : Documented abi) (habi : Faithful abi) {signed : Bool} {bits : Nat}
    (hname : toLowerCase beyondAscii type = name) (hnormal : normalizeType beyondAscii type = normalized)
    (htype : integerType normalized = some (signed, bits)) (hbits : bits ∈ [64, 128, 256])
    (hbuilt : buildScalar sdk name (some value) =
      some ((toBigIntValue (some value)).bind fun n => sdk.nativeToScVal (.bigint n))) :
    Agree beyondAscii sdk abi type value ↔ WideAgrees width signed bits value := by
  have hmade : toScVal abi normalized value = some ((toBigInt (stringOf value)).bind (abi.nativeInteger signed bits)) := by
    simp only [toScVal, htype]
  rw [agree_iff hname hnormal hbuilt hmade]
  constructor
  · intro h n m chosen hn hfits hm hchosen
    obtain ⟨v, hv, hxdr⟩ := hdoc.wide signed bits n hbits hfits
    have hsame := h v (.integer (m < 0) chosen m) (by rw [hn]; exact hv) ⟨v, by rw [hn]; exact hv, hxdr⟩
      (by rw [hm, Option.bind_some, hraw.bigint, hchosen, Option.map_some])
    obtain rfl := habi.integer _ _ _ _ hv
    obtain ⟨hsign, hwidth, hvalue⟩ := ScValDecoder.ScVal.integer.inj hsame
    exact ⟨hvalue, hsign, hwidth⟩
  · intro h v w hv hencodes hw
    obtain ⟨n, hn, hnative⟩ := Option.bind_eq_some_iff.mp hv
    obtain ⟨m, hm, hbigint⟩ := Option.bind_eq_some_iff.mp hw
    rw [hraw.bigint] at hbigint
    obtain ⟨chosen, hchosen, rfl⟩ := Option.map_eq_some_iff.mp hbigint
    rw [hn, Option.bind_some] at hencodes
    obtain rfl := habi.integer _ _ _ _ hnative
    obtain ⟨rfl, rfl, rfl⟩ := h n m chosen hn (habi.range _ _ _ hencodes) hm hchosen
    rfl

/-- For a scalar type of both modes they agree exactly when the value is one of the form for which raw mode chooses the
type that is declared. -/
theorem modes_agree_iff (hlower : ∀ t : Text, t.all (· < 128) = false → beyondAscii t ∉ scalarNames)
    (hraw : Untyped sdk width) (hdoc : Documented abi) (habi : Faithful abi) (type : Text) (value : Value Number)
    (hscalar : toLowerCase beyondAscii type ∈ scalarNames) :
    Agree beyondAscii sdk abi type value ↔ AgreesWhen abi width (normalizeType beyondAscii type) value := by
  obtain ⟨⟨name, normalized⟩, hmem, hlowered⟩ := List.mem_map.mp hscalar
  have hname : toLowerCase beyondAscii type = name := hlowered.symm
  have hnormal : normalizeType beyondAscii type = normalized := normalizeType_scalar hlower hname hmem
  have hsmall {signed : Bool} (htype : integerType normalized = some (signed, 32))
      (hbuilt : buildScalar sdk name (some value) =
        some (sdk.nativeToScVal ((parseIntAny (stringOf value)).elim .nan fun x => .json (some (.num x))))) :
      Agree beyondAscii sdk abi type value ↔ AgreesWhen abi width normalized value := by
    rw [agree_small hraw habi hname hnormal htype hbuilt]
    simp only [AgreesWhen, htype, if_true]
  have hwide {signed : Bool} {bits : Nat} (htype : integerType normalized = some (signed, bits))
      (hbits : bits ∈ [64, 128, 256])
      (hbuilt : buildScalar sdk name (some value) =
        some ((toBigIntValue (some value)).bind fun n => sdk.nativeToScVal (.bigint n))) :
      Agree beyondAscii sdk abi type value ↔ AgreesWhen abi width normalized value := by
    have hnot : bits ≠ 32 := by
      rintro rfl
      exact absurd hbits (by decide)
    rw [agree_wide hraw hdoc habi hname hnormal htype hbits hbuilt]
    simp only [AgreesWhen, htype, if_neg hnot]
  have hbool (hbuilt : buildScalar sdk name (some value) =
        some (sdk.nativeToScVal (.json (some (.bool (toBoolean (some value)))))))
      (hnormalized : normalized = text "Bool") : Agree beyondAscii sdk abi type value := by
    subst hnormalized
    refine agree_plain hname hnormal hbuilt rfl (habi.bool _) fun w hw => ?_
    rw [hraw.bool] at hw
    exact (Option.some.inj hw).symm
  rw [hnormal]
  simp only [scalarTypes, List.mem_cons, Prod.mk.injEq, List.not_mem_nil, or_false] at hmem
  rcases hmem with ⟨rfl, rfl⟩ | ⟨rfl, rfl⟩ | ⟨rfl, rfl⟩ | ⟨rfl, rfl⟩ | ⟨rfl, rfl⟩ | ⟨rfl, rfl⟩ | ⟨rfl, rfl⟩ |
    ⟨rfl, rfl⟩ | ⟨rfl, rfl⟩ | ⟨rfl, rfl⟩ | ⟨rfl, rfl⟩ | ⟨rfl, rfl⟩ | ⟨rfl, rfl⟩ | ⟨rfl, rfl⟩
  · refine iff_of_true (agree_plain hname hnormal rfl rfl (habi.address _) fun w hw => ?_) trivial
    obtain ⟨t, ht, rfl⟩ := hraw.address _ _ hw
    rw [Option.some.inj ht, stringOf]
    rfl
  · exact iff_of_true (hbool rfl rfl) trivial
  · exact iff_of_true (hbool rfl rfl) trivial
  · exact agree_bytes hraw hdoc habi hname hnormal
  · refine iff_of_true (agree_plain hname hnormal rfl rfl (habi.string _) fun w hw => ?_) trivial
    rw [hraw.string] at hw
    exact (Option.some.inj hw).symm
  · refine iff_of_true (agree_plain hname hnormal rfl rfl (habi.symbol _) fun w hw => ?_) trivial
    exact (Option.some.inj hw).symm
  · exact hsmall rfl rfl
  · exact hwide rfl (by decide) rfl
  · exact hwide rfl (by decide) rfl
  · exact hwide rfl (by decide) rfl
  · exact hsmall rfl rfl
  · exact hwide rfl (by decide) rfl
  · exact hwide rfl (by decide) rfl
  · exact hwide rfl (by decide) rfl

section Sample

def sampleWidth (n : Int) : Option Nat := if Fits (n < 0) 256 n then some (sampleBits n) else none

theorem sampleComposerSdk_untyped : Untyped sampleComposerSdk sampleWidth where
  bigint n := by
    simp only [sampleComposerSdk, sampleNative, sampleInteger, sampleWidth]
    split <;> rfl
  number n _ := by
    have hnum : (Rat.ofInt n).num = n := rfl
    have hden : (Rat.ofInt n).den = 1 := rfl
    simp only [sampleComposerSdk, sampleNative, sampleInteger, sampleWidth, Number.ofInt, hnum, hden, if_true]
    split <;> rfl
  minimum n hn := by
    have hfits : Fits (n < 0) 64 n ∧ Fits (n < 0) 256 n := by
      by_cases hnegative : n < 0 <;> simp [Fits, hnegative] <;> omega
    rw [sampleWidth, if_pos hfits.2, sampleBits, if_pos hfits.1]
  nan := rfl
  bool _ := rfl
  string _ := rfl
  bytes _ := rfl
  address value w h := by
    simp only [sampleComposerSdk] at h
    split at h
    next t =>
      rw [Option.ite_none_right_eq_some] at h
      exact ⟨t, rfl, (Option.some.inj h.2).symm⟩
    next => cases h

theorem ascii_scalarNames (t : Text) (ht : t.all (· < 128) = false) : id t ∉ scalarNames := by
  have hall : ∀ name ∈ scalarNames, name.all (· < 128) = true := by decide
  intro hmem
  rw [hall t hmem] at ht
  cases ht

theorem modes_agree_u64 : Agree id sampleComposerSdk sampleSdk (text "U64") (.str (text "5")) := by
  refine (modes_agree_iff ascii_scalarNames sampleComposerSdk_untyped sampleSdk_documented sampleSdk_faithful _ _
    (by decide)).mpr ?_
  change WideAgrees sampleWidth false 64 (.str (text "5"))
  intro n m chosen hn _ hm hchosen
  have hread : toBigInt (text "5") = some 5 := by decide
  obtain rfl : 5 = n := Option.some.inj (hread.symm.trans hn)
  obtain rfl : 5 = m := Option.some.inj (hread.symm.trans hm)
  have hwidth : sampleWidth 5 = some 64 := by decide
  exact ⟨rfl, rfl, (Option.some.inj (hwidth.symm.trans hchosen)).symm⟩

/-- Without a type the number has no sign and 64 bits. -/
theorem not_modes_agree_i128 : ¬ Agree id sampleComposerSdk sampleSdk (text "i128") (.str (text "5")) := by
  intro h
  have hread : toBigInt (text "5") = some 5 := by decide
  have hmade : toScVal sampleSdk (text "I128") (.str (text "5")) = some (sampleSdk.nativeInteger true 128 5) := by
    change some ((toBigInt (text "5")).bind _) = _
    rw [hread, Option.bind_some]
  have hbuilt : buildScalar sampleComposerSdk (text "i128") (some (.str (text "5"))) = some (sampleInteger 5) := by
    change some ((toBigInt (text "5")).bind _) = _
    rw [hread, Option.bind_some]
    rfl
  have hinteger : sampleInteger 5 = some (.integer false 64 5) := by
    have hwidth : sampleBits 5 = 64 := by decide
    rw [sampleInteger, if_pos (by decide), hwidth]
    rfl
  obtain ⟨v, hv, hxdr⟩ := sampleSdk_documented.wide true 128 5 (by decide) (by decide)
  obtain rfl := sampleSdk_faithful.integer _ _ _ _ hv
  exact absurd ((agree_iff (by decide) (by decide) hbuilt hmade).mp h _ _ hv ⟨_, hv, hxdr⟩ hinteger) nofun

end Sample

end Savitools.Composer.RawArguments
