import Savitools.Common.Exceptions
import Savitools.Json.RoundingOrder
import Savitools.Strings.DecimalValues
import Savitools.Strings.Utf8

namespace Savitools.Inspector.ComposerPayloads

open Strings.CodeUnits Strings.Decimals Strings.DecimalValues Strings.Utf8
open Json.Numbers Json.Values Json.Conversions Json.Doubles Json.Roundings Json.DecimalTexts
open Common.Exceptions

/-- A decimal, as the SDK writes amounts and prices. -/
structure DecimalText where
  text : Text
  whole : Text
  fraction : Text
  parts : decimalParts text = some (whole, fraction)

def DecimalText.value (t : DecimalText) : Rat := pointValue t.whole t.fraction

structure CreditAsset where
  code : Text
  issuer : Text
  code_plain : unit ':' ∉ code
  issuer_plain : unit ':' ∉ issuer

inductive Asset
  | native
  | credit (asset : CreditAsset)

/-- What a trustline is for. Only assets have `isNative`. -/
inductive Line
  | asset (asset : Asset)
  | pool (id : Text)

/-- A price is a decimal where the SDK decodes it. The labels are written for a fraction. -/
inductive SdkPrice
  | decimal (price : DecimalText)
  | ratio (n d : Fin (2 ^ 31))

structure Signer where
  key : Text
  weight : Nat

structure AccountOptions where
  inflationDest : Option Text
  homeDomain : Option Text
  masterWeight : Option Nat
  lowThreshold : Option Nat
  medThreshold : Option Nat
  highThreshold : Option Nat
  setFlags : Option Nat
  clearFlags : Option Nat
  signer : Option Signer

/-- The types that the composer supports, and all others. -/
inductive OperationType
  | createAccount
  | payment
  | pathPaymentStrictReceive
  | pathPaymentStrictSend
  | manageSellOffer
  | manageBuyOffer
  | createPassiveSellOffer
  | setOptions
  | changeTrust
  | allowTrust
  | accountMerge
  | manageData
  | other (name : Text)
deriving DecidableEq

structure DecodedOperation where
  type : OperationType
  label : Text
  fields : List (Text × Option Text)
  sourceAccount : Option Text

/-- What the SDK decodes of an operation. Of other types only what they are labelled with matters here. -/
inductive Body
  | createAccount (destination : Text) (startingBalance : DecimalText)
  | payment (destination : Text) (asset : Asset) (amount : DecimalText)
  | pathPaymentStrictReceive (sendAsset : Asset) (sendMax : DecimalText) (destination : Text) (destAsset : Asset)
      (destAmount : DecimalText) (path : List Asset)
  | pathPaymentStrictSend (sendAsset : Asset) (sendAmount : DecimalText) (destination : Text) (destAsset : Asset)
      (destMin : DecimalText) (path : List Asset)
  | manageSellOffer (selling buying : Asset) (amount : DecimalText) (price : SdkPrice) (offerId : Text)
  | manageBuyOffer (selling buying : Asset) (buyAmount : DecimalText) (price : SdkPrice) (offerId : Text)
  | createPassiveSellOffer (selling buying : Asset) (amount : DecimalText) (price : SdkPrice)
  | setOptions (options : AccountOptions)
  | changeTrust (line : Line) (limit : DecimalText)
  | allowTrust (trustor assetCode : Text) (authorize : Nat)
  | accountMerge (destination : Text)
  | manageData (name : Text) (value : Option Text)
  | other (name label : Text) (fields : List (Text × Option Text))

structure Operation where
  source : Option Text
  body : Body

def assetLabel : Asset → Text
  | .native => text "XLM"
  | .credit asset => asset.code ++ unit ':' :: asset.issuer

def lineLabel : Line → Except Text Text
  | .asset asset => .ok (assetLabel asset)
  | .pool _ => .error (text "asset.isNative is not a function")

/-- `n` and `d` of a text are undefined. -/
def priceLabel : SdkPrice → Text
  | .decimal _ => text "undefined/undefined (≈NaN)"
  | .ratio n d => ofNat n ++ unit '/' :: (ofNat d ++ text " (≈" ++ toFixed 7 (div (ofInt n) (ofInt d)) ++ text ")")

def pathLabel (path : List Asset) : Text :=
  let label := (text " → ").intercalate (path.map assetLabel)
  if label = [] then text "direct" else label

def decodeOperation (op : Operation) : Except Text DecodedOperation :=
  let source := op.source
  match op.body with
  | .createAccount destination startingBalance =>
      .ok {
        type := .createAccount
        label := text "Create Account"
        sourceAccount := source
        fields := [(text "destination", destination), (text "startingBalance", startingBalance.text ++ text " XLM")] }
  | .payment destination asset amount =>
      .ok {
        type := .payment
        label := text "Payment"
        sourceAccount := source
        fields := [(text "destination", destination), (text "asset", assetLabel asset), (text "amount", amount.text)] }
  | .pathPaymentStrictReceive sendAsset sendMax destination destAsset destAmount path =>
      .ok {
        type := .pathPaymentStrictReceive
        label := text "Path Payment (Strict Receive)"
        sourceAccount := source
        fields := [(text "sendAsset", assetLabel sendAsset), (text "sendMax", sendMax.text),
          (text "destination", destination), (text "destAsset", assetLabel destAsset), (text "destAmount", destAmount.text),
          (text "path", pathLabel path)] }
  | .pathPaymentStrictSend sendAsset sendAmount destination destAsset destMin path =>
      .ok {
        type := .pathPaymentStrictSend
        label := text "Path Payment (Strict Send)"
        sourceAccount := source
        fields := [(text "sendAsset", assetLabel sendAsset), (text "sendAmount", sendAmount.text),
          (text "destination", destination), (text "destAsset", assetLabel destAsset), (text "destMin", destMin.text),
          (text "path", pathLabel path)] }
  | .manageSellOffer selling buying amount price offerId =>
      .ok {
        type := .manageSellOffer
        label := text "Manage Sell Offer"
        sourceAccount := source
        fields := [(text "selling", assetLabel selling), (text "buying", assetLabel buying), (text "amount", amount.text),
          (text "price", priceLabel price), (text "offerId", offerId)] }
  | .manageBuyOffer selling buying buyAmount price offerId =>
      .ok {
        type := .manageBuyOffer
        label := text "Manage Buy Offer"
        sourceAccount := source
        fields := [(text "selling", assetLabel selling), (text "buying", assetLabel buying),
          (text "buyAmount", buyAmount.text), (text "price", priceLabel price), (text "offerId", offerId)] }
  | .createPassiveSellOffer selling buying amount price =>
      .ok {
        type := .createPassiveSellOffer
        label := text "Passive Sell Offer"
        sourceAccount := source
        fields := [(text "selling", assetLabel selling), (text "buying", assetLabel buying), (text "amount", amount.text),
          (text "price", priceLabel price)] }
  | .setOptions options =>
      .ok {
        type := .setOptions
        label := text "Set Options"
        sourceAccount := source
        fields := [(text "inflationDest", options.inflationDest), (text "homeDomain", options.homeDomain),
          (text "masterWeight", options.masterWeight.map ofNat), (text "lowThreshold", options.lowThreshold.map ofNat),
          (text "medThreshold", options.medThreshold.map ofNat), (text "highThreshold", options.highThreshold.map ofNat),
          (text "setFlags", options.setFlags.map ofNat), (text "clearFlags", options.clearFlags.map ofNat),
          (text "signer", options.signer.map fun signer =>
            signer.key ++ text " (weight " ++ ofNat signer.weight ++ text ")")] }
  | .changeTrust line limit =>
      (lineLabel line).map fun asset => {
        type := .changeTrust
        label := text "Change Trust"
        sourceAccount := source
        fields := [(text "asset", some asset), (text "limit", some limit.text)] }
  | .allowTrust trustor assetCode authorize =>
      .ok {
        type := .allowTrust
        label := text "Allow Trust"
        sourceAccount := source
        fields := [(text "trustor", trustor), (text "assetCode", assetCode), (text "authorize", ofNat authorize)] }
  | .accountMerge destination =>
      .ok {
        type := .accountMerge
        label := text "Account Merge"
        sourceAccount := source
        fields := [(text "destination", destination)] }
  | .manageData name value =>
      .ok {
        type := .manageData
        label := text "Manage Data"
        sourceAccount := source
        fields := [(text "name", some name), (text "value", value)] }
  | .other name label fields => .ok { type := .other name, label, sourceAccount := source, fields }

/-- What stands in the payload; nothing stands for NaN. -/
abbrev Payload := Value Double

structure ComposerOperation where
  type : OperationType
  fields : List (Text × Option Payload)

def nativeField : Payload := .obj [(text "code", .str (text "XLM"))]

def creditField (code issuer : Text) : Payload := .obj [(text "code", .str code), (text "issuer", .str issuer)]

def parseAssetField (val : Option Text) : Payload :=
  match val with
  | none => nativeField
  | some val =>
      if val = [] ∨ val = text "XLM" then nativeField
      else
        match split (unit ':') val with
        | code :: issuer :: _ => creditField code issuer
        | [code] => creditField code []
        | [] => creditField (text "XLM") []

def ratioField (n d : Double) : Payload := .obj [(text "n", .num n), (text "d", .num d)]

/-- The digits in front of the first slash and behind it. -/
def ratioMatch (val : Text) : Option (Text × Text) :=
  let n := val.takeWhile isDigit
  match val.dropWhile isDigit with
  | [] => none
  | slash :: rest =>
      let d := rest.takeWhile isDigit
      if n ≠ [] ∧ slash = unit '/' ∧ d ≠ [] then some (n, d) else none

def parsePrice (val : Option Text) : Payload :=
  match val.bind ratioMatch with
  | some (n, d) => ratioField (parseInt n) (parseInt d)
  | none => ratioField (ofInt 1) (ofInt 1)

section Fields

variable (f : List (Text × Option Text))

/-- `f.name`, as it is taken over. -/
def fieldOf (name : Text) : Option Payload := (f.lookup name).map fun t => t.elim .null .str

/-- `f.name`, where `null` and `undefined` are the same. -/
def fieldText (name : Text) : Option Text := (f.lookup name).join

def buildComposerOp (op : DecodedOperation) : ComposerOperation :=
  let f := op.fields
  match op.type with
  | .payment =>
      { type := .payment
        fields := [(text "destination", fieldOf f (text "destination")), (text "amount", fieldOf f (text "amount")),
          (text "asset", parseAssetField (fieldText f (text "asset")))] }
  | .createAccount =>
      { type := .createAccount
        fields := [(text "destination", fieldOf f (text "destination")),
          (text "startingBalance", .some (.num (parseFloat ((fieldText f (text "startingBalance")).getD (text "0")))))] }
  | .changeTrust =>
      { type := .changeTrust
        fields := [(text "asset", parseAssetField (fieldText f (text "asset"))),
          (text "limit", if fieldText f (text "limit") = some (text "max") then none else fieldOf f (text "limit"))] }
  | .manageSellOffer =>
      { type := .manageSellOffer
        fields := [(text "selling", parseAssetField (fieldText f (text "selling"))),
          (text "buying", parseAssetField (fieldText f (text "buying"))), (text "amount", fieldOf f (text "amount")),
          (text "price", parsePrice (fieldText f (text "price"))), (text "offerId", fieldOf f (text "offerId"))] }
  | .manageBuyOffer =>
      { type := .manageBuyOffer
        fields := [(text "selling", parseAssetField (fieldText f (text "selling"))),
          (text "buying", parseAssetField (fieldText f (text "buying"))), (text "buyAmount", fieldOf f (text "buyAmount")),
          (text "price", parsePrice (fieldText f (text "price"))), (text "offerId", fieldOf f (text "offerId"))] }
  | .accountMerge => { type := .accountMerge, fields := [(text "destination", fieldOf f (text "destination"))] }
  | .manageData =>
      { type := .manageData
        fields := [(text "name", fieldOf f (text "name")), (text "value", fieldOf f (text "value"))] }
  | type => { type, fields := f.map fun field => (field.1, some (field.2.elim .null .str)) }

end Fields

def composerSupported : OperationType → Bool
  | .other _ => false
  | _ => true

structure HorizonTransaction where
  sourceAccount : Option Text
  memo : Option Text

inductive Memo
  | none
  | text (bytes : List (BitVec 8))
  | id (id : BitVec 64)
  | hash (bytes : List (BitVec 8))
  | returnHash (bytes : List (BitVec 8))

structure Transaction where
  source : Text
  source_ne : source ≠ []
  memo : Memo
  operations : List Operation

/-- What must not be lost of a field. -/
inductive Essential
  | text (t : Text)
  | amount (t : DecimalText)
  | line (line : Line)
  | path (assets : List Asset)
  | price (price : SdkPrice)

def assetField : Asset → Payload
  | .native => nativeField
  | .credit asset => creditField asset.code asset.issuer

def priceValue : SdkPrice → Rat
  | .decimal price => price.value
  | .ratio n d => n / d

/-- A payload has the same text, the same decimal, the asset or the assets as the composer reads them, or a fraction of the
same value. A number is the decimal that is written for it. -/
def Essential.Denoted : Essential → Option Payload → Prop
  | .text t, some (.str s) => s = t
  | .amount t, some (.str s) => unsignedValue s = some t.value
  | .amount t, some (.num (some x)) => exactValue (numberText x) = some t.value
  | .line (.asset asset), some v => v = assetField asset
  | .path assets, some v => v = .arr (assets.map assetField)
  | .price p, some v => ∃ n d : Rat, v = ratioField (some (.finite n)) (some (.finite d)) ∧ n / d = priceValue p
  | _, _ => False

def bodyType : Body → OperationType
  | .createAccount .. => .createAccount
  | .payment .. => .payment
  | .pathPaymentStrictReceive .. => .pathPaymentStrictReceive
  | .pathPaymentStrictSend .. => .pathPaymentStrictSend
  | .manageSellOffer .. => .manageSellOffer
  | .manageBuyOffer .. => .manageBuyOffer
  | .createPassiveSellOffer .. => .createPassiveSellOffer
  | .setOptions .. => .setOptions
  | .changeTrust .. => .changeTrust
  | .allowTrust .. => .allowTrust
  | .accountMerge .. => .accountMerge
  | .manageData .. => .manageData
  | .other name .. => .other name

/-- Destination, assets, amounts, limit, offer id, price and path. -/
def essentials : Body → List (Text × Essential)
  | .createAccount destination startingBalance =>
      [(text "destination", .text destination), (text "startingBalance", .amount startingBalance)]
  | .payment destination asset amount =>
      [(text "destination", .text destination), (text "asset", .line (.asset asset)), (text "amount", .amount amount)]
  | .pathPaymentStrictReceive sendAsset sendMax destination destAsset destAmount path =>
      [(text "sendAsset", .line (.asset sendAsset)), (text "sendMax", .amount sendMax),
        (text "destination", .text destination), (text "destAsset", .line (.asset destAsset)),
        (text "destAmount", .amount destAmount), (text "path", .path path)]
  | .pathPaymentStrictSend sendAsset sendAmount destination destAsset destMin path =>
      [(text "sendAsset", .line (.asset sendAsset)), (text "sendAmount", .amount sendAmount),
        (text "destination", .text destination), (text "destAsset", .line (.asset destAsset)),
        (text "destMin", .amount destMin), (text "path", .path path)]
  | .manageSellOffer selling buying amount price offerId =>
      [(text "selling", .line (.asset selling)), (text "buying", .line (.asset buying)), (text "amount", .amount amount),
        (text "price", .price price), (text "offerId", .text offerId)]
  | .manageBuyOffer selling buying buyAmount price offerId =>
      [(text "selling", .line (.asset selling)), (text "buying", .line (.asset buying)),
        (text "buyAmount", .amount buyAmount), (text "price", .price price), (text "offerId", .text offerId)]
  | .createPassiveSellOffer selling buying amount price =>
      [(text "selling", .line (.asset selling)), (text "buying", .line (.asset buying)), (text "amount", .amount amount),
        (text "price", .price price)]
  | .setOptions _ => []
  | .changeTrust line limit => [(text "asset", .line line), (text "limit", .amount limit)]
  | .allowTrust _ assetCode _ => [(text "assetCode", .text assetCode)]
  | .accountMerge destination => [(text "destination", .text destination)]
  | .manageData .. => []
  | .other .. => []

def Carries (op : Operation) (c : ComposerOperation) : Prop :=
  c.type = bodyType op.body ∧ (∀ e ∈ essentials op.body, e.2.Denoted (c.fields.lookup e.1).join) ∧
    (c.fields.lookup (text "sourceAccount")).join = op.source.map .str

def BalanceKept (balance : DecimalText) : Prop :=
  ∃ x, toNumber balance.text = some x ∧ exactValue (numberText x) = some balance.value

def PriceKept : SdkPrice → Prop
  | .decimal price => price.value = 1
  | .ratio .. => True

def BodyKept : Body → Prop
  | .createAccount _ startingBalance => BalanceKept startingBalance
  | .pathPaymentStrictReceive .. => False
  | .pathPaymentStrictSend .. => False
  | .manageSellOffer _ _ _ price _ => PriceKept price
  | .manageBuyOffer _ _ _ price _ => PriceKept price
  | .createPassiveSellOffer .. => False
  | .changeTrust (.pool _) _ => False
  | _ => True

def Kept (op : Operation) : Prop := op.source = none ∧ BodyKept op.body

theorem unsignedValue_text (t : DecimalText) : unsignedValue t.text = some t.value := by
  rw [unsignedValue, t.parts]
  rfl

theorem parseAssetField_label (asset : Asset) : parseAssetField (some (assetLabel asset)) = assetField asset := by
  cases asset with
  | native => rfl
  | credit asset =>
      have hcolon : unit ':' ∈ asset.code ++ unit ':' :: asset.issuer := List.mem_append_right _ List.mem_cons_self
      have hlabel : ¬(asset.code ++ unit ':' :: asset.issuer = [] ∨ asset.code ++ unit ':' :: asset.issuer = text "XLM") := by
        rintro (h | h) <;> rw [h] at hcolon <;> exact absurd hcolon (by decide)
      have hjoin : join (unit ':') [asset.code, asset.issuer] = asset.code ++ unit ':' :: asset.issuer := by simp [join]
      have hparts : ∀ t ∈ [asset.code, asset.issuer], unit ':' ∉ t :=
        List.forall_mem_cons.mpr ⟨asset.code_plain, List.forall_mem_singleton.mpr asset.issuer_plain⟩
      have hsplit := split_join hparts (by rw [hjoin]; exact List.ne_nil_of_mem hcolon)
      rw [hjoin] at hsplit
      rw [assetLabel, parseAssetField, if_neg hlabel, hsplit]
      rfl

theorem takeWhile_digits (n : Nat) {u : UInt16} (hu : ¬isDigit u = true) (rest : Text) :
    (ofNat n ++ u :: rest).takeWhile isDigit = ofNat n ∧ (ofNat n ++ u :: rest).dropWhile isDigit = u :: rest := by
  have hdigits := digits_ofNat n
  rw [List.takeWhile_append_of_pos hdigits, List.takeWhile_cons_of_neg hu, List.append_nil,
    List.dropWhile_append_of_pos hdigits, List.dropWhile_cons_of_neg hu]
  exact ⟨rfl, rfl⟩

theorem parsePrice_ratio (n d : Fin (2 ^ 31)) :
    parsePrice (some (priceLabel (.ratio n d))) = ratioField (ofInt n) (ofInt d) := by
  have hbound (k : Fin (2 ^ 31)) : (k : Nat) < 2 ^ 53 := k.isLt.trans (by decide)
  have hlabel : ratioMatch (priceLabel (.ratio n d)) = some (ofNat n, ofNat d) := by
    obtain ⟨rest, hrest⟩ : ∃ rest, priceLabel (.ratio n d) = ofNat n ++ unit '/' :: (ofNat d ++ unit ' ' :: rest) := by
      refine ⟨text "(≈" ++ toFixed 7 (div (ofInt n) (ofInt d)) ++ text ")", ?_⟩
      have hopen : text " (≈" = unit ' ' :: text "(≈" := rfl
      simp only [priceLabel, hopen, List.append_assoc, List.cons_append]
    have hslash := takeWhile_digits n (u := unit '/') (by decide) (ofNat d ++ unit ' ' :: rest)
    have hblank := takeWhile_digits d (u := unit ' ') (by decide) rest
    rw [hrest, ratioMatch, hslash.1, hslash.2]
    simp only [hblank.1, ne_eq, ofNat_ne_nil, not_false_eq_true, and_self, if_true]
  simp only [parsePrice, Option.bind_some, hlabel, parseInt_ofNat (hbound n), parseInt_ofNat (hbound d)]
  rfl

theorem parsePrice_decimal (price : DecimalText) :
    parsePrice (some (priceLabel (.decimal price))) = ratioField (ofInt 1) (ofInt 1) := by
  rfl

theorem denoted_price (price : SdkPrice) : (Essential.price price).Denoted (some (parsePrice (some (priceLabel price)))) ↔
    PriceKept price := by
  cases price with
  | decimal price =>
      rw [parsePrice_decimal, PriceKept]
      constructor
      · rintro ⟨n, d, hfield, hvalue⟩
        obtain ⟨hn, hd⟩ : 1 = n ∧ 1 = d := by simpa [ratioField, ofInt, Number.ofInt] using hfield
        rw [← hn, ← hd, div_one] at hvalue
        exact hvalue.symm
      · intro h
        refine ⟨1, 1, rfl, ?_⟩
        rw [priceValue, h, div_one]
  | ratio n d =>
      rw [parsePrice_ratio]
      refine iff_of_true ⟨n, d, rfl, rfl⟩ trivial

theorem denoted_balance (balance : DecimalText) :
    (Essential.amount balance).Denoted (some (.num (parseFloat (balance.text ++ text " XLM")))) ↔ BalanceKept balance := by
  have hfloat : parseFloat (balance.text ++ text " XLM") = toNumber balance.text :=
    (parseFloat_decimal balance.parts (text "XLM")).trans (toNumber_decimal balance.parts).symm
  rw [hfloat, BalanceKept]
  cases toNumber balance.text with
  | none => simp [Essential.Denoted]
  | some x => simp [Essential.Denoted]

/-- Sources of operations are in no payload. -/
theorem carries_iff_of {op : Operation} {c : ComposerOperation} (htype : c.type = bodyType op.body)
    (hsource : (c.fields.lookup (text "sourceAccount")).join = none)
    (hbody : (∀ e ∈ essentials op.body, e.2.Denoted (c.fields.lookup e.1).join) ↔ BodyKept op.body) :
    Carries op c ↔ Kept op := by
  rw [Carries, Kept, hsource, hbody, and_iff_right htype, and_comm, eq_comm, Option.map_eq_none_iff]

/-- The label of an asset is not the asset. -/
theorem not_denoted_label (asset : Asset) (label : Text) : ¬(Essential.line (.asset asset)).Denoted (some (.str label)) := by
  intro h
  cases asset <;> cases h

theorem limit_ne_max (limit : DecimalText) : limit.text ≠ text "max" := by
  intro h
  have hparts := limit.parts
  rw [h] at hparts
  cases hparts

/-- What is made of an operation keeps what must not be lost just for some bodies. -/
theorem carries_iff {op : Operation} {d : DecodedOperation} (h : decodeOperation op = .ok d)
    (hsupported : composerSupported (bodyType op.body)) : Carries op (buildComposerOp d) ↔ Kept op := by
  obtain ⟨source, body⟩ := op
  cases body with
  | createAccount destination startingBalance =>
      cases h
      refine carries_iff_of rfl rfl ?_
      rw [essentials, List.forall_mem_cons, List.forall_mem_singleton]
      exact (and_iff_right rfl).trans (denoted_balance startingBalance)
  | payment destination asset amount =>
      cases h
      refine carries_iff_of rfl rfl (iff_of_true ?_ trivial)
      exact List.forall_mem_cons.mpr ⟨rfl, List.forall_mem_cons.mpr ⟨parseAssetField_label asset,
        List.forall_mem_singleton.mpr (unsignedValue_text amount)⟩⟩
  | pathPaymentStrictReceive sendAsset sendMax destination destAsset destAmount path =>
      cases h
      exact carries_iff_of rfl rfl (iff_of_false (fun hall => not_denoted_label _ _ (List.forall_mem_cons.mp hall).1) id)
  | pathPaymentStrictSend sendAsset sendAmount destination destAsset destMin path =>
      cases h
      exact carries_iff_of rfl rfl (iff_of_false (fun hall => not_denoted_label _ _ (List.forall_mem_cons.mp hall).1) id)
  | manageSellOffer selling buying amount price offerId =>
      cases h
      refine carries_iff_of rfl rfl ?_
      rw [essentials, List.forall_mem_cons, List.forall_mem_cons, List.forall_mem_cons, List.forall_mem_cons,
        List.forall_mem_singleton]
      exact (and_iff_right (parseAssetField_label selling)).trans ((and_iff_right (parseAssetField_label buying)).trans
        ((and_iff_right (unsignedValue_text amount)).trans ((and_iff_left rfl).trans (denoted_price price))))
  | manageBuyOffer selling buying buyAmount price offerId =>
      cases h
      refine carries_iff_of rfl rfl ?_
      rw [essentials, List.forall_mem_cons, List.forall_mem_cons, List.forall_mem_cons, List.forall_mem_cons,
        List.forall_mem_singleton]
      exact (and_iff_right (parseAssetField_label selling)).trans ((and_iff_right (parseAssetField_label buying)).trans
        ((and_iff_right (unsignedValue_text buyAmount)).trans ((and_iff_left rfl).trans (denoted_price price))))
  | createPassiveSellOffer selling buying amount price =>
      cases h
      exact carries_iff_of rfl rfl (iff_of_false (fun hall => not_denoted_label _ _ (List.forall_mem_cons.mp hall).1) id)
  | setOptions options =>
      cases h
      exact carries_iff_of rfl rfl (iff_of_true (List.forall_mem_nil _) trivial)
  | changeTrust line limit =>
      cases line with
      | pool id => cases h
      | asset asset =>
          cases h
          refine carries_iff_of rfl rfl (iff_of_true ?_ trivial)
          refine List.forall_mem_cons.mpr ⟨parseAssetField_label asset, List.forall_mem_singleton.mpr ?_⟩
          have hmax : ¬some limit.text = some (text "max") := fun heq => limit_ne_max limit (Option.some.inj heq)
          change (Essential.amount limit).Denoted
            (if some limit.text = some (text "max") then none else some (.str limit.text))
          rw [if_neg hmax]
          exact unsignedValue_text limit
  | allowTrust trustor assetCode authorize =>
      cases h
      exact carries_iff_of rfl rfl (iff_of_true (List.forall_mem_singleton.mpr rfl) trivial)
  | accountMerge destination =>
      cases h
      exact carries_iff_of rfl rfl (iff_of_true (List.forall_mem_singleton.mpr rfl) trivial)
  | manageData name value =>
      cases h
      exact carries_iff_of rfl rfl (iff_of_true (List.forall_mem_nil _) trivial)
  | other name label fields => cases hsupported

section Transactions

variable (tx : Transaction) (network : Text)

/-- How a transaction comes to be inspected. -/
inductive Inspected
  | fromHorizon (horizonTx : HorizonTransaction) (horizonOps : List DecodedOperation)
  | fromXdr

/-- What Horizon tells of a transaction: its account, and its memo if it has one that is text. -/
structure IsRecord (horizonTx : HorizonTransaction) : Prop where
  account : ∃ account ≠ [], horizonTx.sourceAccount = some account
  noMemo : tx.memo = .none → horizonTx.memo = none
  textMemo : ∀ bytes, tx.memo = .text bytes → (∃ t, textEncode t = bytes) → ∃ t, horizonTx.memo = some t ∧ textEncode t = bytes

def Recorded : Inspected → Prop
  | .fromHorizon horizonTx _ => IsRecord tx horizonTx
  | .fromXdr => True

end Transactions

end Savitools.Inspector.ComposerPayloads
