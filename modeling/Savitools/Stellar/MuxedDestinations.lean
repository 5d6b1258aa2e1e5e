import Savitools.Bits.Groups
import Savitools.Common.Exceptions
import Savitools.Json.Conversions
import Savitools.Web.StrKeyTexts

namespace Savitools.Stellar.Address

open Strings.CodeUnits Strings.Decimals Json.Conversions Bits.BigEndian Common.Exceptions

abbrev Bytes := List (BitVec 8)

/-- What is used of the codec of the SDK. -/
structure StrKey where
  isValidEd25519PublicKey : Text → Bool
  decodeEd25519PublicKey : Text → Except Text (Bytes)
  encodeEd25519PublicKey : Bytes → Text
  isValidMed25519PublicKey : Text → Bool
  decodeMed25519PublicKey : Text → Except Text (Bytes)
  encodeMed25519PublicKey : Bytes → Text

structure ParsedDestination where
  input : Text
  muxed : Bool
  account : Text
  muxedId : Option Text
deriving DecidableEq

def ED25519_KEY_BYTES : Nat := 32

def MUXED_ID_BYTES : Nat := 8

variable (strKey : StrKey)

/-- A text goes through `BigInt`, which throws for what it does not read. -/
def bigIntOf : Text ⊕ Int → Option Int
  | .inl t => toBigInt t
  | .inr n => some n

def unsigned64 : Exception := .badRequest (text "Muxed account id must be an unsigned 64-bit integer")

/-- `source.copy(target, 0)` -/
def copy (source target : Bytes) : Bytes := source.take target.length ++ target.drop source.length

/-- `writeBigUInt64BE` -/
def writeBigUInt64BE (target : Bytes) (n offset : Nat) : Bytes :=
  target.take offset ++ bytesOf 8 n ++ target.drop (offset + 8)

def readBigUInt64BE (bytes : Bytes) : Except Text Nat :=
  if bytes.length < 8 then .error (text "Attempt to access memory outside buffer bounds") else .ok (valueOf (bytes.take 8))

def encodeMuxedDestination (account : Text) (muxedId : Text ⊕ Int) : Except Exception Text :=
  if !strKey.isValidEd25519PublicKey account then .error (.badRequest (text "Invalid base account public key"))
  else
    match bigIntOf muxedId with
    | none => .error unsigned64
    | some id =>
        if id < 0 ∨ 18446744073709551615 < id then .error unsigned64
        else
          ((strKey.decodeEd25519PublicKey account).mapError .error).map fun key =>
            strKey.encodeMed25519PublicKey (writeBigUInt64BE (copy key (List.replicate 40 0)) id.toNat 32)

/-- The account and the payment ID of an address that is valid as a muxed one. -/
def muxedParts (address : Text) : Except Text (Text × Text) :=
  (strKey.decodeMed25519PublicKey address).bind fun raw =>
    (readBigUInt64BE ((raw.drop ED25519_KEY_BYTES).take MUXED_ID_BYTES)).map fun id =>
      (strKey.encodeEd25519PublicKey (raw.take ED25519_KEY_BYTES), ofNat id)

def parseDestination (destination : Text) : Except Exception ParsedDestination :=
  let address := trim destination
  if address = [] then .error (.badRequest (text "Invalid destination public key: empty"))
  else if strKey.isValidEd25519PublicKey address then .ok ⟨address, false, address, none⟩
  else if strKey.isValidMed25519PublicKey address then
    ((muxedParts strKey address).mapError .error).map fun (account, muxedId) => ⟨address, true, account, some muxedId⟩
  else if address.head? = some (unit 'M') then
    .error (.badRequest (text "Invalid muxed destination address: " ++ address))
  else .error (.badRequest (text "Invalid destination public key: " ++ address))

end Savitools.Stellar.Address

namespace Savitools.Web.MuxedAddress

open Strings.CodeUnits Stellar.Address

inductive Kind
  | account
  | muxed
deriving DecidableEq

structure DestinationPreview where
  kind : Option Kind
  account : Option Text
  muxedId : Option Text

def previewDestination (strKey : StrKey) (value : Text) : Except Text DestinationPreview :=
  let address := trim value
  if strKey.isValidEd25519PublicKey address then .ok ⟨some .account, some address, none⟩
  else if strKey.isValidMed25519PublicKey address then
    (muxedParts strKey address).map fun (account, muxedId) => ⟨some .muxed, some account, some muxedId⟩
  else .ok ⟨none, none, none⟩

end Savitools.Web.MuxedAddress

namespace Savitools.Stellar.MuxedDestinations

open Strings.CodeUnits Strings.Decimals Json.Conversions Bits.BigEndian Common.Exceptions Address Web.MuxedAddress

/-- The codec is right: keys come back from their texts, and muxed payloads from theirs, which have no blanks. -/
structure Correct (strKey : StrKey) : Prop where
  account : ∀ account, strKey.isValidEd25519PublicKey account = true → ∃ key : Bytes,
    strKey.decodeEd25519PublicKey account = .ok key ∧ key.length = 32 ∧ strKey.encodeEd25519PublicKey key = account
  muxed : ∀ payload : Bytes, payload.length = 40 →
    strKey.isValidMed25519PublicKey (strKey.encodeMed25519PublicKey payload) = true ∧
      strKey.isValidEd25519PublicKey (strKey.encodeMed25519PublicKey payload) = false ∧
      strKey.decodeMed25519PublicKey (strKey.encodeMed25519PublicKey payload) = .ok payload
  solid : ∀ payload, ∀ u ∈ strKey.encodeMed25519PublicKey payload, isSpace u = false
  empty : strKey.isValidEd25519PublicKey [] = false ∧ strKey.isValidMed25519PublicKey [] = false

/-- The number that an id is, if it is one of 64 bits: a BigInt, or a text of decimal digits. -/
def denoted : Text ⊕ Int → Option Nat
  | .inl t => if isDigits t ∧ digitsValue t < 2 ^ 64 then some (digitsValue t) else none
  | .inr n => if 0 ≤ n ∧ n < 2 ^ 64 then some n.toNat else none

structure RoundTrips (strKey : StrKey) (account : Text) (muxedId : Text ⊕ Int) : Prop where
  encoded : ∀ id, denoted muxedId = some id → ∃ address, encodeMuxedDestination strKey account muxedId = .ok address ∧
    parseDestination strKey address = .ok ⟨address, true, account, some (ofNat id)⟩
  rejected : denoted muxedId = none → ∃ thrown, encodeMuxedDestination strKey account muxedId = .error thrown

/-- The two parsers accept the same texts, with the same account and id. -/
structure Agrees (strKey : StrKey) (value : Text) : Prop where
  accepts : (∃ preview, previewDestination strKey value = .ok preview ∧ preview.kind ≠ none) ↔
    ∃ parsed, parseDestination strKey value = .ok parsed
  same : ∀ preview parsed, previewDestination strKey value = .ok preview → parseDestination strKey value = .ok parsed →
    preview.kind = some (if parsed.muxed then .muxed else .account) ∧ preview.account = some parsed.account ∧
      preview.muxedId = parsed.muxedId

/-- The id is a BigInt, a text of digits, or a text that `BigInt` reads as no number of 64 bits. -/
def IsPlain : Text ⊕ Int → Prop
  | .inl t => isDigits t = true ∨ ∀ n, toBigInt t = some n → n < 0 ∨ 2 ^ 64 ≤ n
  | .inr _ => True

variable {strKey : StrKey}

theorem agrees_of_rejected {value : Text} (hpreview : ∀ preview, previewDestination strKey value = .ok preview → preview.kind = none)
    {thrown : Exception} (hparse : parseDestination strKey value = .error thrown) : Agrees strKey value := by
  have hnone : ∀ parsed, parseDestination strKey value ≠ .ok parsed := by
    intro parsed hparsed
    rw [hparse] at hparsed
    cases hparsed
  refine ⟨iff_of_false ?_ ?_, fun preview parsed _ hparsed => absurd hparsed (hnone parsed)⟩
  · rintro ⟨preview, hok, hkind⟩
    exact hkind (hpreview preview hok)
  · rintro ⟨parsed, hparsed⟩
    exact hnone parsed hparsed

theorem agrees_of_accepted {value account input : Text} {muxed : Bool} {muxedId : Option Text}
    (hpreview : previewDestination strKey value = .ok ⟨some (if muxed then .muxed else .account), some account, muxedId⟩)
    (hparse : parseDestination strKey value = .ok ⟨input, muxed, account, muxedId⟩) : Agrees strKey value := by
  refine ⟨iff_of_true ⟨_, hpreview, Option.some_ne_none _⟩ ⟨_, hparse⟩, fun preview parsed hshown hparsed => ?_⟩
  rw [hpreview] at hshown
  rw [hparse] at hparsed
  cases hshown
  cases hparsed
  exact ⟨rfl, rfl, rfl⟩

theorem agrees (hstrKey : Correct strKey) (value : Text) : Agrees strKey value := by
  by_cases hempty : trim value = []
  · refine agrees_of_rejected (fun preview hpreview => ?_) (if_pos hempty)
    simp only [previewDestination, hempty, hstrKey.empty, Bool.false_eq_true, if_false] at hpreview
    cases hpreview
    rfl
  by_cases hplain : strKey.isValidEd25519PublicKey (trim value) = true
  · refine @agrees_of_accepted strKey value (trim value) (trim value) false none ?_ ?_
    · simp only [previewDestination, hplain, if_true]
      rfl
    · simp only [parseDestination, hempty, hplain, if_true, if_false]
  by_cases hmuxed : strKey.isValidMed25519PublicKey (trim value) = true
  · have hpreview : previewDestination strKey value = (muxedParts strKey (trim value)).map
        fun parts => ⟨some .muxed, some parts.1, some parts.2⟩ := by
      simp only [previewDestination, hplain, hmuxed, if_true, if_false, Bool.false_eq_true]
    have hparse : parseDestination strKey value = ((muxedParts strKey (trim value)).mapError .error).map
        fun parts => ⟨trim value, true, parts.1, some parts.2⟩ := by
      simp only [parseDestination, hempty, hplain, hmuxed, if_true, if_false, Bool.false_eq_true]
    cases hparts : muxedParts strKey (trim value) with
    | error message =>
        rw [hparts] at hpreview hparse
        refine agrees_of_rejected (fun preview hok => ?_) hparse
        rw [hpreview] at hok
        cases hok
    | ok parts =>
        rw [hparts] at hpreview hparse
        exact @agrees_of_accepted strKey value parts.1 (trim value) true (some parts.2) hpreview hparse
  · have hparse : ∃ thrown, parseDestination strKey value = .error thrown := by
      simp only [parseDestination, hempty, hplain, hmuxed, if_false, Bool.false_eq_true]
      split <;> exact ⟨_, rfl⟩
    obtain ⟨thrown, hthrown⟩ := hparse
    refine agrees_of_rejected (fun preview hpreview => ?_) hthrown
    simp only [previewDestination, hplain, hmuxed, if_false, Bool.false_eq_true] at hpreview
    cases hpreview
    rfl

/-- The key and the id stand in the payload side by side, and are read from there. -/
theorem parseDestination_encoded (hstrKey : Correct strKey) {key : Bytes} (hkey : key.length = 32) {id : Nat}
    (hid : id < 2 ^ 64) :
    let address := strKey.encodeMed25519PublicKey (writeBigUInt64BE (copy key (List.replicate 40 0)) id 32)
    parseDestination strKey address = .ok ⟨address, true, strKey.encodeEd25519PublicKey key, some (ofNat id)⟩ := by
  intro address
  have hcopy : copy key (List.replicate 40 0) = key ++ List.replicate 8 0 := by
    rw [copy, List.length_replicate, List.take_of_length_le (by omega), List.drop_replicate, hkey]
  have hpayload : writeBigUInt64BE (copy key (List.replicate 40 0)) id 32 = key ++ bytesOf 8 id := by
    have hdrop : (key ++ List.replicate 8 (0 : BitVec 8)).drop (32 + 8) = [] :=
      List.drop_eq_nil_of_le (by rw [List.length_append, List.length_replicate, hkey])
    rw [writeBigUInt64BE, hcopy, hdrop, List.take_left' hkey, List.append_nil]
  have hlength : (key ++ bytesOf 8 id).length = 40 := by
    rw [List.length_append, length_bytesOf, hkey]
  obtain ⟨hvalid, hplain, hdecode⟩ := hstrKey.muxed _ hlength
  have haddress : address = strKey.encodeMed25519PublicKey (key ++ bytesOf 8 id) := congrArg _ hpayload
  have htrim : trim address = address := trim_eq_self (hstrKey.solid _)
  have hne : address ≠ [] := fun hnil => by
    rw [← haddress, hnil, hstrKey.empty.2] at hvalid
    cases hvalid
  have hparts : muxedParts strKey address = .ok (strKey.encodeEd25519PublicKey key, ofNat id) := by
    have hdrop : ((key ++ bytesOf 8 id).drop ED25519_KEY_BYTES).take MUXED_ID_BYTES = bytesOf 8 id := by
      rw [ED25519_KEY_BYTES, List.drop_left' hkey]
      exact List.take_of_length_le (length_bytesOf 8 id).le
    have htake : (key ++ bytesOf 8 id).take ED25519_KEY_BYTES = key := List.take_left' hkey
    have hread : readBigUInt64BE (bytesOf 8 id) = .ok id := by
      rw [readBigUInt64BE, if_neg (by rw [length_bytesOf]; decide), List.take_of_length_le (length_bytesOf 8 id).le,
        valueOf_bytesOf hid]
    rw [muxedParts, haddress, hdecode]
    simp only [Except.bind, hdrop, htake, hread, Except.map]
  rw [← haddress] at hvalid hplain
  simp only [parseDestination, htrim, hne, hplain, hvalid, hparts, if_true, if_false, Bool.false_eq_true]
  rfl

theorem encodeMuxedDestination_eq {account : Text} {key : Bytes}
    (haccount : strKey.isValidEd25519PublicKey account = true) (hkey : strKey.decodeEd25519PublicKey account = .ok key)
    {muxedId : Text ⊕ Int} {id : Nat} (hid : bigIntOf muxedId = some (id : Int)) (hlt : id < 2 ^ 64) :
    encodeMuxedDestination strKey account muxedId =
      .ok (strKey.encodeMed25519PublicKey (writeBigUInt64BE (copy key (List.replicate 40 0)) id 32)) := by
  have hrange : ¬((id : Int) < 0 ∨ 18446744073709551615 < (id : Int)) := by omega
  simp only [encodeMuxedDestination, haccount, hid, hrange, hkey, Bool.not_true, Bool.false_eq_true, if_false]
  rfl

theorem encodeMuxedDestination_rejects (account : Text) {muxedId : Text ⊕ Int}
    (h : ∀ n, bigIntOf muxedId = some n → n < 0 ∨ 2 ^ 64 ≤ n) :
    ∃ thrown, encodeMuxedDestination strKey account muxedId = .error thrown := by
  rw [encodeMuxedDestination]
  split
  next => exact ⟨_, rfl⟩
  next =>
    split
    next => exact ⟨_, rfl⟩
    next n hn =>
      have hrange : n < 0 ∨ 18446744073709551615 < n := by
        have hout := h n hn
        omega
      rw [if_pos hrange]
      exact ⟨_, rfl⟩

theorem bigIntOf_denoted {muxedId : Text ⊕ Int} {id : Nat} (h : denoted muxedId = some id) :
    bigIntOf muxedId = some (id : Int) ∧ id < 2 ^ 64 := by
  cases muxedId with
  | inl t =>
      rw [denoted] at h
      split at h
      next hdigits =>
        cases h
        obtain ⟨hdigits, hlt⟩ := hdigits
        rw [isDigits, Bool.and_eq_true, bne_iff_ne] at hdigits
        exact ⟨toBigInt_digits (List.all_eq_true.mp hdigits.2) hdigits.1, hlt⟩
      next => cases h
  | inr n =>
      rw [denoted] at h
      split at h
      next hrange =>
        cases h
        exact ⟨congrArg some (by omega), by omega⟩
      next => cases h

/-- Muxed addresses round-trip and all other ids are rejected exactly for ids that are no text which `BigInt` reads as
a number of 64 bits without it being decimal digits; the parsers agree on every text. -/
theorem muxed_iff (hstrKey : Correct strKey) (account : Text) (haccount : strKey.isValidEd25519PublicKey account = true)
    (muxedId : Text ⊕ Int) : (RoundTrips strKey account muxedId ∧ ∀ value, Agrees strKey value) ↔ IsPlain muxedId := by
  obtain ⟨key, hkey, hlength, hencode⟩ := hstrKey.account account haccount
  constructor
  · rintro ⟨htrips, -⟩
    cases muxedId with
    | inr n => trivial
    | inl t =>
        refine or_iff_not_imp_left.mpr fun hdigits n hn => ?_
        by_contra hrange
        rw [not_or, not_lt, not_le] at hrange
        obtain ⟨id, rfl⟩ := Int.eq_ofNat_of_zero_le hrange.1
        obtain ⟨thrown, hthrown⟩ := htrips.rejected (if_neg fun h => hdigits h.1)
        have hencoded := @encodeMuxedDestination_eq strKey account key haccount hkey (.inl t) id hn (by exact_mod_cast hrange.2)
        rw [hencoded] at hthrown
        cases hthrown
  · intro hplain
    refine ⟨⟨fun id hid => ?_, fun hnone => encodeMuxedDestination_rejects account fun n hn => ?_⟩, agrees hstrKey⟩
    · obtain ⟨hbigInt, hlt⟩ := bigIntOf_denoted hid
      have hparse := parseDestination_encoded hstrKey hlength hlt
      rw [hencode] at hparse
      exact ⟨_, encodeMuxedDestination_eq haccount hkey hbigInt hlt, hparse⟩
    · cases muxedId with
      | inr m =>
          cases hn
          rw [denoted] at hnone
          split at hnone
          next => cases hnone
          next hrange => omega
      | inl t =>
          rcases hplain with hdigits | hout
          · rw [denoted] at hnone
            split at hnone
            next => cases hnone
            next hrange =>
              have hall := (Bool.and_eq_true .. ▸ hdigits : (t != []) = true ∧ t.all isDigit = true)
              have hvalue : toBigInt t = some (digitsValue t : Int) :=
                toBigInt_digits (List.all_eq_true.mp hall.2) (bne_iff_ne.mp hall.1)
              have heq : (digitsValue t : Int) = n := Option.some.inj (hvalue.symm.trans hn)
              have hlarge : ¬digitsValue t < 2 ^ 64 := fun hlt => hrange ⟨hdigits, hlt⟩
              omega
          · exact hout n hn

section Sample

open Web.StrKey Web.StrKeyTexts Web.Base32Groups

def encodePayload (type : StrKeyType) (payload : Bytes) : Text :=
  match encodeStrKey type payload with
  | .ok t => t
  | .error _ => []

def decodePayload (t : Text) : Except Text (Bytes) :=
  match decodeStrKey t with
  | .ok decoded => .ok decoded.payload
  | .error error => .error error.message

def isEncoded (type : StrKeyType) (t : Text) : Bool :=
  match decodeStrKey t with
  | .ok decoded => decoded.valid && decoded.type == some type && encodePayload type decoded.payload == t
  | .error _ => false

/-- A codec that takes what it writes itself. -/
def sampleStrKey : Address.StrKey where
  isValidEd25519PublicKey := isEncoded .ed25519PublicKey
  decodeEd25519PublicKey := decodePayload
  encodeEd25519PublicKey := encodePayload .ed25519PublicKey
  isValidMed25519PublicKey := isEncoded .muxedAccount
  decodeMed25519PublicKey := decodePayload
  encodeMed25519PublicKey := encodePayload .muxedAccount

theorem decodeStrKey_encodePayload {type : StrKeyType} {payload : Bytes}
    (hlength : payload.length = strKeyPayloadLength type) (htype : versionToType (strKeyVersion type) = some type) :
    ∃ decoded, decodeStrKey (encodePayload type payload) = .ok decoded ∧ decoded.valid = true ∧ decoded.type = some type ∧
      decoded.payload = payload := by
  obtain ⟨t, canonical, hencode, hcanonical, -, hdecode⟩ := decodeStrKey_encoded type payload hlength
  obtain ⟨decoded, hdecoded, hvalid, hkind, hpayload⟩ := hdecode [] [] nofun nofun
  rw [List.nil_append, List.append_nil] at hdecoded
  cases hcanonical.symm.trans htype
  refine ⟨decoded, ?_, hvalid, hkind, hpayload⟩
  rw [encodePayload, hencode]
  exact hdecoded

theorem isEncoded_encodePayload {type : StrKeyType} {payload : Bytes}
    (hlength : payload.length = strKeyPayloadLength type) (htype : versionToType (strKeyVersion type) = some type) :
    isEncoded type (encodePayload type payload) = true := by
  obtain ⟨decoded, hdecoded, hvalid, hkind, hpayload⟩ := decodeStrKey_encodePayload hlength htype
  simp only [isEncoded, hdecoded, hvalid, hkind, hpayload, beq_self_eq_true, Bool.and_self]

theorem sample_correct : Correct sampleStrKey where
  account account haccount := by
    have hencoded : isEncoded .ed25519PublicKey account = true := haccount
    rw [isEncoded] at hencoded
    split at hencoded
    next decoded hdecoded =>
      rw [Bool.and_eq_true, Bool.and_eq_true] at hencoded
      obtain ⟨⟨hvalid, hkind⟩, hback⟩ := hencoded
      obtain ⟨version, payload, a, b, -, rfl⟩ := decodeStrKey_eq_ok hdecoded
      have hparts := strKeyParts_eq (trim account) version payload a b
      have hversion : versionToType version = some .ed25519PublicKey := by
        rw [hparts] at hkind
        exact eq_of_beq hkind
      have hlength := ((valid_strKeyParts hversion).mp hvalid).2
      rw [hparts] at hback
      refine ⟨payload, ?_, hlength, eq_of_beq hback⟩
      show decodePayload account = .ok payload
      rw [decodePayload, hdecoded, hparts]
    next => cases hencoded
  muxed payload hlength := by
    have hlength : payload.length = strKeyPayloadLength .muxedAccount := hlength
    obtain ⟨decoded, hdecoded, -, hkind, hpayload⟩ := decodeStrKey_encodePayload hlength rfl
    refine ⟨isEncoded_encodePayload hlength rfl, ?_, ?_⟩
    · show isEncoded .ed25519PublicKey (encodePayload .muxedAccount payload) = false
      have hother : (some StrKeyType.muxedAccount == some .ed25519PublicKey) = false := rfl
      rw [isEncoded, hdecoded]
      simp only [hkind, hother, Bool.and_false, Bool.false_and]
    · show decodePayload (encodePayload .muxedAccount payload) = .ok payload
      rw [decodePayload, hdecoded]
      exact congrArg Except.ok hpayload
  solid payload u hu := by
    have hletters : base32Alphabet.any isSpace = false := by decide
    have hmem : u ∈ encodePayload .muxedAccount payload := hu
    rw [encodePayload] at hmem
    split at hmem
    next t ht =>
      obtain ⟨data, rfl⟩ := encodeStrKey_eq_ok ht
      exact Bool.eq_false_iff.mpr (List.any_eq_false.mp hletters u ((base32Encode_spec data).1 u hmem))
    next => cases hmem
  empty := ⟨rfl, rfl⟩

theorem valid_encodePayload {key : Bytes} (hlength : key.length = 32) :
    sampleStrKey.isValidEd25519PublicKey (encodePayload .ed25519PublicKey key) = true :=
  @isEncoded_encodePayload .ed25519PublicKey key hlength rfl

def sampleKeyBytes : Bytes := List.replicate 32 1

def sampleAccount : Text := encodePayload .ed25519PublicKey sampleKeyBytes

theorem sampleAccount_valid : sampleStrKey.isValidEd25519PublicKey sampleAccount = true := by
  have hlength : sampleKeyBytes.length = 32 := List.length_replicate
  rw [sampleAccount]
  exact valid_encodePayload hlength

theorem muxed_digits : RoundTrips sampleStrKey sampleAccount (.inl (text "42")) ∧ ∀ value, Agrees sampleStrKey value :=
  (muxed_iff sample_correct sampleAccount sampleAccount_valid (.inl (text "42"))).mpr (.inl (by decide))

/-- An id that is no text at all is encoded as the id 0. -/
theorem not_muxed : ¬∀ account muxedId, sampleStrKey.isValidEd25519PublicKey account = true →
    RoundTrips sampleStrKey account muxedId := by
  intro h
  obtain ⟨key, hkey, -, -⟩ := sample_correct.account sampleAccount sampleAccount_valid
  obtain ⟨thrown, hthrown⟩ := (h sampleAccount (.inl []) sampleAccount_valid).rejected rfl
  have hencoded := @encodeMuxedDestination_eq sampleStrKey sampleAccount key sampleAccount_valid hkey (.inl []) 0 rfl (by decide)
  rw [hencoded] at hthrown
  cases hthrown

end Sample

end Savitools.Stellar.MuxedDestinations
