import Mathlib.Data.Set.Function
import Savitools.Json.Doubles
import Savitools.Strings.HexBytes
import Savitools.Strings.Utf8

namespace Savitools.Webhook.Signature

open Strings.CodeUnits Strings.HexBytes Strings.Utf8 Json.Conversions Json.Doubles

abbrev Bytes := List (BitVec 8)

/-- What HMAC-SHA256 gives is 32 bytes long. -/
structure Digest where
  bytes : Bytes
  length : bytes.length = 32
deriving DecidableEq

def defaultMaxAgeSeconds : Double := ofInt 300

def defaultMaxSkewSeconds : Double := ofInt 60

inductive Body
  | text (t : Text)
  | bytes (b : Bytes)

def Body.wire : Body → Bytes
  | .text t => textEncode t
  | .bytes b => b

structure SignedHeaders where
  signature : Text
  timestamp : Text
deriving DecidableEq

/-- The options of `verifySignature`, less the header with the signature. -/
structure VerifySignatureOptions where
  secret : Text
  body : Body
  timestamp : Option Text
  maxAgeSeconds : Option Double
  maxSkewSeconds : Option Double
  now : Option Double

inductive SignatureVerificationReason
  | missingSignature
  | missingTimestamp
  | malformedTimestamp
  | expired
  | future
  | invalidSignature
deriving DecidableEq

structure SignatureVerificationResult where
  valid : Bool
  reason : Option SignatureVerificationReason
deriving DecidableEq

def invalid (reason : SignatureVerificationReason) : SignatureVerificationResult := ⟨false, some reason⟩

/-- What the HMAC covers: the timestamp, a dot and the body. -/
def payload (timestamp : Text) (body : Bytes) : Bytes := textEncode (timestamp ++ [unit '.']) ++ body

def signatureMark : Text := text "sha256="

def signatureText (digest : Digest) : Text := signatureMark ++ bytesHex digest.bytes

-- HMAC-SHA256, of a key and a message, and the clock in whole seconds.
variable (hmac : Bytes → Bytes → Digest) (nowSeconds : Double)

def signBody (secret : Text) (body : Body) (timestamp : Option Double) : SignedHeaders :=
  let timestamp := timestamp.getD nowSeconds
  ⟨signatureText (hmac (textEncode secret) (payload (doubleText timestamp) body.wire)), doubleText timestamp⟩

/-- `/^\d+$/` -/
def isTimestamp (timestamp : Text) : Bool := timestamp != [] && timestamp.all isDigit

/-- The group of `/^sha256=([0-9a-f]{64})$/`. -/
def signatureHex (signature : Text) : Option Text :=
  let hex := signature.drop signatureMark.length
  if signatureMark <+: signature ∧ hex.length = 64 ∧ hex.all isLowerHex then some hex else none

def VerifySignatureOptions.clock (o : VerifySignatureOptions) : Double := o.now.getD nowSeconds

def VerifySignatureOptions.maxAge (o : VerifySignatureOptions) : Double := o.maxAgeSeconds.getD defaultMaxAgeSeconds

def VerifySignatureOptions.maxSkew (o : VerifySignatureOptions) : Double := o.maxSkewSeconds.getD defaultMaxSkewSeconds

def verifySignature (o : VerifySignatureOptions) (signature : Option Text) : SignatureVerificationResult :=
  let signature := signature.getD []
  let timestamp := o.timestamp.getD []
  let sentAt := toNumber timestamp
  if signature = [] then invalid .missingSignature
  else if timestamp = [] then invalid .missingTimestamp
  else if isTimestamp timestamp = false then invalid .malformedTimestamp
  else if gt (sub (o.clock nowSeconds) sentAt) o.maxAge then invalid .expired
  else if gt (sub sentAt (o.clock nowSeconds)) o.maxSkew then invalid .future
  else
    match signatureHex signature with
    | none => invalid .invalidSignature
    | some hex =>
        let expected := signBody hmac nowSeconds o.secret o.body (some sentAt)
        let expectedHex := expected.signature.drop signatureMark.length
        if hexBytes hex = hexBytes expectedHex then ⟨true, none⟩ else invalid .invalidSignature

/-- The signer of the web application; without WebCrypto, and for an empty key, there is no
signature. -/
def signPayload (subtle : Bool) (secret timestamp body : Text) : Option Text :=
  if subtle ∧ secret ≠ [] then
    some (signatureText (hmac (textEncode secret) (textEncode (timestamp ++ unit '.' :: body))))
  else none

end Savitools.Webhook.Signature

namespace Savitools.Webhook.SignedDeliveries

open Strings.CodeUnits Strings.Decimals Strings.HexBytes Strings.Utf8 Json.Numbers Json.Conversions Json.Doubles Signature

variable {hmac : Bytes → Bytes → Digest} {nowSeconds : Double}

theorem isAscii_of_isDigit {u : UInt16} (hu : isDigit u = true) : isAscii u = true := by
  obtain ⟨d, hd, rfl⟩ := exists_digit hu
  have hall : ∀ d < 10, isAscii (unit '0' + d.toUInt16) = true := by decide
  exact hall d hd

theorem all_isDigit {t : Text} (ht : isTimestamp t = true) : ∀ u ∈ t, isDigit u = true := by
  rw [isTimestamp, Bool.and_eq_true] at ht
  exact List.all_eq_true.mp ht.2

theorem all_isAscii {t : Text} (ht : isTimestamp t = true) : t.all isAscii = true :=
  List.all_eq_true.mpr fun u hu => isAscii_of_isDigit (all_isDigit ht u hu)

theorem ne_nil {t : Text} (ht : isTimestamp t = true) : t ≠ [] := by
  rintro rfl
  cases ht

theorem payload_eq {t : Text} (ht : t.all isAscii = true) (body : Bytes) :
    payload t body = t.map asciiByte ++ asciiByte (unit '.') :: body := by
  rw [payload, textEncode_ascii ht, List.append_assoc]
  rfl

theorem dot_not_mem {t : Text} (ht : isTimestamp t = true) : asciiByte (unit '.') ∉ t.map asciiByte := by
  intro h
  obtain ⟨u, hu, hdot⟩ := List.mem_map.mp h
  have hdigit := all_isDigit ht u hu
  rw [asciiByte_inj (isAscii_of_isDigit hdigit) (by decide) hdot] at hdigit
  exact absurd hdigit (by decide)

/-- What is covered determines the timestamp and the body. -/
theorem payload_inj {t s : Text} (ht : isTimestamp t = true) (hs : isTimestamp s = true) {body other : Bytes}
    (h : payload t body = payload s other) : t = s ∧ body = other := by
  rw [payload_eq (all_isAscii ht), payload_eq (all_isAscii hs)] at h
  obtain ⟨htimestamp, hbody⟩ := append_cons_inj (dot_not_mem ht) (dot_not_mem hs) h
  exact ⟨map_asciiByte_inj (all_isAscii ht) (all_isAscii hs) htimestamp, hbody⟩

theorem signatureText_inj {digest other : Digest} (h : signatureText digest = signatureText other) : digest = other := by
  cases digest
  cases other
  congr
  exact bytesHex_inj (List.append_cancel_left h)

theorem drop_signatureText (digest : Digest) : (signatureText digest).drop signatureMark.length = bytesHex digest.bytes :=
  List.drop_left

/-- The texts whose digits are the bytes of a digest. -/
theorem signatureHex_iff {signature : Text} {digest : Digest} :
    (∃ hex, signatureHex signature = some hex ∧ hexBytes hex = digest.bytes) ↔ signature = signatureText digest := by
  constructor
  · rintro ⟨hex, hhex, hbytes⟩
    rw [signatureHex] at hhex
    obtain ⟨⟨hmark, hlength, hlower⟩, hdrop⟩ := Option.ite_none_right_eq_some.mp hhex
    obtain ⟨rest, rfl⟩ := hmark
    rw [List.drop_left] at hdrop hlength hlower
    obtain rfl := Option.some.inj hdrop
    rw [signatureText, ← hbytes, @bytesHex_hexBytes 32 rest hlength hlower]
  · rintro rfl
    refine ⟨bytesHex digest.bytes, ?_, hexBytes_bytesHex _⟩
    have hlength : (bytesHex digest.bytes).length = 64 := by rw [length_bytesHex, digest.length]
    simp only [signatureHex, drop_signatureText]
    exact if_pos ⟨List.prefix_append _ _, hlength, all_bytesHex _⟩

/-- The timestamp is within the tolerance of the clock. -/
def Within (nowSeconds : Double) (o : VerifySignatureOptions) (timestamp : Text) : Prop :=
  gt (sub (o.clock nowSeconds) (toNumber timestamp)) o.maxAge = false ∧
    gt (sub (toNumber timestamp) (o.clock nowSeconds)) o.maxSkew = false

def Accepts (hmac : Bytes → Bytes → Digest) (nowSeconds : Double) (o : VerifySignatureOptions) (signature : Option Text) :
    Prop :=
  (verifySignature hmac nowSeconds o signature).valid = true

def signatureOf (hmac : Bytes → Bytes → Digest) (secret timestamp : Text) (body : Body) : Text :=
  signatureText (hmac (textEncode secret) (payload timestamp body.wire))

theorem signatureOf_ne_nil {secret timestamp : Text} {body : Body} : signatureOf hmac secret timestamp body ≠ [] :=
  List.append_ne_nil_of_left_ne_nil (by decide) _

theorem signBody_eq (secret : Text) (body : Body) (timestamp : Double) :
    signBody hmac nowSeconds secret body (some timestamp) =
      ⟨signatureOf hmac secret (doubleText timestamp) body, doubleText timestamp⟩ := rfl

theorem hexBytes_expected (secret : Text) (body : Body) (timestamp : Double) :
    hexBytes ((signBody hmac nowSeconds secret body (some timestamp)).signature.drop signatureMark.length) =
      (hmac (textEncode secret) (payload (doubleText timestamp) body.wire)).bytes := by
  rw [signBody_eq]
  exact (congrArg hexBytes (drop_signatureText _)).trans (hexBytes_bytesHex _)

/-- What is accepted is a signature over the timestamp as it is written again. -/
theorem accepts_iff {o : VerifySignatureOptions} {signature : Option Text} :
    Accepts hmac nowSeconds o signature ↔
      ∃ t, o.timestamp = some t ∧ isTimestamp t = true ∧ Within nowSeconds o t ∧
        signature = some (signatureOf hmac o.secret (doubleText (toNumber t)) o.body) := by
  simp only [Accepts, verifySignature, hexBytes_expected]
  constructor
  · intro h
    split at h
    next => cases h
    next hsignature =>
      split at h
      next => cases h
      next htimestamp =>
        split at h
        next => cases h
        next hdigits =>
          split at h
          next => cases h
          next hage =>
            split at h
            next => cases h
            next hskew =>
              split at h
              next => cases h
              next hex hhex =>
                split at h
                next hbytes =>
                  obtain ⟨t, ht⟩ : ∃ t, o.timestamp = some t := by
                    cases ht : o.timestamp with
                    | none =>
                        rw [ht] at htimestamp
                        exact absurd rfl htimestamp
                    | some t => exact ⟨t, rfl⟩
                  obtain ⟨s, rfl⟩ : ∃ s, signature = some s := by
                    cases signature with
                    | none => exact absurd rfl hsignature
                    | some s => exact ⟨s, rfl⟩
                  simp only [ht, Option.getD_some] at hdigits hage hskew hbytes hhex
                  refine ⟨t, ht, Bool.not_eq_false _ ▸ hdigits, ⟨Bool.not_eq_true _ ▸ hage, Bool.not_eq_true _ ▸ hskew⟩, ?_⟩
                  rw [signatureHex_iff.mp ⟨hex, hhex, hbytes⟩, signatureOf]
                next => cases h
  · rintro ⟨t, ht, hdigits, ⟨hage, hskew⟩, rfl⟩
    obtain ⟨hex, hhex, hbytes⟩ := signatureHex_iff.mpr (Eq.refl (signatureOf hmac o.secret (doubleText (toNumber t)) o.body))
    simp only [ht, Option.getD_some, if_neg signatureOf_ne_nil, if_neg (ne_nil hdigits), hdigits, hage, hskew, hhex,
      Bool.true_eq_false, Bool.false_eq_true, if_false, if_pos hbytes]

theorem doubleText_ascii (x : Double) : (doubleText x).all isAscii = true := by
  rcases doubleText_cases x with h | h
  · refine List.all_eq_true.mpr fun u hu => ?_
    have hunit := h u hu
    simp only [isNumberUnit, Bool.or_eq_true, beq_iff_eq, or_assoc] at hunit
    rcases hunit with hdigit | rfl | rfl | rfl | rfl | rfl
    · exact isAscii_of_isDigit hdigit
    all_goals decide
  · simp only [List.mem_cons, List.not_mem_nil, or_false] at h
    rcases h with h | h | h <;> rw [h] <;> decide

theorem timestamp_of_payload {t s : Text} (ht : t.all isAscii = true) (hs : s.all isAscii = true) {body : Bytes}
    (h : payload t body = payload s body) : t = s := by
  rw [payload_eq ht, payload_eq hs] at h
  refine map_asciiByte_inj ht hs ?_
  rwa [List.append_cancel_right_eq] at h

/-- A signature binds the timestamp and the body of a delivery, where `payloads` are those on
which the HMAC is taken as injective. -/
structure Binds (hmac : Bytes → Bytes → Digest) (nowSeconds : Double) (payloads : Set Bytes) (o : VerifySignatureOptions) :
    Prop where
  exact : ∀ signature, Accepts hmac nowSeconds o signature ↔
    ∃ t, o.timestamp = some t ∧ isTimestamp t = true ∧ Within nowSeconds o t ∧
      signature = some (signatureOf hmac o.secret t o.body)
  signed : ∀ x, isTimestamp (doubleText x) = true → Within nowSeconds o (doubleText x) →
    o.timestamp = some (signBody hmac nowSeconds o.secret o.body (some x)).timestamp →
    Accepts hmac nowSeconds o (some (signBody hmac nowSeconds o.secret o.body (some x)).signature)
  only : ∀ x body, isTimestamp (doubleText x) = true → payload (doubleText x) body.wire ∈ payloads →
    Accepts hmac nowSeconds o (some (signBody hmac nowSeconds o.secret body (some x)).signature) →
    o.timestamp = some (doubleText x) ∧ body.wire = o.body.wire

/-- The deliveries whose signatures bind are those whose timestamp is written as its number is,
or is out of the tolerance or no timestamp at all. -/
theorem binds_iff {payloads : Set Bytes} {o : VerifySignatureOptions}
    (hinj : Set.InjOn (hmac (textEncode o.secret)) payloads)
    (hmem : ∀ t, o.timestamp = some t →
      payload t o.body.wire ∈ payloads ∧ payload (doubleText (toNumber t)) o.body.wire ∈ payloads) :
    Binds hmac nowSeconds payloads o ↔
      ∀ t, o.timestamp = some t → isTimestamp t = true → Within nowSeconds o t → doubleText (toNumber t) = t := by
  constructor
  · intro h t ht hdigits hwithin
    obtain ⟨s, hs, -, -, hsignature⟩ := accepts_iff.mp ((h.exact _).mpr ⟨t, ht, hdigits, hwithin, rfl⟩)
    obtain rfl : t = s := Option.some.inj (ht.symm.trans hs)
    have hpayload := hinj (hmem t ht).1 (hmem t ht).2 (signatureText_inj (Option.some.inj hsignature))
    exact (timestamp_of_payload (all_isAscii hdigits) (doubleText_ascii _) hpayload).symm
  · intro h
    have hexact (signature : Option Text) : Accepts hmac nowSeconds o signature ↔
        ∃ t, o.timestamp = some t ∧ isTimestamp t = true ∧ Within nowSeconds o t ∧
          signature = some (signatureOf hmac o.secret t o.body) := by
      rw [accepts_iff]
      refine exists_congr fun t => and_congr_right fun ht => and_congr_right fun hdigits =>
        and_congr_right fun hwithin => ?_
      rw [h t ht hdigits hwithin]
    refine ⟨hexact, fun x hdigits hwithin ht => (hexact _).mpr ⟨_, ht, hdigits, hwithin, rfl⟩, ?_⟩
    intro x body hdigits hpayload haccepts
    obtain ⟨t, ht, htdigits, -, hsignature⟩ := (hexact _).mp haccepts
    have heq := hinj hpayload (hmem t ht).1 (signatureText_inj (Option.some.inj hsignature))
    obtain ⟨rfl, hbody⟩ := payload_inj hdigits htdigits heq
    exact ⟨ht, hbody⟩

/-- A clock and tolerances in whole seconds are compared exactly. -/
theorem within_ofNat {o : VerifySignatureOptions} {now age skew : Int} {n : Nat} (hclock : o.clock nowSeconds = ofInt now)
    (hage : o.maxAge = ofInt age) (hskew : o.maxSkew = ofInt skew) (hn : n < 2 ^ 53) (hnow : (now - n).natAbs < 2 ^ 53) :
    Within nowSeconds o (ofNat n) ↔ now - n ≤ age ∧ n - now ≤ skew := by
  have hsent : toNumber (ofNat n) = ofInt n := toNumber_ofNat hn
  have hback : (n - now).natAbs < 2 ^ 53 := by omega
  rw [Within, hclock, hage, hskew, hsent, sub_ofInt hnow, sub_ofInt hback, gt_ofInt, gt_ofInt, decide_eq_false_iff_not,
    decide_eq_false_iff_not, Int.not_lt, Int.not_lt]

theorem binds_ofNat {payloads : Set Bytes} {o : VerifySignatureOptions} {n : Nat} (hn : n < 2 ^ 53)
    (ht : o.timestamp = some (ofNat n)) (hinj : Set.InjOn (hmac (textEncode o.secret)) payloads)
    (hmem : payload (ofNat n) o.body.wire ∈ payloads) : Binds hmac nowSeconds payloads o := by
  have hcanonical : doubleText (toNumber (ofNat n)) = ofNat n := by
    rw [toNumber_ofNat hn]
    exact doubleText_ofNat hn
  refine (binds_iff hinj fun t h => ?_).mpr fun t h _ _ => ?_
  · obtain rfl : ofNat n = t := Option.some.inj (ht.symm.trans h)
    rw [hcanonical]
    exact ⟨hmem, hmem⟩
  · obtain rfl : ofNat n = t := Option.some.inj (ht.symm.trans h)
    exact hcanonical

/-- The web application signs a body like the service. -/
theorem signPayload_eq {secret : Text} (hsecret : secret ≠ []) (x : Double) (body : Text) :
    signPayload hmac true secret (doubleText x) body =
      some (signBody hmac nowSeconds secret (.text body) (some x)).signature := by
  rw [signPayload, if_pos ⟨rfl, hsecret⟩, signBody_eq, signatureOf, payload, Body.wire,
    textEncode_ascii (doubleText_ascii x), textEncode_ascii (doubleText_ascii x), List.append_assoc]
  congr 4
  exact @textEncode_ascii [unit '.'] rfl body

def sampleSecret : Text := text "whsec_test"

def sampleDigest (hex : String) (h : (hexBytes (text hex)).length = 32) : Digest := ⟨hexBytes (text hex), h⟩

/-- The HMAC of two messages under the sample's secret. -/
def sampleHmac (_ message : Bytes) : Digest :=
  if message = payload (text "1700000000") (textEncode (text "{}")) then
    sampleDigest "35495024f4ef3f94e5a93e22221544c4b75e9a42300cd965ab81cb85cd994e91" (by decide)
  else sampleDigest "b1e42cf6715acf0beeb1ccbcea6939acffc29504bf5b68fcc76efd80ddcbf436" (by decide)

def sampleOptions (timestamp : Text) : VerifySignatureOptions where
  secret := sampleSecret
  body := .text (text "{}")
  timestamp := some timestamp
  maxAgeSeconds := none
  maxSkewSeconds := none
  now := some (ofInt 1700000010)

def samplePayloads : Set Bytes :=
  {message | message ∈ [payload (text "1700000000") (textEncode (text "{}")),
    payload (text "01700000000") (textEncode (text "{}"))]}

theorem sampleHmac_injOn : Set.InjOn (sampleHmac (textEncode sampleSecret)) samplePayloads := by
  have hall : ∀ message ∈ [payload (text "1700000000") (textEncode (text "{}")),
      payload (text "01700000000") (textEncode (text "{}"))],
      ∀ other ∈ [payload (text "1700000000") (textEncode (text "{}")),
        payload (text "01700000000") (textEncode (text "{}"))],
      sampleHmac (textEncode sampleSecret) message = sampleHmac (textEncode sampleSecret) other → message = other := by
    decide
  exact fun message hmessage other hother h => hall message hmessage other hother h

theorem sample_binds : Binds sampleHmac none samplePayloads (sampleOptions (text "1700000000")) := by
  have hcanonical : doubleText (toNumber (text "1700000000")) = text "1700000000" := by decide +kernel
  refine (binds_iff sampleHmac_injOn fun t ht => ?_).mpr fun t ht _ _ => ?_
  · obtain rfl : text "1700000000" = t := Option.some.inj ht
    rw [hcanonical]
    exact ⟨List.mem_cons_self, List.mem_cons_self⟩
  · obtain rfl : text "1700000000" = t := Option.some.inj ht
    exact hcanonical

/-- A zero in front of the timestamp is not covered by the signature. -/
theorem not_binds :
    Set.InjOn (sampleHmac (textEncode sampleSecret)) samplePayloads ∧
      ¬Binds sampleHmac none samplePayloads (sampleOptions (text "01700000000")) := by
  refine ⟨sampleHmac_injOn, fun h => ?_⟩
  have haccepts : Accepts sampleHmac none (sampleOptions (text "01700000000"))
      (some (signatureOf sampleHmac sampleSecret (text "1700000000") (.text (text "{}")))) := by
    unfold Accepts
    decide +kernel
  obtain ⟨t, ht, -, -, hsignature⟩ := (h.exact _).mp haccepts
  obtain rfl : text "01700000000" = t := Option.some.inj ht
  revert hsignature
  decide

end Savitools.Webhook.SignedDeliveries
