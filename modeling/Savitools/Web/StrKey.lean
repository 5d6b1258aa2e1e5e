import Mathlib.Data.List.Basic
import Savitools.Strings.Decimals

namespace Savitools.Web.StrKey

open Strings.CodeUnits Strings.Decimals

abbrev Byte := BitVec 8

inductive StrKeyType
  | ed25519PublicKey
  | ednardKeys
  | ed25519SecretSeed
  | privateKey
  | preAuthTx
  | sha256Hash
  | hashX
  | med25519PublicKey
  | muxedAccount
  | signedPayload
  | contract
deriving DecidableEq

def strKeyVersion : StrKeyType → Byte
  | .ed25519PublicKey | .ednardKeys => 48
  | .ed25519SecretSeed | .privateKey => 144
  | .preAuthTx => 152
  | .sha256Hash | .hashX => 184
  | .med25519PublicKey | .muxedAccount => 96
  | .signedPayload => 120
  | .contract => 16

def strKeyLabel : StrKeyType → Text
  | .ed25519PublicKey | .ednardKeys => text "Account public key (G…)"
  | .ed25519SecretSeed | .privateKey => text "Secret seed (S…)"
  | .preAuthTx => text "Pre-authorized transaction hash (T…)"
  | .sha256Hash | .hashX => text "SHA-256 hash (X…)"
  | .med25519PublicKey | .muxedAccount => text "Muxed account (M…)"
  | .signedPayload => text "Signed payload (P…)"
  | .contract => text "Contract ID (C…)"

def strKeyPayloadLength : StrKeyType → Nat
  | .ed25519PublicKey | .ednardKeys | .ed25519SecretSeed | .privateKey | .preAuthTx | .sha256Hash | .hashX
  | .contract => 32
  | .med25519PublicKey | .muxedAccount | .signedPayload => 40

def versionToType (version : Byte) : Option StrKeyType :=
  [(strKeyVersion .ed25519PublicKey, StrKeyType.ed25519PublicKey), (strKeyVersion .privateKey, .privateKey),
    (strKeyVersion .preAuthTx, .preAuthTx), (strKeyVersion .hashX, .hashX),
    (strKeyVersion .muxedAccount, .muxedAccount), (strKeyVersion .signedPayload, .signedPayload),
    (strKeyVersion .contract, .contract)].lookup version

def base32Alphabet : Text := text "ABCDEFGHIJKLMNOPQRSTUVWXYZ234567"

def base32Char (index : BitVec 32) : UInt16 := base32Alphabet.getD index.toNat 0

def base32Lookup (u : UInt16) : Option (BitVec 32) := (base32Alphabet.idxOf? u).map (BitVec.ofNat 32)

/-- The loop that takes the full groups of five bits; what it leaves in the register is not cleared. -/
def base32Emit (value : BitVec 32) : Nat → Text × Nat
  | bits + 5 =>
      let (output, left) := base32Emit value bits
      (base32Char ((value >>> bits) &&& 0x1f) :: output, left)
  | bits => ([], bits)

def base32EncodeFrom : List Byte → Nat → BitVec 32 → Text
  | [], bits, value => if 0 < bits then [base32Char ((value <<< (5 - bits)) &&& 0x1f)] else []
  | byte :: data, bits, value =>
      let value := (value <<< 8) ||| byte.setWidth 32
      let (output, left) := base32Emit value (bits + 8)
      output ++ base32EncodeFrom data left value

def base32Encode (data : List Byte) : Text := base32EncodeFrom data 0 0

/-- The code point at the start of a text, as a text. -/
def codePoint : Text → Text
  | [] => []
  | [u] => [u]
  | u :: v :: _ => if 0xD800 ≤ u ∧ u ≤ 0xDBFF ∧ 0xDC00 ≤ v ∧ v ≤ 0xDFFF then [u, v] else [u]

def base32DecodeFrom : Text → Nat → BitVec 32 → Except Text (List Byte)
  | [], bits, value =>
      if 0 < bits ∧ value &&& (((1 : BitVec 32) <<< bits) - 1) ≠ 0 then
        .error (text "Invalid base32 encoding: non-zero padding bits")
      else .ok []
  | u :: rest, bits, value =>
      match base32Lookup u with
      | none => .error (text "Invalid base32 character: \"" ++ codePoint (u :: rest) ++ text "\"")
      | some lookup =>
          let value := (value <<< 5) ||| lookup
          if 8 ≤ bits + 5 then
            (base32DecodeFrom rest (bits + 5 - 8) value).map
              (((value >>> (bits + 5 - 8)) &&& 0xff).setWidth 8 :: ·)
          else base32DecodeFrom rest (bits + 5) value

def base32Decode (input : Text) : Except Text (List Byte) := base32DecodeFrom input 0 0

def crc16Shift (crc : BitVec 32) : BitVec 32 :=
  if crc &&& 0x8000 ≠ 0 then ((crc <<< 1) ^^^ 0x1021) &&& 0xffff else (crc <<< 1) &&& 0xffff

def crc16Byte (crc : BitVec 32) (byte : Byte) : BitVec 32 :=
  (List.range 8).foldl (fun crc _ => crc16Shift crc) (crc ^^^ (byte.setWidth 32 <<< 8))

def crc16XModem (data : List Byte) : BitVec 32 := data.foldl crc16Byte 0 &&& 0xffff

def bytesToHex (bytes : List Byte) : Text :=
  bytes.flatMap (fun b => [hexDigit (b.toNat / 16), hexDigit (b.toNat % 16)])

def base64Char (n : Nat) : UInt16 :=
  (text "ABCDEFGHIJKLMNOPQRSTUVWXYZabcdefghijklmnopqrstuvwxyz0123456789+/").getD n 0

def bytesToBase64 : List Byte → Text
  | [] => []
  | [a] => [base64Char (a.toNat / 4), base64Char (a.toNat % 4 * 16), unit '=', unit '=']
  | [a, b] =>
      [base64Char (a.toNat / 4), base64Char (a.toNat % 4 * 16 + b.toNat / 16), base64Char (b.toNat % 16 * 4), unit '=']
  | a :: b :: c :: rest =>
      [base64Char (a.toNat / 4), base64Char (a.toNat % 4 * 16 + b.toNat / 16),
        base64Char (b.toNat % 16 * 4 + c.toNat / 64), base64Char (c.toNat % 64)] ++ bytesToBase64 rest

inductive StrKeyErrorKind
  | invalidCharacters
  | invalidLength
  | payloadLength
deriving DecidableEq

/-- The details are the expected and the actual length. -/
structure StrKeyError where
  kind : StrKeyErrorKind
  message : Text
  details : Option (Nat × Nat) := none
deriving DecidableEq

structure StrKeyDecoded where
  input : Text
  type : Option StrKeyType
  label : Text
  versionByte : Byte
  payload : List Byte
  payloadLength : Nat
  payloadHex : Text
  payloadBase64 : Text
  checksum : Text
  checksumValid : Bool
  payloadLengthValid : Bool
  valid : Bool

/-- The two checksum bytes as they are read. -/
def checksumValue : List Byte → BitVec 32
  | [a, b] => (a.setWidth 32 <<< 8) ||| b.setWidth 32
  | _ => 0

/-- The parts of the bytes of a StrKey, at least three of them. -/
def strKeyParts (input : Text) (versionByte : Byte) (raw : List Byte) : StrKeyDecoded :=
  let payload := (raw.take (raw.length - 2)).drop 1
  let checksumBytes := raw.drop (raw.length - 2)
  let checksumValid := crc16XModem (raw.take (raw.length - 2)) = checksumValue checksumBytes
  let type := versionToType versionByte
  let payloadLengthValid := type.all (fun type => payload.length = strKeyPayloadLength type)
  { input := input
    type := type
    label := (type.map strKeyLabel).getD (text "Unsupported version byte 0x" ++ bytesToHex [versionByte])
    versionByte := versionByte
    payload := payload
    payloadLength := payload.length
    payloadHex := bytesToHex payload
    payloadBase64 := bytesToBase64 payload
    checksum := bytesToHex checksumBytes
    checksumValid := checksumValid
    payloadLengthValid := payloadLengthValid
    valid := type.isSome && checksumValid && payloadLengthValid }

def decodeStrKey (input : Text) : Except StrKeyError StrKeyDecoded :=
  if trim input = [] then .error { kind := .invalidLength, message := text "Enter a StrKey value to decode" }
  else
    match base32Decode (trim input) with
    | .error message => .error { kind := .invalidCharacters, message := message }
    | .ok (versionByte :: a :: b :: rest) => .ok (strKeyParts (trim input) versionByte (versionByte :: a :: b :: rest))
    | .ok _ =>
        .error {
          kind := .invalidLength
          message := text "Decoded StrKey is too short to contain a version byte and checksum" }

def encodeStrKey (type : StrKeyType) (payload : List Byte) : Except StrKeyError Text :=
  if payload.length ≠ strKeyPayloadLength type then
    .error {
      kind := .payloadLength
      message := strKeyLabel type ++ text " requires a " ++ ofNat (strKeyPayloadLength type) ++
        text "-byte payload (got " ++ ofNat payload.length ++ text ")."
      details := some (strKeyPayloadLength type, payload.length) }
  else
    let body := strKeyVersion type :: payload
    let checksum := crc16XModem body
    .ok (base32Encode (body ++ [((checksum >>> 8) &&& 0xff).setWidth 8, (checksum &&& 0xff).setWidth 8]))

end Savitools.Web.StrKey
