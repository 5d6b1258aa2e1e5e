import Savitools.Web.StrKeyTexts

namespace Savitools.Web.SignedPayloads

open Strings.CodeUnits StrKey StrKeyTexts

/-- A 32-bit number, its first byte the highest. -/
def lengthBytes (n : Nat) : List Byte :=
  [BitVec.ofNat 8 (n / 2 ^ 24), BitVec.ofNat 8 (n / 2 ^ 16), BitVec.ofNat 8 (n / 2 ^ 8), BitVec.ofNat 8 n]

def readLength : List Byte → Nat
  | [a, b, c, d] => ((a.toNat * 2 ^ 8 + b.toNat) * 2 ^ 8 + c.toNat) * 2 ^ 8 + d.toNat
  | _ => 0

def zeroPadding (n : Nat) : List Byte := List.replicate ((4 - n % 4) % 4) 0

/-- The payload of a signed-payload key: the key, the length of the data, and the data with
zeros up to a multiple of four. -/
def layout (key data : List Byte) : List Byte := key ++ (lengthBytes data.length ++ (data ++ zeroPadding data.length))

def WellFormed (payload : List Byte) : Prop :=
  ∃ key data : List Byte, key.length = 32 ∧ 1 ≤ data.length ∧ data.length ≤ 64 ∧ payload = layout key data

/-- The length field of a payload. -/
def innerLength (payload : List Byte) : Nat := readLength ((payload.drop 32).take 4)

theorem readLength_lengthBytes {n : Nat} (hn : n < 2 ^ 32) : readLength (lengthBytes n) = n := by
  simp only [readLength, lengthBytes, BitVec.toNat_ofNat]
  omega

theorem lengthBytes_readLength (a b c d : Byte) : lengthBytes (readLength [a, b, c, d]) = [a, b, c, d] := by
  have ha := a.isLt
  have hb := b.isLt
  have hc := c.isLt
  have hd := d.isLt
  have hbyte (x : Byte) (n : Nat) (h : n % 2 ^ 8 = x.toNat) : BitVec.ofNat 8 n = x := by
    rw [← BitVec.toNat_inj, BitVec.toNat_ofNat, h]
  rw [readLength, lengthBytes, hbyte a _ (by omega), hbyte b _ (by omega), hbyte c _ (by omega), hbyte d _ (by omega)]

theorem length_layout (key data : List Byte) :
    (layout key data).length = key.length + (4 + (data.length + (4 - data.length % 4) % 4)) := by
  simp only [layout, lengthBytes, zeroPadding, List.length_append, List.length_cons, List.length_nil, List.length_replicate]

theorem innerLength_layout {key data : List Byte} (hkey : key.length = 32) (hdata : data.length < 2 ^ 32) :
    innerLength (layout key data) = data.length := by
  have htake : (lengthBytes data.length ++ (data ++ zeroPadding data.length)).take 4 = lengthBytes data.length := rfl
  rw [innerLength, layout, ← hkey, List.drop_left, htake, readLength_lengthBytes hdata]

/-- The fields of 40 bytes that are laid out as they must be. -/
def FieldsFit (payload : List Byte) : Prop :=
  1 ≤ innerLength payload ∧ innerLength payload ≤ 4 ∧ ∀ b ∈ payload.drop (36 + innerLength payload), b = 0

theorem wellFormed_iff {payload : List Byte} (hlength : payload.length = 40) : WellFormed payload ↔ FieldsFit payload := by
  constructor
  · rintro ⟨key, data, hkey, hlow, hhigh, rfl⟩
    rw [length_layout, hkey] at hlength
    rw [FieldsFit, innerLength_layout hkey (by omega)]
    have hsplit : layout key data = (key ++ lengthBytes data.length ++ data) ++ zeroPadding data.length := by
      simp only [layout, List.append_assoc]
    have hfront : 36 + data.length = (key ++ lengthBytes data.length ++ data).length := by
      rw [List.length_append, List.length_append, hkey]
      rfl
    refine ⟨hlow, by omega, fun b hb => ?_⟩
    rw [hsplit, hfront, List.drop_left] at hb
    exact List.eq_of_mem_replicate hb
  · rintro ⟨hlow, hhigh, hzero⟩
    have hfield : ((payload.drop 32).take 4).length = 4 := by
      rw [List.length_take, List.length_drop, hlength]
      rfl
    obtain ⟨a, b, c, d, hbytes⟩ := List.length_eq_four.mp hfield
    have hdata : ((payload.drop 36).take (innerLength payload)).length = innerLength payload := by
      rw [List.length_take, List.length_drop, hlength]
      omega
    have hlengthBytes : lengthBytes (innerLength payload) = (payload.drop 32).take 4 := by
      rw [innerLength, hbytes, lengthBytes_readLength]
    have hpadding : payload.drop (36 + innerLength payload) = zeroPadding (innerLength payload) := by
      refine List.eq_replicate_iff.mpr ⟨?_, hzero⟩
      rw [List.length_drop, hlength]
      omega
    refine ⟨payload.take 32, (payload.drop 36).take (innerLength payload), ?_, by omega, by omega, ?_⟩
    · rw [List.length_take, hlength]
      rfl
    · rw [layout, hdata, hlengthBytes, ← hpadding, ← List.drop_drop, List.take_append_drop]
      have hdrop : payload.drop 36 = (payload.drop 32).drop 4 := by
        rw [List.drop_drop]
      have hrest : (payload.drop 32).take 4 ++ payload.drop 36 = payload.drop 32 := by
        rw [hdrop, List.take_append_drop]
      rw [hrest, List.take_append_drop]

/-- The encoder takes the payload, and the decoder takes what it makes of it. -/
def Accepted (payload : List Byte) : Prop :=
  ∃ s decoded, encodeStrKey .signedPayload payload = .ok s ∧ decodeStrKey s = .ok decoded ∧ decoded.valid = true ∧
    decoded.type = some .signedPayload ∧ decoded.payload = payload

/-- A text is reported as a valid signed payload only when it is well formed. -/
def Sound (input : Text) : Prop :=
  ∀ decoded, decodeStrKey input = .ok decoded → decoded.type = some .signedPayload → decoded.valid = true →
    WellFormed decoded.payload

theorem accepted_iff (payload : List Byte) : Accepted payload ↔ payload.length = 40 := by
  constructor
  · rintro ⟨s, decoded, hencode, -⟩
    by_contra hne
    have hrefused : payload.length ≠ strKeyPayloadLength .signedPayload := hne
    rw [encodeStrKey, if_pos hrefused] at hencode
    cases hencode
  · intro hlength
    obtain ⟨s, canonical, hencode, htype, -, hdecode⟩ := decodeStrKey_encoded .signedPayload payload hlength
    obtain ⟨decoded, hok, hvalid, hsame, hpayload⟩ := hdecode [] [] (List.forall_mem_nil _) (List.forall_mem_nil _)
    rw [List.nil_append, List.append_nil] at hok
    cases htype
    exact ⟨s, decoded, hencode, hok, hvalid, hsame, hpayload⟩

/-- The bytes of a text are those of a signed payload of 40 bytes, with its checksum. -/
def Signed (input : Text) (payload : List Byte) : Prop :=
  payload.length = 40 ∧ base32Decode (trim input) =
    .ok (strKeyVersion .signedPayload :: payload ++ checksumBytes (crc16XModem (strKeyVersion .signedPayload :: payload)))

theorem sound_iff (input : Text) : Sound input ↔ ∀ payload, Signed input payload → FieldsFit payload := by
  constructor
  · rintro hsound payload ⟨hlength, hraw⟩
    have hne : trim input ≠ [] := by
      intro hnil
      rw [hnil] at hraw
      cases hraw
    have hversion : versionToType (strKeyVersion .signedPayload) = some .signedPayload := rfl
    have hwell := hsound _ (decodeStrKey_of_base32Decode hne hraw) (by rw [strKeyParts_eq, hversion])
      ((valid_strKeyParts hversion).mpr ⟨rfl, hlength⟩)
    rw [strKeyParts_eq] at hwell
    exact (wellFormed_iff hlength).mp hwell
  · intro hfit decoded hdecode htype hvalid
    obtain ⟨version, payload, a, b, hraw, rfl⟩ := decodeStrKey_eq_ok hdecode
    have hversion : versionToType version = some .signedPayload := by
      rw [strKeyParts_eq] at htype
      exact htype
    obtain ⟨hchecksum, hlength⟩ := (valid_strKeyParts hversion).mp hvalid
    rw [← strKeyVersion_of_versionToType hversion, ← hchecksum,
      ← strKeyVersion_of_versionToType hversion] at hraw
    rw [strKeyParts_eq]
    exact (wellFormed_iff hlength).mpr (hfit payload ⟨hlength, hraw⟩)

/-- Inner payloads of more than four bytes are refused, and of the keys with 40 bytes those are
wrongly valid whose fields do not fit. -/
theorem signedPayloads_iff (key data : List Byte) (input : Text) :
    (key.length = 32 → 1 ≤ data.length → data.length ≤ 64 → (Accepted (layout key data) ↔ data.length ≤ 4)) ∧
      (Sound input ↔ ∀ payload, Signed input payload → FieldsFit payload) := by
  refine ⟨fun hkey hlow hhigh => ?_, sound_iff input⟩
  rw [accepted_iff, length_layout, hkey]
  omega

/-- Five bytes are too many, and 40 zero bytes are valid with a length field of zero. -/
theorem not_signedPayloads : (¬∀ key data : List Byte, key.length = 32 → 1 ≤ data.length → data.length ≤ 64 →
    Accepted (layout key data)) ∧ ¬∀ input, Sound input := by
  constructor
  · intro haccepted
    have hlength := (accepted_iff _).mp (haccepted (List.replicate 32 0) (List.replicate 5 1) rfl (by decide) (by decide))
    cases hlength
  · intro hsound
    obtain ⟨s, decoded, -, hdecode, hvalid, htype, hpayload⟩ := (accepted_iff (List.replicate 40 0)).mpr rfl
    have hwell := hsound s decoded hdecode htype hvalid
    rw [hpayload, wellFormed_iff rfl] at hwell
    exact absurd hwell.1 (by decide)

end Savitools.Web.SignedPayloads
