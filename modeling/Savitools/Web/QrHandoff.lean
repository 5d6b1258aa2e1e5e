import Savitools.Json.Writing
import Savitools.Parts.Slots
import Savitools.Strings.Utf8

namespace Savitools.Web.QrHandoff

open Strings.CodeUnits Strings.Decimals Strings.Utf8 Json.Numbers Json.Values Json.Reading Json.Writing Parts.Slots

abbrev Byte := BitVec 8

def qrHandoffVersion : Nat := 1

def qrHandoffFrameChars : Nat := 512

def qrHandoffMaxPayloadChars : Nat := 100000

def qrHandoffMaxFrames : Nat := 256

inductive HandoffNetwork
  | testnet
  | mainnet
deriving DecidableEq

def HandoffNetwork.name : HandoffNetwork → Text
  | .testnet => text "testnet"
  | .mainnet => text "mainnet"

inductive QrHandoffErrorCode
  | emptyPayload
  | payloadTooLarge
  | tooManyFrames
  | notAFrame
  | unsupportedVersion
  | checksumMismatch
  | networkMismatch
  | sessionMismatch
  | indexOutOfRange
  | incomplete
  | invalidTransaction
deriving DecidableEq

structure QrHandoffError where
  code : QrHandoffErrorCode
  message : Text
deriving DecidableEq

structure QrHandoffFrame where
  v : Int
  id : Text
  net : HandoffNetwork
  i : Int
  n : Int
  sum : Text
  c : Text
  d : Text
deriving DecidableEq

def crcShift (value : BitVec 32) : BitVec 32 :=
  if value &&& 1 = 1 then 0xedb88320 ^^^ (value >>> 1) else value >>> 1

def crcTable (index : Nat) : BitVec 32 := (List.range 8).foldl (fun value _ => crcShift value) (BitVec.ofNat 32 index)

def crcByte (crc : BitVec 32) (byte : Byte) : BitVec 32 :=
  crcTable ((crc ^^^ byte.setWidth 32) &&& 0xff).toNat ^^^ (crc >>> 8)

def crc32 (input : Text) : BitVec 32 := (textEncode input).foldl crcByte 0xffffffff ^^^ 0xffffffff

/-- The eight hexadecimal digits of the checksum. -/
def crc32Hex (input : Text) : Text :=
  (List.range 8).map (fun k => hexDigit ((crc32 input).toNat / 16 ^ (7 - k) % 16))

def sessionId (payload : Text) (network : HandoffNetwork) : Text :=
  crc32Hex payload ++ text "-" ++ ofNat payload.length ++ text "-" ++ network.name

def handoffFrame (xdr : Text) (network : HandoffNetwork) (total : Nat) (index : Nat) (chunk : Text) :
    QrHandoffFrame :=
  { v := qrHandoffVersion
    id := sessionId xdr network
    net := network
    i := index
    n := total
    sum := crc32Hex xdr
    c := crc32Hex chunk
    d := chunk }

def encodeHandoffFrames (xdr : Text) (network : HandoffNetwork) : Except QrHandoffError (List QrHandoffFrame) :=
  if xdr.length = 0 then .error ⟨.emptyPayload, text "Nothing to export: the XDR is empty."⟩
  else if qrHandoffMaxPayloadChars < xdr.length then
    .error ⟨.payloadTooLarge, text "XDR is " ++ ofNat xdr.length ++ text " characters; the limit is " ++
      ofNat qrHandoffMaxPayloadChars ++ text "."⟩
  else
    let total := (xdr.length + qrHandoffFrameChars - 1) / qrHandoffFrameChars
    if qrHandoffMaxFrames < total then
      .error ⟨.tooManyFrames, text "The payload needs " ++ ofNat total ++ text " frames; the limit is " ++
        ofNat qrHandoffMaxFrames ++ text "."⟩
    else .ok ((pieces qrHandoffFrameChars xdr).mapIdx (handoffFrame xdr network total))

def frameFields (frame : QrHandoffFrame) : List (Text × Value Number) :=
  [(text "v", .num (.ofInt frame.v)), (text "id", .str frame.id), (text "net", .str frame.net.name),
    (text "i", .num (.ofInt frame.i)), (text "n", .num (.ofInt frame.n)), (text "sum", .str frame.sum),
    (text "c", .str frame.c), (text "d", .str frame.d)]

/-- What a QR code shows of a frame. -/
def serialise (frame : QrHandoffFrame) : Text := stringify (.obj (frameFields frame))

/-- The fields of a parsed frame, of the right types but not yet checked. -/
structure ParsedFrame where
  v : Number
  id : Text
  net : Text
  i : Number
  n : Number
  sum : Text
  c : Text
  d : Text

def asNumber : Value Number → Option Number
  | .num n => some n
  | _ => none

def asText : Value Number → Option Text
  | .str t => some t
  | _ => none

def parsedFrame : Value Number → Option ParsedFrame
  | .obj fields => do
      let v ← (fields.lookup (text "v")).bind asNumber
      let id ← (fields.lookup (text "id")).bind asText
      let net ← (fields.lookup (text "net")).bind asText
      let i ← (fields.lookup (text "i")).bind asNumber
      let n ← (fields.lookup (text "n")).bind asNumber
      let sum ← (fields.lookup (text "sum")).bind asText
      let c ← (fields.lookup (text "c")).bind asText
      let d ← (fields.lookup (text "d")).bind asText
      some { v := v, id := id, net := net, i := i, n := n, sum := sum, c := c, d := d }
  | _ => none

def networkNamed (t : Text) : Option HandoffNetwork :=
  if t = text "testnet" then some .testnet else if t = text "mainnet" then some .mainnet else none

/-- `Number.isInteger`, with the integer. -/
def integer : Number → Option Int
  | .finite q => if q.den = 1 then some q.num else none
  | .infinite _ => none

def unsupportedVersion (v : Number) : QrHandoffError :=
  ⟨.unsupportedVersion, text "Frame version " ++ numberText v ++ text " is not supported (expected " ++
    ofNat qrHandoffVersion ++ text ")."⟩

/-- The checks of the values, after those of the types. -/
def checkFrame (parsed : ParsedFrame) : Except QrHandoffError QrHandoffFrame :=
  if parsed.v ≠ .ofInt qrHandoffVersion then .error (unsupportedVersion parsed.v)
  else
    match networkNamed parsed.net with
    | none => .error ⟨.notAFrame, text "Frame declares an unknown network."⟩
    | some net =>
        if crc32Hex parsed.d ≠ parsed.c then .error ⟨.checksumMismatch, text "Frame checksum failed."⟩
        else
          match integer parsed.i, integer parsed.n with
          | some i, some n =>
              if n < 1 then .error ⟨.notAFrame, text "Frame ordering metadata is invalid."⟩
              else
                .ok { v := qrHandoffVersion, id := parsed.id, net := net, i := i, n := n, sum := parsed.sum,
                      c := parsed.c, d := parsed.d }
          | _, _ => .error ⟨.notAFrame, text "Frame ordering metadata is invalid."⟩

def parseHandoffFrame (raw : Text) : Except QrHandoffError QrHandoffFrame :=
  match (parse (trim raw)).bind parsedFrame with
  | none => .error ⟨.notAFrame, text "Scanned text is not a handoff frame."⟩
  | some parsed => checkFrame parsed

end Savitools.Web.QrHandoff

namespace Savitools.Web.QrCollector

open Strings.CodeUnits Json.Numbers Parts.Slots QrHandoff

structure Session where
  id : Text
  n : Int
  sum : Text
deriving DecidableEq

/-- An array of chunks. A whole number that is no index of an array names a property of it. -/
structure Chunks where
  slots : List (Option Text)
  properties : List (Int × Text)
deriving DecidableEq

def arrayLimit : Int := 4294967296

/-- `new Array(n).fill(undefined)`, for a positive whole number. -/
def newChunks (n : Int) : Except Text Chunks :=
  if n < arrayLimit then .ok ⟨List.replicate n.toNat none, []⟩ else .error (text "Invalid array length")

def isIndex (i : Int) : Bool := 0 ≤ i && i < arrayLimit - 1

def Chunks.get (chunks : Chunks) (i : Int) : Option Text :=
  if isIndex i then chunks.slots[i.toNat]?.join else chunks.properties.lookup i

/-- An assignment past the end makes the array longer. -/
def Chunks.set (chunks : Chunks) (i : Int) (d : Text) : Chunks :=
  if isIndex i then
    { chunks with
      slots := (chunks.slots ++ List.replicate (i.toNat + 1 - chunks.slots.length) none).set i.toNat (some d) }
  else { chunks with properties := (i, d) :: chunks.properties }

def Chunks.received (chunks : Chunks) : Nat := filled chunks.slots

/-- `chunks.join('')` -/
def Chunks.assembled (chunks : Chunks) : Text := (chunks.slots.map (·.getD [])).flatten

structure Collector where
  chunks : Chunks
  expected : Option Session
deriving DecidableEq

structure HandoffProgress where
  received : Nat
  total : Int
deriving DecidableEq

inductive HandoffAcceptResult
  | accepted (progress : HandoffProgress)
  | duplicate (progress : HandoffProgress)
  | mismatched (reason : QrHandoffErrorCode) (message : Text) (progress : HandoffProgress)
  | invalid (code : QrHandoffErrorCode) (message : Text) (progress : HandoffProgress)
  | complete (xdr : Text) (progress : HandoffProgress)
deriving DecidableEq

def HandoffAcceptResult.progress : HandoffAcceptResult → HandoffProgress
  | .accepted progress | .duplicate progress | .mismatched _ _ progress | .invalid _ _ progress
  | .complete _ progress => progress

def HandoffAcceptResult.isComplete : HandoffAcceptResult → Bool
  | .complete _ _ => true
  | _ => false

def createHandoffCollector : Collector := ⟨⟨[], []⟩, none⟩

def Collector.progress (s : Collector) : HandoffProgress :=
  ⟨s.chunks.received, (s.expected.map Session.n).getD 0⟩

def Collector.fail (s : Collector) (error : QrHandoffError) : HandoffAcceptResult :=
  .invalid error.code error.message s.progress

/-- The end of `accept`, with the chunk of a new frame in its place. -/
def assemble (expected : Session) (chunks : Chunks) : Except Text HandoffAcceptResult × Collector :=
  let s : Collector := ⟨chunks, some expected⟩
  if (chunks.received : Int) < expected.n then (.ok (.accepted s.progress), s)
  else if crc32Hex chunks.assembled ≠ expected.sum then
    match newChunks expected.n with
    | .error e => (.error e, s)
    | .ok cleared =>
        let s : Collector := ⟨cleared, some expected⟩
        (.ok (s.fail ⟨.checksumMismatch, text "Reassembled payload failed its checksum."⟩), s)
  else (.ok (.complete chunks.assembled ⟨chunks.received, chunks.received⟩), createHandoffCollector)

/-- A frame of the expected session, or the first. -/
def store (s : Collector) (frame : QrHandoffFrame) : Except Text HandoffAcceptResult × Collector :=
  let expected := s.expected.getD ⟨frame.id, frame.n, frame.sum⟩
  match if s.expected.isSome then .ok s.chunks else newChunks frame.n with
  | .error e => (.error e, { s with expected := some expected })
  | .ok chunks =>
      if (chunks.get frame.i).isSome then
        let s : Collector := ⟨chunks, some expected⟩
        (.ok (.duplicate s.progress), s)
      else assemble expected (chunks.set frame.i frame.d)

def indexOutOfRange (i : Int) : QrHandoffError :=
  ⟨.indexOutOfRange, text "Frame index " ++ numberText (.ofInt i) ++ text " is out of range."⟩

def acceptFrame (network : HandoffNetwork) (s : Collector) (frame : QrHandoffFrame) :
    Except Text HandoffAcceptResult × Collector :=
  if frame.net ≠ network then
    (.ok (.mismatched .networkMismatch (text "Frames are for " ++ frame.net.name ++ text ", but this handoff is on " ++
      network.name ++ text ".") s.progress), s)
  else if s.expected.any (fun expected => frame.id ≠ expected.id) then
    (.ok (.mismatched .sessionMismatch (text "Frame belongs to a different transaction session.") s.progress), s)
  else if s.expected.any (fun expected => frame.n ≠ expected.n ∨ frame.sum ≠ expected.sum) then
    (.ok (.mismatched .sessionMismatch (text "Frame disagrees with the session it belongs to.") s.progress), s)
  else if frame.n ≤ frame.i then (.ok (s.fail (indexOutOfRange frame.i)), s)
  else store s frame

/-- A scan. `.error` is an exception that is not caught, with its message. -/
def accept (network : HandoffNetwork) (s : Collector) (raw : Text) : Except Text HandoffAcceptResult × Collector :=
  match parseHandoffFrame raw with
  | .error error => (.ok (s.fail error), s)
  | .ok frame => acceptFrame network s frame

theorem isIndex_natCast {i : Nat} (hi : (i : Int) < arrayLimit - 1) : isIndex i = true := by
  rw [isIndex, Bool.and_eq_true]
  exact ⟨decide_eq_true (Int.natCast_nonneg i), decide_eq_true hi⟩

theorem Chunks.get_natCast (chunks : Chunks) {i : Nat} (hi : (i : Int) < arrayLimit - 1) :
    chunks.get i = chunks.slots[i]?.join := by
  rw [Chunks.get, if_pos (isIndex_natCast hi), Int.toNat_natCast]

/-- An assignment within the array changes that place only. -/
theorem Chunks.set_natCast (chunks : Chunks) {i : Nat} (hi : (i : Int) < arrayLimit - 1)
    (hlt : i < chunks.slots.length) (d : Text) :
    chunks.set i d = { chunks with slots := chunks.slots.set i (some d) } := by
  rw [Chunks.set, if_pos (isIndex_natCast hi), Int.toNat_natCast, Nat.sub_eq_zero_of_le hlt, List.replicate_zero,
    List.append_nil]

theorem store_eq {s : Collector} {frame : QrHandoffFrame} {chunks : Chunks} {expected : Session}
    (hchunks : (if s.expected.isSome then .ok s.chunks else newChunks frame.n) = .ok chunks)
    (hexpected : s.expected.getD ⟨frame.id, frame.n, frame.sum⟩ = expected) :
    store s frame =
      if (chunks.get frame.i).isSome then
        (.ok (.duplicate (Collector.progress ⟨chunks, some expected⟩)), ⟨chunks, some expected⟩)
      else assemble expected (chunks.set frame.i frame.d) := by
  rw [store, hchunks, hexpected]

theorem assemble_of_lt {expected : Session} {chunks : Chunks} (hlt : (chunks.received : Int) < expected.n) :
    assemble expected chunks =
      (.ok (.accepted (Collector.progress ⟨chunks, some expected⟩)), ⟨chunks, some expected⟩) := by
  rw [assemble]
  exact if_pos hlt

theorem assemble_of_sum {expected : Session} {chunks : Chunks} (hall : ¬(chunks.received : Int) < expected.n)
    (hsum : crc32Hex chunks.assembled = expected.sum) :
    assemble expected chunks =
      (.ok (.complete chunks.assembled ⟨chunks.received, chunks.received⟩), createHandoffCollector) := by
  rw [assemble]
  exact (if_neg hall).trans (if_neg (not_not_intro hsum))

/-- A frame that agrees with the session is stored. -/
theorem acceptFrame_of_agrees {network : HandoffNetwork} {s : Collector} {frame : QrHandoffFrame}
    (hnet : frame.net = network) (hsession : ∀ expected, s.expected = some expected →
      expected = ⟨frame.id, frame.n, frame.sum⟩) (hrange : frame.i < frame.n) :
    acceptFrame network s frame = store s frame := by
  have hany (p : Session → Bool) (hp : p ⟨frame.id, frame.n, frame.sum⟩ = false) : s.expected.any p = false := by
    cases hexpected : s.expected with
    | none => rfl
    | some expected =>
        rw [hsession expected hexpected, Option.any_some]
        exact hp
  rw [acceptFrame, if_neg (not_not_intro hnet), hany _ (by simp), hany _ (by simp), if_neg Bool.false_ne_true,
    if_neg Bool.false_ne_true, if_neg (by omega)]

/-- The collector after some scans. -/
def collect (network : HandoffNetwork) (scans : List Text) : Collector :=
  scans.foldl (fun s raw => (accept network s raw).2) createHandoffCollector

theorem collect_append (network : HandoffNetwork) (before : List Text) (raw : Text) :
    collect network (before ++ [raw]) = (accept network (collect network before) raw).2 := by
  rw [collect, List.foldl_append]
  rfl

end Savitools.Web.QrCollector
