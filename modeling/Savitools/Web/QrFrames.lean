import Savitools.Json.RoundTrip
import Savitools.Web.QrHandoff

namespace Savitools.Web.QrFrames

open Strings.CodeUnits Json.Numbers Json.Values Json.Reading Json.Writing Json.RoundTrip Parts.Slots QrHandoff

/-- What holds of the frames of an encoding and is needed to scan them. -/
structure WellFormed (frame : QrHandoffFrame) (i n : Nat) : Prop where
  version : frame.v = qrHandoffVersion
  index : frame.i = i
  total : frame.n = n
  lt : i < n
  small : n < 2 ^ 53
  checksum : frame.c = crc32Hex frame.d

theorem faithful_frame {frame : QrHandoffFrame} {i n : Nat} (h : WellFormed frame i n) :
    Faithful (.obj (frameFields frame)) := by
  have hv : Readable (.ofInt frame.v) := h.version ▸ readable_ofInt (by decide)
  have hi : Readable (.ofInt frame.i) := h.index ▸ readable_ofInt (h.lt.trans h.small)
  have hn : Readable (.ofInt frame.n) := h.total ▸ readable_ofInt h.small
  have hkeys : [text "v", text "id", text "net", text "i", text "n", text "sum", text "c", text "d"].Nodup := by decide
  exact ⟨hkeys, hv, trivial, trivial, hi, hn, trivial, trivial, trivial, trivial⟩

theorem trim_serialise (frame : QrHandoffFrame) : trim (serialise frame) = serialise frame := by
  rw [serialise, stringify]
  exact trim_of_ends (by decide) (by decide)

theorem parsedFrame_fields (frame : QrHandoffFrame) :
    parsedFrame (.obj (frameFields frame)) =
      some ⟨.ofInt frame.v, frame.id, frame.net.name, .ofInt frame.i, .ofInt frame.n, frame.sum, frame.c, frame.d⟩ :=
  rfl

theorem networkNamed_name (network : HandoffNetwork) : networkNamed network.name = some network := by
  cases network <;> decide

theorem integer_ofInt (i : Int) : integer (.ofInt i) = some i := rfl

/-- The frames of an encoding are scanned as they were written. -/
theorem parse_serialise {frame : QrHandoffFrame} {i n : Nat} (h : WellFormed frame i n) :
    parseHandoffFrame (serialise frame) = .ok frame := by
  have hpositive : ¬frame.n < 1 := by
    have hlt := h.lt
    rw [h.total]
    omega
  rw [parseHandoffFrame, trim_serialise, serialise, parse_stringify (faithful_frame h), Option.bind_some,
    parsedFrame_fields]
  simp only [checkFrame, h.version, networkNamed_name, ← h.checksum, ne_eq, not_true_eq_false, if_false, integer_ofInt,
    if_neg hpositive]
  rw [← h.version]

/-- What `encodeHandoffFrames` gives when it accepts a text: a frame for each piece. -/
structure Encodes (xdr : Text) (network : HandoffNetwork) (frames : List QrHandoffFrame) : Prop where
  nonempty : 0 < frames.length
  few : frames.length ≤ qrHandoffMaxFrames
  chunks : frames.map QrHandoffFrame.d = pieces qrHandoffFrameChars xdr
  frame : ∀ i, frames[i]? = (pieces qrHandoffFrameChars xdr)[i]?.map (handoffFrame xdr network frames.length i)

theorem encodes_of_ok {xdr : Text} {network : HandoffNetwork} {frames : List QrHandoffFrame}
    (h : encodeHandoffFrames xdr network = .ok frames) : Encodes xdr network frames := by
  rw [encodeHandoffFrames] at h
  split at h
  next => cases h
  next hne =>
    split at h
    next => cases h
    next =>
      dsimp only at h
      split at h
      next => cases h
      next hfew =>
        have htotal : ((pieces qrHandoffFrameChars xdr).mapIdx (handoffFrame xdr network
            ((xdr.length + qrHandoffFrameChars - 1) / qrHandoffFrameChars))).length =
              (xdr.length + qrHandoffFrameChars - 1) / qrHandoffFrameChars := by
          rw [List.length_mapIdx, pieces, List.length_map, List.length_range]
        have hpos : 0 < (xdr.length + qrHandoffFrameChars - 1) / qrHandoffFrameChars := by
          apply Nat.div_pos _ (by decide)
          omega
        obtain rfl := Except.ok.inj h
        refine ⟨htotal.symm ▸ hpos, htotal.symm ▸ Nat.le_of_not_lt hfew, ?_, fun i => ?_⟩
        · apply List.ext_getElem?
          intro i
          rw [List.getElem?_map, List.getElem?_mapIdx, Option.map_map]
          exact Option.map_id_apply
        · rw [htotal, List.getElem?_mapIdx]

theorem Encodes.wellFormed {xdr : Text} {network : HandoffNetwork} {frames : List QrHandoffFrame}
    (h : Encodes xdr network frames) {i : Nat} {frame : QrHandoffFrame} (hi : frames[i]? = some frame) :
    WellFormed frame i frames.length := by
  have hlt : i < frames.length := (List.getElem?_eq_some_iff.mp hi).1
  rw [h.frame, Option.map_eq_some_iff] at hi
  obtain ⟨chunk, -, rfl⟩ := hi
  exact ⟨rfl, rfl, rfl, hlt, Nat.lt_of_le_of_lt h.few (by decide), rfl⟩

end Savitools.Web.QrFrames

namespace Savitools.Web.QrReassembly

open Strings.CodeUnits Parts.Slots QrHandoff QrCollector QrFrames

def Covers (frames : List QrHandoffFrame) (scans : List Text) : Prop := ∀ frame ∈ frames, serialise frame ∈ scans

/-- What may be scanned after other scans: a frame of the encoding, a text that is no frame, a
frame of the other network, or, after a frame of the encoding, a frame of another session. -/
inductive MayFollow (network : HandoffNetwork) (frames : List QrHandoffFrame) (before : List Text) (raw : Text) : Prop
  | ofEncoding {frame : QrHandoffFrame} (hmem : frame ∈ frames) (hraw : raw = serialise frame)
  | noFrame {error : QrHandoffError} (hparse : parseHandoffFrame raw = .error error)
  | otherNetwork {frame : QrHandoffFrame} (hparse : parseHandoffFrame raw = .ok frame) (hnet : frame.net ≠ network)
  | otherSession {frame first : QrHandoffFrame} (hparse : parseHandoffFrame raw = .ok frame)
      (hid : ∀ g ∈ frames, frame.id ≠ g.id) (hfirst : first ∈ frames) (hbefore : serialise first ∈ before)

inductive Scans (network : HandoffNetwork) (frames : List QrHandoffFrame) : List Text → Prop
  | nil : Scans network frames []
  | snoc {before : List Text} {raw : Text} (hbefore : Scans network frames before)
      (hraw : MayFollow network frames before raw) : Scans network frames (before ++ [raw])

def seen (frames : List QrHandoffFrame) (scans : List Text) (i : Nat) : Bool :=
  frames[i]?.any (fun frame => scans.contains (serialise frame))

def session (xdr : Text) (network : HandoffNetwork) (total : Nat) : Session :=
  ⟨sessionId xdr network, total, crc32Hex xdr⟩

/-- The collector after scans that do not yet bring every frame. -/
def collected (xdr : Text) (network : HandoffNetwork) (frames : List QrHandoffFrame) (scans : List Text) : Collector :=
  if frames.any (fun frame => scans.contains (serialise frame)) then
    ⟨⟨slots (pieces qrHandoffFrameChars xdr) (seen frames scans), []⟩, some (session xdr network frames.length)⟩
  else createHandoffCollector

variable {xdr : Text} {network : HandoffNetwork} {frames : List QrHandoffFrame}

theorem parse_of_mem (h : Encodes xdr network frames) {frame : QrHandoffFrame} (hframe : frame ∈ frames) :
    parseHandoffFrame (serialise frame) = .ok frame := by
  obtain ⟨i, hi⟩ := List.mem_iff_getElem?.mp hframe
  exact parse_serialise (h.wellFormed hi)

theorem serialise_inj (h : Encodes xdr network frames) {frame frame' : QrHandoffFrame} (hframe : frame ∈ frames)
    (hframe' : frame' ∈ frames) (heq : serialise frame = serialise frame') : frame = frame' := by
  have hparse := parse_of_mem h hframe
  rw [heq, parse_of_mem h hframe'] at hparse
  exact (Except.ok.inj hparse).symm

theorem index_inj (h : Encodes xdr network frames) {i j : Nat} {frame frame' : QrHandoffFrame}
    (hi : frames[i]? = some frame) (hj : frames[j]? = some frame') (heq : serialise frame = serialise frame') :
    i = j := by
  obtain rfl := serialise_inj h (List.mem_of_getElem? hi) (List.mem_of_getElem? hj) heq
  exact Int.ofNat.inj ((h.wellFormed hi).index.symm.trans (h.wellFormed hj).index)

theorem length_pieces (h : Encodes xdr network frames) : (pieces qrHandoffFrameChars xdr).length = frames.length := by
  rw [← h.chunks, List.length_map]

/-- A scan of a frame marks its own place and no other. -/
theorem seen_append (h : Encodes xdr network frames) {i : Nat} {frame : QrHandoffFrame}
    (hi : frames[i]? = some frame) (before : List Text) (j : Nat) :
    seen frames (before ++ [serialise frame]) j = (seen frames before j || j == i) := by
  rw [seen, seen]
  cases hj : frames[j]? with
  | none =>
      have hne : (j == i) = false := beq_false_of_ne (fun heq => by rw [heq, hi] at hj; cases hj)
      rw [hne]
      rfl
  | some frame' =>
      have hsame : serialise frame' = serialise frame ↔ j = i := by
        constructor
        · exact index_inj h hj hi
        · rintro rfl
          rw [hi] at hj
          rw [Option.some.inj hj]
      simp [hsame, beq_eq_decide]

/-- Two lists of scans that hold the same frames of the encoding. -/
def SameFrames (frames : List QrHandoffFrame) (scans scans' : List Text) : Prop :=
  ∀ frame ∈ frames, serialise frame ∈ scans ↔ serialise frame ∈ scans'

theorem sameFrames_of_ne {before : List Text} {raw : Text} (hraw : ∀ frame ∈ frames, serialise frame ≠ raw) :
    SameFrames frames (before ++ [raw]) before := by
  intro frame hframe
  rw [List.mem_append, List.mem_singleton]
  exact ⟨fun h => h.elim id (fun heq => absurd heq (hraw frame hframe)), Or.inl⟩

theorem sameFrames_of_mem {before : List Text} {raw : Text} (hraw : raw ∈ before) :
    SameFrames frames (before ++ [raw]) before := by
  intro frame _
  rw [List.mem_append, List.mem_singleton]
  exact ⟨fun h => h.elim id (fun heq => heq ▸ hraw), Or.inl⟩

theorem SameFrames.covers_iff {scans scans' : List Text} (h : SameFrames frames scans scans') :
    Covers frames scans ↔ Covers frames scans' :=
  forall₂_congr h

/-- The collector depends on which frames have been scanned, not on their order or number. -/
theorem SameFrames.collected_eq {scans scans' : List Text} (h : SameFrames frames scans scans') :
    collected xdr network frames scans = collected xdr network frames scans' := by
  have hseen : seen frames scans = seen frames scans' := by
    funext i
    rw [seen, seen]
    cases hi : frames[i]? with
    | none => rfl
    | some frame =>
        rw [Option.any_some, Option.any_some, Bool.eq_iff_iff, List.contains_iff_mem, List.contains_iff_mem]
        exact h frame (List.mem_of_getElem? hi)
  have hany : frames.any (fun frame => scans.contains (serialise frame)) =
      frames.any (fun frame => scans'.contains (serialise frame)) := by
    rw [Bool.eq_iff_iff, List.any_eq_true, List.any_eq_true]
    refine exists_congr (fun frame => and_congr_right (fun hframe => ?_))
    rw [List.contains_iff_mem, List.contains_iff_mem, h frame hframe]
  rw [collected, collected, hseen, hany]

theorem expected_collected (scans : List Text) (hstarted : ∃ frame ∈ frames, serialise frame ∈ scans) :
    collected xdr network frames scans =
      ⟨⟨slots (pieces qrHandoffFrameChars xdr) (seen frames scans), []⟩, some (session xdr network frames.length)⟩ := by
  obtain ⟨frame, hframe, hmem⟩ := hstarted
  have hany : frames.any (fun frame => scans.contains (serialise frame)) = true :=
    List.any_eq_true.mpr ⟨frame, hframe, List.contains_iff_mem.mpr hmem⟩
  rw [collected, if_pos hany]

/-- A scan that leaves the collector as it is. -/
def Ignored (network : HandoffNetwork) (s : Collector) (raw : Text) : Prop :=
  ∃ result, accept network s raw = (.ok result, s) ∧ result.isComplete = false ∧ result.progress = s.progress

theorem ignored_noFrame {raw : Text} {error : QrHandoffError} (hparse : parseHandoffFrame raw = .error error)
    (s : Collector) : Ignored network s raw := by
  refine ⟨s.fail error, ?_, rfl, rfl⟩
  rw [accept, hparse]

theorem ignored_otherNetwork {raw : Text} {frame : QrHandoffFrame} (hparse : parseHandoffFrame raw = .ok frame)
    (hnet : frame.net ≠ network) (s : Collector) : Ignored network s raw := by
  rw [Ignored, accept, hparse]
  dsimp only
  rw [acceptFrame, if_pos hnet]
  exact ⟨_, rfl, rfl, rfl⟩

theorem ignored_otherSession {raw : Text} {frame : QrHandoffFrame} (hparse : parseHandoffFrame raw = .ok frame)
    {s : Collector} {expected : Session} (hexpected : s.expected = some expected) (hid : frame.id ≠ expected.id) :
    Ignored network s raw := by
  by_cases hnet : frame.net = network
  · rw [Ignored, accept, hparse]
    dsimp only
    have hother : s.expected.any (fun expected => frame.id ≠ expected.id) = true := by
      rw [hexpected, Option.any_some]
      exact decide_eq_true hid
    rw [acceptFrame, if_neg (not_not_intro hnet), if_pos hother]
    exact ⟨_, rfl, rfl, rfl⟩
  · exact ignored_otherNetwork hparse hnet s

theorem exists_chunk (h : Encodes xdr network frames) {i : Nat} {frame : QrHandoffFrame} (hi : frames[i]? = some frame) :
    ∃ chunk, (pieces qrHandoffFrameChars xdr)[i]? = some chunk ∧
      frame = handoffFrame xdr network frames.length i chunk := by
  rw [h.frame, Option.map_eq_some_iff] at hi
  obtain ⟨chunk, hchunk, rfl⟩ := hi
  exact ⟨chunk, hchunk, rfl⟩

theorem expected_cases (scans : List Text) :
    (collected xdr network frames scans).expected = none ∨
      (collected xdr network frames scans).expected = some (session xdr network frames.length) := by
  rw [collected]
  split
  next => exact Or.inr rfl
  next => exact Or.inl rfl

/-- A frame of the encoding passes the checks. -/
theorem accept_ofEncoding (h : Encodes xdr network frames) {i : Nat} {frame : QrHandoffFrame}
    (hi : frames[i]? = some frame) (before : List Text) :
    accept network (collected xdr network frames before) (serialise frame) =
      store (collected xdr network frames before) frame := by
  have hlt := (h.wellFormed hi).lt
  have hrange : frame.i < frame.n := by
    rw [(h.wellFormed hi).index, (h.wellFormed hi).total]
    omega
  rw [accept, parse_of_mem h (List.mem_of_getElem? hi)]
  obtain ⟨chunk, -, rfl⟩ := exists_chunk h hi
  refine acceptFrame_of_agrees rfl (fun expected hexpected => ?_) hrange
  obtain hnone | hsome := @expected_cases xdr network frames before
  · rw [hnone] at hexpected
    cases hexpected
  · exact Option.some.inj (hexpected.symm.trans hsome)

/-- The chunks that a frame of the encoding is stored among. -/
theorem opened_chunks (h : Encodes xdr network frames) (before : List Text) :
    (if (collected xdr network frames before).expected.isSome then .ok (collected xdr network frames before).chunks
      else newChunks frames.length) =
      (.ok ⟨slots (pieces qrHandoffFrameChars xdr) (seen frames before), []⟩ : Except Text Chunks) := by
  rw [collected]
  split
  next => rfl
  next hnone =>
    have hseen : seen frames before = fun _ => false := by
      funext i
      rw [seen]
      cases hi : frames[i]? with
      | none => rfl
      | some frame =>
          have hall := List.any_eq_false.mp (Bool.eq_false_iff.mpr hnone) frame (List.mem_of_getElem? hi)
          exact Bool.eq_false_iff.mpr hall
    have hlimit : (frames.length : Int) < arrayLimit := by
      have hfew := h.few
      rw [qrHandoffMaxFrames] at hfew
      rw [arrayLimit]
      omega
    rw [hseen, slots_empty, length_pieces h]
    simp only [createHandoffCollector, Option.isSome_none, Bool.false_eq_true, if_false, newChunks, if_pos hlimit,
      Int.toNat_natCast]

theorem getD_expected {frame : QrHandoffFrame} (hid : frame.id = sessionId xdr network)
    (hn : frame.n = frames.length) (hsum : frame.sum = crc32Hex xdr) (scans : List Text) :
    (collected xdr network frames scans).expected.getD ⟨frame.id, frame.n, frame.sum⟩ =
      session xdr network frames.length := by
  rw [hid, hn, hsum]
  obtain hnone | hsome := @expected_cases xdr network frames scans
  · rw [hnone]
    rfl
  · rw [hsome]
    rfl

/-- A frame that has come before changes nothing; another one is put in its place. -/
theorem store_ofEncoding (h : Encodes xdr network frames) {i : Nat} {frame : QrHandoffFrame}
    (hi : frames[i]? = some frame) (before : List Text) :
    store (collected xdr network frames before) frame =
      if before.contains (serialise frame) then
        (.ok (.duplicate (collected xdr network frames before).progress), collected xdr network frames before)
      else
        assemble (session xdr network frames.length)
          ⟨slots (pieces qrHandoffFrameChars xdr) (seen frames (before ++ [serialise frame])), []⟩ := by
  have hlt := (h.wellFormed hi).lt
  have hindex : (i : Int) < arrayLimit - 1 := by
    have hfew := h.few
    rw [qrHandoffMaxFrames] at hfew
    rw [arrayLimit]
    omega
  have hseen : seen frames before i = before.contains (serialise frame) := by
    rw [seen, hi, Option.any_some]
  obtain ⟨chunk, hchunk, hframe⟩ := exists_chunk h hi
  have hd : frame.d = chunk := by rw [hframe, handoffFrame]
  have hget : (Chunks.get ⟨slots (pieces qrHandoffFrameChars xdr) (seen frames before), []⟩ frame.i).isSome =
      before.contains (serialise frame) := by
    rw [(h.wellFormed hi).index, Chunks.get_natCast _ hindex, getElem?_slots, hchunk, ← hseen]
    cases seen frames before i <;> rfl
  have hset : Chunks.set ⟨slots (pieces qrHandoffFrameChars xdr) (seen frames before), []⟩ frame.i frame.d =
      ⟨slots (pieces qrHandoffFrameChars xdr) (seen frames (before ++ [serialise frame])), []⟩ := by
    have hplace : i < (slots (pieces qrHandoffFrameChars xdr) (seen frames before)).length := by
      rwa [length_slots, length_pieces h]
    rw [(h.wellFormed hi).index, hd, Chunks.set_natCast _ hindex hplace, set_slots hchunk,
      funext (seen_append h hi before)]
  have hopen := opened_chunks h before
  have hexpected := @getD_expected xdr network frames frame (by rw [hframe, handoffFrame]) (h.wellFormed hi).total
    (by rw [hframe, handoffFrame]) before
  rw [← (h.wellFormed hi).total] at hopen
  rw [store_eq hopen hexpected, hget, hset]
  by_cases hbefore : before.contains (serialise frame) = true
  · have hcollected := @expected_collected xdr network frames before
      ⟨frame, List.mem_of_getElem? hi, List.contains_iff_mem.mp hbefore⟩
    rw [if_pos hbefore, if_pos hbefore, hcollected]
  · rw [if_neg hbefore, if_neg hbefore]

theorem seen_eq_true {scans : List Text} (hcovers : Covers frames scans) {i : Nat} (hi : i < frames.length) :
    seen frames scans i = true := by
  rw [seen, List.getElem?_eq_getElem hi, Option.any_some]
  exact List.contains_iff_mem.mpr (hcovers _ (List.getElem_mem hi))

theorem exists_missing {scans : List Text} (hmissing : ¬Covers frames scans) :
    ∃ i < frames.length, seen frames scans i = false := by
  rw [Covers] at hmissing
  simp only [not_forall] at hmissing
  obtain ⟨frame, hframe, hmem⟩ := hmissing
  obtain ⟨i, hi⟩ := List.mem_iff_getElem?.mp hframe
  refine ⟨i, (List.getElem?_eq_some_iff.mp hi).1, ?_⟩
  rw [seen, hi, Option.any_some, List.contains_eq_mem]
  exact decide_eq_false hmem

/-- While a frame is missing its chunk is waited for. -/
theorem assemble_missing (h : Encodes xdr network frames) {scans : List Text} (hmissing : ¬Covers frames scans) :
    let s : Collector := ⟨⟨slots (pieces qrHandoffFrameChars xdr) (seen frames scans), []⟩,
      some (session xdr network frames.length)⟩
    assemble (session xdr network frames.length)
      ⟨slots (pieces qrHandoffFrameChars xdr) (seen frames scans), []⟩ = (.ok (.accepted s.progress), s) := by
  obtain ⟨i, hi, hseen⟩ := exists_missing hmissing
  rw [← length_pieces h] at hi
  have hlt := filled_lt hi hseen
  rw [length_pieces h] at hlt
  exact assemble_of_lt (Int.ofNat_lt.mpr hlt)

/-- With every frame the chunks are the text that was encoded. -/
theorem assemble_covers (h : Encodes xdr network frames) {scans : List Text} (hcovers : Covers frames scans) :
    assemble (session xdr network frames.length)
      ⟨slots (pieces qrHandoffFrameChars xdr) (seen frames scans), []⟩ =
        (.ok (.complete xdr ⟨frames.length, frames.length⟩), createHandoffCollector) := by
  have hall : ∀ i < (pieces qrHandoffFrameChars xdr).length, seen frames scans i = true := fun i hi =>
    seen_eq_true hcovers (length_pieces h ▸ hi)
  have hreceived : Chunks.received ⟨slots (pieces qrHandoffFrameChars xdr) (seen frames scans), []⟩ = frames.length := by
    rw [Chunks.received, filled_full hall, length_pieces h]
  have hassembled : Chunks.assembled ⟨slots (pieces qrHandoffFrameChars xdr) (seen frames scans), []⟩ = xdr := by
    have hmap : ((pieces qrHandoffFrameChars xdr).map some).map (·.getD []) = pieces qrHandoffFrameChars xdr := by
      rw [List.map_map]
      exact List.map_id _
    rw [Chunks.assembled, slots_full hall, hmap, flatten_pieces (by decide)]
  have hnot : ¬(Chunks.received ⟨slots (pieces qrHandoffFrameChars xdr) (seen frames scans), []⟩ : Int) <
      (session xdr network frames.length).n := by
    rw [hreceived]
    exact Int.lt_irrefl _
  have hsum : crc32Hex (Chunks.assembled ⟨slots (pieces qrHandoffFrameChars xdr) (seen frames scans), []⟩) =
      (session xdr network frames.length).sum := by
    rw [hassembled, session]
  rw [assemble_of_sum hnot hsum, hassembled, hreceived]

theorem Covers.append {scans : List Text} (h : Covers frames scans) (raw : Text) : Covers frames (scans ++ [raw]) :=
  fun frame hframe => List.mem_append_left [raw] (h frame hframe)

/-- What one scan does before the encoding is covered. -/
structure Scanned (xdr : Text) (frames : List QrHandoffFrame) (s : Collector) (covers : Prop)
    (result : HandoffAcceptResult) (after : Collector) : Prop where
  complete_iff : result.isComplete = true ↔ covers
  complete : covers → result = .complete xdr ⟨frames.length, frames.length⟩ ∧ after = createHandoffCollector
  progress : ¬covers → result.progress = after.progress
  received_le : s.progress.received ≤ result.progress.received
  total_le : s.progress.total ≤ result.progress.total

theorem scanned_of_ignored {s : Collector} {raw : Text} (h : Ignored network s raw) {covers : Prop} (hnot : ¬covers) :
    ∃ result, accept network s raw = (.ok result, s) ∧ Scanned xdr frames s covers result s := by
  obtain ⟨result, haccept, hcomplete, hprogress⟩ := h
  refine ⟨result, haccept, ?_, fun hcovers => absurd hcovers hnot, fun _ => hprogress, ?_, ?_⟩
  · rw [hcomplete]
    exact iff_of_false Bool.false_ne_true hnot
  · exact hprogress ▸ Nat.le_refl _
  · exact hprogress ▸ Int.le_refl _

/-- A scan that is not a frame of the encoding, or is one for the second time, is ignored. -/
theorem ignored_or_new (h : Encodes xdr network frames) {before : List Text} {raw : Text}
    (hraw : MayFollow network frames before raw) :
    (SameFrames frames (before ++ [raw]) before ∧ Ignored network (collected xdr network frames before) raw) ∨
      ∃ frame ∈ frames, raw = serialise frame ∧ raw ∉ before := by
  cases hraw with
  | @ofEncoding frame hmem heq =>
      by_cases hbefore : raw ∈ before
      · refine Or.inl ⟨sameFrames_of_mem hbefore, .duplicate (collected xdr network frames before).progress, ?_, rfl, rfl⟩
        obtain ⟨i, hi⟩ := List.mem_iff_getElem?.mp hmem
        rw [heq] at hbefore ⊢
        rw [accept_ofEncoding h hi, store_ofEncoding h hi, if_pos (List.contains_iff_mem.mpr hbefore)]
      · exact Or.inr ⟨frame, hmem, heq, hbefore⟩
  | noFrame hparse =>
      refine Or.inl ⟨sameFrames_of_ne (fun frame hframe heq => ?_), ignored_noFrame hparse _⟩
      rw [← heq, parse_of_mem h hframe] at hparse
      cases hparse
  | otherNetwork hparse hnet =>
      refine Or.inl ⟨sameFrames_of_ne (fun frame hframe heq => ?_), ignored_otherNetwork hparse hnet _⟩
      rw [← heq, parse_of_mem h hframe] at hparse
      cases hparse
      obtain ⟨i, hi⟩ := List.mem_iff_getElem?.mp hframe
      obtain ⟨chunk, -, rfl⟩ := exists_chunk h hi
      exact hnet rfl
  | @otherSession frame first hparse hid hfirst hbefore =>
      refine Or.inl ⟨sameFrames_of_ne (fun frame hframe heq => ?_), ?_⟩
      · rw [← heq, parse_of_mem h hframe] at hparse
        cases hparse
        exact hid frame hframe rfl
      · have hexpected := @expected_collected xdr network frames before ⟨first, hfirst, hbefore⟩
        have hother := hid first hfirst
        obtain ⟨i, hi⟩ := List.mem_iff_getElem?.mp hfirst
        obtain ⟨chunk, -, rfl⟩ := exists_chunk h hi
        exact ignored_otherSession hparse (congrArg Collector.expected hexpected) hother

theorem progress_collected (scans : List Text) :
    (collected xdr network frames scans).progress.received ≤
        filled (slots (pieces qrHandoffFrameChars xdr) (seen frames scans)) ∧
      (collected xdr network frames scans).progress.total ≤ frames.length := by
  rw [collected]
  split
  next => exact ⟨Nat.le_refl _, Int.le_refl _⟩
  next => exact ⟨Nat.zero_le _, Int.natCast_nonneg _⟩

theorem seen_mono {scans : List Text} (raw : Text) (i : Nat) (hi : seen frames scans i = true) :
    seen frames (scans ++ [raw]) i = true := by
  rw [seen] at hi ⊢
  cases hframe : frames[i]? with
  | none =>
      rw [hframe] at hi
      cases hi
  | some frame =>
      rw [hframe, Option.any_some, List.contains_iff_mem] at hi
      exact List.contains_iff_mem.mpr (List.mem_append_left [raw] hi)

/-- A frame of the encoding that comes for the first time. -/
theorem scanned_new (h : Encodes xdr network frames) {before : List Text} {frame : QrHandoffFrame}
    (hframe : frame ∈ frames) (hnew : serialise frame ∉ before) :
    ∃ result after, accept network (collected xdr network frames before) (serialise frame) = (.ok result, after) ∧
      Scanned xdr frames (collected xdr network frames before) (Covers frames (before ++ [serialise frame])) result
        after ∧
      (¬Covers frames (before ++ [serialise frame]) →
        after = collected xdr network frames (before ++ [serialise frame])) := by
  obtain ⟨i, hi⟩ := List.mem_iff_getElem?.mp hframe
  have hgrows := @filled_mono _ (pieces qrHandoffFrameChars xdr) _ _ (@seen_mono frames before (serialise frame))
  obtain ⟨hreceived, htotal⟩ := @progress_collected xdr network frames before
  have hafter := @expected_collected xdr network frames (before ++ [serialise frame])
    ⟨frame, hframe, List.mem_append_right before (List.mem_singleton_self _)⟩
  rw [accept_ofEncoding h hi, store_ofEncoding h hi, if_neg (fun h => hnew (List.contains_iff_mem.mp h))]
  by_cases hcovers : Covers frames (before ++ [serialise frame])
  · have hfull := @filled_full _ (pieces qrHandoffFrameChars xdr) (seen frames (before ++ [serialise frame]))
      (fun j hj => seen_eq_true hcovers (length_pieces h ▸ hj))
    rw [length_pieces h] at hfull
    rw [assemble_covers h hcovers]
    refine ⟨_, _, rfl, ⟨iff_of_true rfl hcovers, fun _ => ⟨rfl, rfl⟩, fun hnot => absurd hcovers hnot, ?_, htotal⟩,
      fun hnot => absurd hcovers hnot⟩
    exact (hreceived.trans hgrows).trans_eq hfull
  · rw [assemble_missing h hcovers]
    refine ⟨_, _, rfl, ⟨iff_of_false Bool.false_ne_true hcovers, fun hyes => absurd hyes hcovers, fun _ => rfl,
      hreceived.trans hgrows, htotal⟩, fun _ => hafter.symm⟩

/-- One scan, while a frame is missing. -/
theorem accept_step (h : Encodes xdr network frames) {before : List Text} {raw : Text}
    (hraw : MayFollow network frames before raw) (hmissing : ¬Covers frames before) :
    ∃ result after, accept network (collected xdr network frames before) raw = (.ok result, after) ∧
      Scanned xdr frames (collected xdr network frames before) (Covers frames (before ++ [raw])) result after ∧
      (¬Covers frames (before ++ [raw]) → after = collected xdr network frames (before ++ [raw])) := by
  obtain ⟨hsame, hignored⟩ | ⟨frame, hframe, rfl, hnew⟩ := ignored_or_new h hraw
  · have hnot : ¬Covers frames (before ++ [raw]) := fun hcovers => hmissing (hsame.covers_iff.mp hcovers)
    obtain ⟨result, haccept, hscanned⟩ := @scanned_of_ignored xdr network frames _ _ hignored _ hnot
    exact ⟨result, _, haccept, hscanned, fun _ => hsame.collected_eq.symm⟩
  · exact scanned_new h hframe hnew

/-- Until the encoding is covered, the scans of its frames are all that the collector has. -/
theorem collect_eq (h : Encodes xdr network frames) {scans : List Text} (hscans : Scans network frames scans)
    (hmissing : ¬Covers frames scans) : collect network scans = collected xdr network frames scans := by
  induction hscans with
  | nil =>
      have hnone : frames.any (fun frame => ([] : List Text).contains (serialise frame)) = false :=
        List.any_eq_false.mpr (fun frame _ hmem => List.not_mem_nil (List.contains_iff_mem.mp hmem))
      rw [collected, hnone]
      rfl
  | @snoc before raw hbefore hraw ih =>
      have hprev : ¬Covers frames before := fun hcovers => hmissing (hcovers.append raw)
      obtain ⟨result, after, haccept, -, hafter⟩ := accept_step h hraw hprev
      rw [collect_append, ih hprev, haccept]
      exact hafter hmissing

/-- Whatever the order and the repetitions of the frames and whatever is scanned between them,
the scan that brings the last missing frame completes the text and no earlier one does. -/
theorem accept_complete_iff {xdr : Text} {network : HandoffNetwork} {frames : List QrHandoffFrame}
    (hencode : encodeHandoffFrames xdr network = .ok frames) {before : List Text} {raw : Text}
    (hscans : Scans network frames (before ++ [raw])) (hmissing : ¬Covers frames before) :
    ∃ result after, accept network (collect network before) raw = (.ok result, after) ∧
      Scanned xdr frames (collect network before) (Covers frames (before ++ [raw])) result after := by
  have h := encodes_of_ok hencode
  generalize hall : before ++ [raw] = scans at hscans
  cases hscans with
  | nil => exact absurd hall (List.append_ne_nil_of_right_ne_nil before (List.cons_ne_nil raw []))
  | snoc hbefore hraw =>
      obtain ⟨rfl, hlast⟩ := List.append_inj' hall rfl
      obtain rfl := List.singleton_inj.mp hlast
      obtain ⟨result, after, haccept, hscanned, -⟩ := accept_step h hraw hmissing
      rw [collect_eq h hbefore hmissing]
      exact ⟨result, after, haccept, hscanned⟩

def sampleFrame : QrHandoffFrame := handoffFrame (text "AAAA") .testnet 1 0 (text "AAAA")

theorem accept_complete_sample :
    accept .testnet (collect .testnet [text "hello"]) (serialise sampleFrame) =
      (.ok (.complete (text "AAAA") ⟨1, 1⟩), createHandoffCollector) := by
  have hencode : encodeHandoffFrames (text "AAAA") .testnet = .ok [sampleFrame] := by decide +kernel
  have hnoFrame : MayFollow .testnet [sampleFrame] [] (text "hello") :=
    .noFrame (show parseHandoffFrame (text "hello") = .error ⟨.notAFrame, text "Scanned text is not a handoff frame."⟩
      from rfl)
  have hframe : MayFollow .testnet [sampleFrame] [text "hello"] (serialise sampleFrame) :=
    .ofEncoding (List.mem_singleton_self _) rfl
  have hscans : Scans .testnet [sampleFrame] ([text "hello"] ++ [serialise sampleFrame]) :=
    .snoc (@Scans.snoc _ _ [] _ .nil hnoFrame) hframe
  have hmissing : ¬Covers [sampleFrame] [text "hello"] := fun hcovers => by
    have hsame := List.mem_singleton.mp (hcovers sampleFrame (List.mem_singleton_self _))
    have hhead : some (unit '{') = some (unit 'h') := congrArg List.head? hsame
    exact absurd hhead (by decide)
  have hcovers : Covers [sampleFrame] ([text "hello"] ++ [serialise sampleFrame]) :=
    List.forall_mem_singleton.mpr (List.mem_append_right _ (List.mem_singleton_self _))
  obtain ⟨result, after, haccept, hscanned⟩ := accept_complete_iff hencode hscans hmissing
  obtain ⟨rfl, rfl⟩ := hscanned.complete hcovers
  exact haccept

end Savitools.Web.QrReassembly
