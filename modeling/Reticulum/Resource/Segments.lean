import Reticulum.Resource.Inbound
import Reticulum.Resource.Preflight

/-!
# Resources of several segments

Data beyond the size of one segment is cut into segments that are sent one after the other; the
metadata belongs to the first one and takes room from its payload. `MultiSegmentOutbound`,
`LazyMultiSegmentOutbound` and `MultiSegmentInbound` of `resource.rs`.

The randomness of the segments is a function of the segment and of the attempt at it.
-/

namespace Reticulum.Resource

open OutboundResource List

/-! ### The sender -/

/-- `required_segment_count`. -/
def requiredSegmentCount (dataSize metadataWireSize : ℕ) : ℕ :=
  if dataSize = 0 then 1 else segmentCount dataSize metadataWireSize

/-- `LazyMultiSegmentOutbound`. -/
structure LazyMultiSegmentOutbound where
  data : Bytes
  autoCompress : Bool
  metadata : Option Bytes
  metadataWireSize : ℕ
  requestId : Option Bytes
  isResponse : Bool
  nextOffset : ℕ
  nextSegmentIndex : ℕ
  originalHash : Octets 32
  totalSegments : ℕ
  dataSize : ℕ
  deriving DecidableEq, Repr

/-- `MultiSegmentOutbound`. -/
structure MultiSegmentOutbound where
  originalHash : Octets 32
  segments : List OutboundResource
  totalSegments : ℕ
  dataSize : ℕ
  deriving DecidableEq, Repr

/-- The randomness of the tags and of the encryption, by segment and attempt. -/
structure Randomness where
  tag : ℕ → ℕ → Octets 4
  encryptFn : Option (ℕ → ℕ → Bytes → Bytes)

/-- The encryption of one attempt at a segment. -/
def Randomness.encrypt (random : Randomness) (index attempt : ℕ) : Option (Bytes → Bytes) :=
  random.encryptFn.map fun encryptFn => encryptFn index attempt

section

variable [Sha256]

/-- `LazyMultiSegmentOutbound::with_options` with the tag of the original hash. -/
def LazyMultiSegmentOutbound.withOptions (randomHash : Octets 4) (data : Bytes)
    (autoCompress : Bool) (metadata requestId : Option Bytes) (isResponse : Bool) :
    Except ResourceError LazyMultiSegmentOutbound :=
  let metadataWireSize := OutboundResource.metadataWireSize metadata
  let totalSegments := requiredSegmentCount data.length metadataWireSize
  if maxResourceSize < data.length then .error .tooLarge
  else if maxEfficientSize < metadataWireSize then .error .metadataTooLarge
  else if maxSegments < totalSegments then .error .tooLarge
  else do
    preflightOutbound data.length (metadata.map List.length) requestId isResponse true Wire.mtu
    return {
      data
      autoCompress
      metadata
      metadataWireSize
      requestId
      isResponse
      nextOffset := 0
      nextSegmentIndex := 1
      originalHash := computeResourceHash data randomHash.1
      totalSegments
      dataSize := data.length }

variable [Bzip2]

namespace LazyMultiSegmentOutbound

/-- Where the payload of the next segment ends. -/
def nextEnd (l : LazyMultiSegmentOutbound) : ℕ :=
  let payloadLimit := if l.nextSegmentIndex = 1 then maxEfficientSize - l.metadataWireSize
    else maxEfficientSize
  min (l.nextOffset + payloadLimit) l.data.length

/-- The metadata of the next segment. -/
def nextMetadata (l : LazyMultiSegmentOutbound) : Option Bytes :=
  if l.nextSegmentIndex = 1 then l.metadata else none

/-- A segment with the fields that tie it to the others. -/
def tie (l : LazyMultiSegmentOutbound) (resource : OutboundResource) : OutboundResource :=
  { resource with
    flags := { resource.flags with split := true, isResponse := l.isResponse }
    segmentIndex := l.nextSegmentIndex
    totalSegments := l.totalSegments
    requestId := l.requestId
    advertisementDataSize := l.dataSize + l.metadataWireSize
    originalHash := some l.originalHash }

/-- The plan after a segment; the data is released with the last one. -/
def advance (l : LazyMultiSegmentOutbound) : LazyMultiSegmentOutbound :=
  { l with
    metadata := if l.nextSegmentIndex = 1 then none else l.metadata
    nextOffset := l.nextEnd
    nextSegmentIndex := l.nextSegmentIndex + 1
    data := if l.totalSegments < l.nextSegmentIndex + 1 then [] else l.data }

/-- `LazyMultiSegmentOutbound::next_segment`. A failure has taken the metadata. -/
def nextSegment (random : Randomness) (l : LazyMultiSegmentOutbound) :
    LazyMultiSegmentOutbound × Except ResourceError (Option OutboundResource) :=
  if l.totalSegments < l.nextSegmentIndex then (l, .ok none)
  else
    match OutboundResource.withOptions (random.tag l.nextSegmentIndex)
        (random.encryptFn.map (· l.nextSegmentIndex))
        ((l.data.take l.nextEnd).drop l.nextOffset) l.autoCompress l.nextMetadata none with
    | .error e =>
      ({ l with metadata := if l.nextSegmentIndex = 1 then none else l.metadata }, .error e)
    | .ok resource => (l.advance, .ok (some (l.tie resource)))

/-- The segments of at most `n` calls, up to the first call that returns none. -/
def take (random : Randomness) : ℕ → LazyMultiSegmentOutbound →
    Except ResourceError (List OutboundResource)
  | 0, _ => .ok []
  | n + 1, l =>
    match l.nextSegment random with
    | (_, .error e) => .error e
    | (_, .ok none) => .ok []
    | (l, .ok (some segment)) => do
      let segments ← take random n l
      return segment :: segments

end LazyMultiSegmentOutbound

/-- `MultiSegmentOutbound::with_options`. One call more than there are segments sees the end. -/
def MultiSegmentOutbound.withOptions (random : Randomness) (randomHash : Octets 4) (data : Bytes)
    (autoCompress : Bool) (metadata requestId : Option Bytes) (isResponse : Bool) :
    Except ResourceError MultiSegmentOutbound := do
  let lazy ← LazyMultiSegmentOutbound.withOptions randomHash data autoCompress metadata requestId
    isResponse
  let segments ← lazy.take random (lazy.totalSegments + 1)
  return {
    originalHash := lazy.originalHash
    segments
    totalSegments := lazy.totalSegments
    dataSize := lazy.dataSize }

end

namespace MultiSegmentOutbound

/-- `MultiSegmentOutbound::is_complete`. -/
def isComplete (m : MultiSegmentOutbound) : Bool := m.segments.all (·.state = .complete)

end MultiSegmentOutbound

/-! ### What the segments contain -/

/-- The payload and the framed metadata of a segment. -/
def OutboundResource.content (r : OutboundResource) : Bytes × Option Bytes := (r.data, r.metadata)

/-- The content of a segment without metadata. -/
def plainContent (payload : Bytes) : Bytes × Option Bytes := (payload, none)

/-- The contents of the segments: the metadata and what fits behind it, then full segments. -/
def segmentContents (data : Bytes) (metadata : Option Bytes) : List (Bytes × Option Bytes) :=
  let first := maxEfficientSize - metadataWireSize metadata
  (data.take first, metadata.map frameMetadata) ::
    (chunks maxEfficientSize (data.drop first)).map plainContent

/-- There are as many segments as are counted before the data is cut. -/
theorem length_segmentContents (data : Bytes) (metadata : Option Bytes) :
    (segmentContents data metadata).length =
      segmentCount data.length (metadataWireSize metadata) := by
  have hpos : 0 < maxEfficientSize := by decide
  rw [segmentContents, length_cons, length_map, length_chunks hpos, segmentCount,
    divCeil_eq hpos, length_drop, Nat.add_comm]
  congr 3
  omega

theorem requiredSegmentCount_eq (dataSize metadataWireSize : ℕ) :
    requiredSegmentCount dataSize metadataWireSize = segmentCount dataSize metadataWireSize := by
  unfold requiredSegmentCount
  split_ifs with h
  · rw [h, segmentCount, Nat.zero_sub]
    rfl
  · rfl

/-- The payloads make up the data. -/
theorem flatten_segmentContents (data : Bytes) (metadata : Option Bytes) :
    ((segmentContents data metadata).map (·.1)).flatten = data := by
  have hid : (fun c : Bytes => (plainContent c).1) = id := rfl
  simp only [segmentContents, map_cons, flatten_cons, map_map, Function.comp_def, hid, map_id]
  rw [flatten_chunks (by decide), take_append_drop]

variable {data : Bytes}

/-- No segment is larger than the limit. -/
theorem length_le_of_mem_segmentContents {metadata : Option Bytes}
    (h : metadataWireSize metadata ≤ maxEfficientSize) {c : Bytes × Option Bytes}
    (hc : c ∈ segmentContents data metadata) :
    (c.2.map List.length).getD 0 + c.1.length ≤ maxEfficientSize := by
  rcases mem_cons.mp hc with rfl | hc
  · have hlen : ((metadata.map frameMetadata).map List.length).getD 0 =
        metadataWireSize metadata := by
      cases metadata with
      | none => rfl
      | some m => simp [metadataWireSize]
    have htake := length_take_le
      (maxEfficientSize - metadataWireSize metadata) data
    simp only [hlen]
    omega
  · obtain ⟨chunk, hchunk, rfl⟩ := mem_map.mp hc
    simpa [plainContent] using length_le_of_mem_chunks (by decide) hchunk

namespace LazyMultiSegmentOutbound

/-- The contents of the segments that the plan has not yielded. -/
def pending (l : LazyMultiSegmentOutbound) : List (Bytes × Option Bytes) :=
  if l.nextSegmentIndex = 1 then segmentContents l.data l.metadata
  else (chunks maxEfficientSize (l.data.drop l.nextOffset)).map plainContent

/-- A plan that has yielded some of its segments. -/
structure Planned (l : LazyMultiSegmentOutbound) : Prop where
  index_pos : 1 ≤ l.nextSegmentIndex
  offset_eq : l.nextSegmentIndex = 1 → l.nextOffset = 0
  wire_eq : l.nextSegmentIndex = 1 →
    l.metadataWireSize = OutboundResource.metadataWireSize l.metadata
  wire_le : l.metadataWireSize ≤ maxEfficientSize
  length_le : l.data.length ≤ l.dataSize
  length_pending : l.nextSegmentIndex + l.pending.length = l.totalSegments + 1

variable {metadata requestId : Option Bytes} {isResponse : Bool}

/-- What the constructor accepts, and the plan that it makes. -/
theorem withOptions_ok [Sha256] {randomHash : Octets 4} {autoCompress : Bool}
    {l : LazyMultiSegmentOutbound}
    (h : withOptions randomHash data autoCompress metadata requestId isResponse = .ok l) :
    l.Planned ∧ l.pending = segmentContents data metadata ∧
      l.totalSegments = segmentCount data.length (OutboundResource.metadataWireSize metadata) ∧
      Admitted data.length (OutboundResource.metadataWireSize metadata) requestId isResponse true
        metadata.isSome sdu Wire.mtu ∧
      l.dataSize = data.length ∧
      l.metadataWireSize = OutboundResource.metadataWireSize metadata ∧
      l.requestId = requestId := by
  simp only [withOptions, ite_error_eq_ok, bind_eq_ok, pure_eq_ok] at h
  obtain ⟨-, hwire, -, _, hpre, rfl⟩ := h
  have hwire := Nat.le_of_not_lt hwire
  obtain ⟨wire, hw, hadmitted⟩ := preflightOutboundWithSdu_ok_iff.mp hpre
  rw [OutboundResource.metadataWire_eq hwire] at hw
  obtain rfl := Except.ok.inj hw
  rw [Option.isSome_map] at hadmitted
  refine ⟨⟨le_rfl, fun _ => rfl, fun _ => rfl, hwire, le_rfl, ?_⟩, rfl,
    requiredSegmentCount_eq _ _, hadmitted, rfl, rfl, rfl⟩
  rw [requiredSegmentCount_eq, ← length_segmentContents, Nat.add_comm]
  rfl

/-- Data that passes the preflight check is accepted. -/
theorem exists_withOptions [Sha256] (randomHash : Octets 4) (autoCompress : Bool)
    (h : Admitted data.length (OutboundResource.metadataWireSize metadata) requestId isResponse true
      metadata.isSome sdu Wire.mtu) :
    ∃ l, withOptions randomHash data autoCompress metadata requestId isResponse = .ok l := by
  have hpre : preflightOutbound data.length (metadata.map List.length) requestId isResponse true
      Wire.mtu = .ok () := by
    refine preflightOutboundWithSdu_ok_iff.mpr ⟨_, OutboundResource.metadataWire_eq h.wire_le, ?_⟩
    rwa [Option.isSome_map]
  rw [withOptions]
  simp only [requiredSegmentCount_eq, hpre, ok_bind, if_neg (Nat.not_lt.mpr h.dataLen_le),
    if_neg (Nat.not_lt.mpr h.wire_le), if_neg (Nat.not_lt.mpr h.segmentCount_le)]
  exact ⟨_, rfl⟩

section Plan

variable {l : LazyMultiSegmentOutbound}

/-- The payload of the next segment. -/
def nextChunk (l : LazyMultiSegmentOutbound) : Bytes := (l.data.take l.nextEnd).drop l.nextOffset

/-- The next segment and the ones behind its end. -/
private theorem pending_eq (h : l.Planned) (hle : l.nextSegmentIndex ≤ l.totalSegments) :
    l.pending = (l.nextChunk, l.nextMetadata.map OutboundResource.frameMetadata) ::
      (chunks maxEfficientSize (l.data.drop l.nextEnd)).map plainContent := by
  have hdrop (n : ℕ) : l.data.drop (min n l.data.length) = l.data.drop n := by
    rcases Nat.le_total n l.data.length with hn | hn
    · rw [Nat.min_eq_left hn]
    · rw [Nat.min_eq_right hn, drop_length, drop_of_length_le hn]
  by_cases hone : l.nextSegmentIndex = 1
  · have hend : l.nextEnd = min (maxEfficientSize - l.metadataWireSize) l.data.length := by
      rw [nextEnd, if_pos hone, h.offset_eq hone, Nat.zero_add]
    rw [pending, if_pos hone, segmentContents, nextChunk, nextMetadata, if_pos hone,
      h.offset_eq hone, drop_zero, hend, hdrop, h.wire_eq hone, take_eq_take_min]
  · have hend : l.nextEnd = min (l.nextOffset + maxEfficientSize) l.data.length := by
      rw [nextEnd, if_neg hone]
    have hne : l.data.drop l.nextOffset ≠ [] := by
      intro hnil
      have hlen := h.length_pending
      rw [pending, if_neg hone, hnil, chunks_nil, map_nil, length_nil] at hlen
      omega
    have hchunk : l.nextChunk = (l.data.drop l.nextOffset).take maxEfficientSize := by
      rw [nextChunk, hend, drop_take]
      rcases Nat.le_total (l.nextOffset + maxEfficientSize) l.data.length with hn | hn
      · rw [Nat.min_eq_left hn, Nat.add_sub_cancel_left]
      · rw [Nat.min_eq_right hn, take_of_length_le (by simp),
          take_of_length_le (by rw [length_drop]; omega)]
    rw [pending, if_neg hone, chunks_cons (by decide) hne, map_cons, nextMetadata,
      if_neg hone, hchunk, drop_drop, hend, hdrop]
    rfl

/-- Advancing removes the first of the pending segments. -/
private theorem pending_advance (h : l.Planned) (hle : l.nextSegmentIndex ≤ l.totalSegments) :
    l.advance.pending = (chunks maxEfficientSize (l.data.drop l.nextEnd)).map plainContent := by
  have hidx : ¬ l.nextSegmentIndex + 1 = 1 := by
    have := h.index_pos
    omega
  have hpending : l.advance.pending = (chunks maxEfficientSize
      ((if l.totalSegments < l.nextSegmentIndex + 1 then [] else l.data).drop l.nextEnd)).map
        plainContent := if_neg hidx
  rw [hpending]
  split_ifs with hlast
  · have hlen := h.length_pending
    rw [pending_eq h hle, length_cons] at hlen
    rw [drop_nil, chunks_nil, map_nil]
    exact (length_eq_zero_iff.mp (by omega)).symm
  · rfl

/-- The content of the next segment fits. -/
private theorem length_nextChunk_le (h : l.Planned) :
    OutboundResource.metadataWireSize l.nextMetadata + l.nextChunk.length ≤ maxEfficientSize ∧
      OutboundResource.metadataWireSize l.nextMetadata + l.nextChunk.length ≤
        l.dataSize + l.metadataWireSize := by
  have hlen : l.nextChunk.length = l.nextEnd - l.nextOffset := by
    rw [nextChunk, length_drop, length_take, Nat.min_eq_left]
    exact Nat.min_le_right _ _
  have hend : l.nextEnd ≤ l.data.length := Nat.min_le_right _ _
  have hdata := h.length_le
  have hwire := h.wire_le
  rw [hlen]
  by_cases hone : l.nextSegmentIndex = 1
  · have hle : l.nextEnd ≤ l.nextOffset + (maxEfficientSize - l.metadataWireSize) := by
      rw [nextEnd, if_pos hone]
      exact Nat.min_le_left _ _
    rw [nextMetadata, if_pos hone, ← h.wire_eq hone]
    omega
  · have hle : l.nextEnd ≤ l.nextOffset + maxEfficientSize := by
      rw [nextEnd, if_neg hone]
      exact Nat.min_le_left _ _
    have hnone : OutboundResource.metadataWireSize l.nextMetadata = 0 := by
      rw [nextMetadata, if_neg hone]
      rfl
    omega

private theorem Planned.advance (h : l.Planned) (hle : l.nextSegmentIndex ≤ l.totalSegments) :
    l.advance.Planned where
  index_pos := Nat.le_add_left _ _
  offset_eq heq := absurd (Nat.succ.inj heq) (Nat.pos_iff_ne_zero.mp h.index_pos)
  wire_eq heq := absurd (Nat.succ.inj heq) (Nat.pos_iff_ne_zero.mp h.index_pos)
  wire_le := h.wire_le
  length_le := by
    simp only [LazyMultiSegmentOutbound.advance]
    split_ifs
    · exact Nat.zero_le _
    · exact h.length_le
  length_pending := by
    have hlen := h.length_pending
    rw [pending_eq h hle, length_cons] at hlen
    rw [pending_advance h hle]
    simp only [LazyMultiSegmentOutbound.advance]
    omega

end Plan

section Take

variable [Sha256] [Bzip2] (random : Randomness) {l : LazyMultiSegmentOutbound}

/-- A segment of a plan: some attempt at content that fits, tied to the other segments. -/
def SegmentOf (l : LazyMultiSegmentOutbound) (r : OutboundResource) : Prop :=
  ∃ (index attempt : ℕ) (chunk : Bytes) (metadata : Option Bytes), index ≤ l.totalSegments ∧
    OutboundResource.metadataWireSize metadata + chunk.length ≤ maxEfficientSize ∧
    OutboundResource.metadataWireSize metadata + chunk.length ≤ l.dataSize + l.metadataWireSize ∧
    r = { l with nextSegmentIndex := index }.tie
      (build (random.tag index attempt) (random.encrypt index attempt) chunk
        l.autoCompress metadata none)

/-- A plan with segments left yields the next one. -/
theorem nextSegment_of_le (h : l.Planned) (hle : l.nextSegmentIndex ≤ l.totalSegments) :
    ∃ r, l.nextSegment random = (l.advance, .ok (some r)) ∧
      r.content = (l.nextChunk, l.nextMetadata.map OutboundResource.frameMetadata) ∧
      SegmentOf random l r := by
  obtain ⟨hmax, htotal⟩ := length_nextChunk_le h
  have hcheck : OutboundResource.check l.nextChunk l.nextMetadata none
      (random.encryptFn.map (· l.nextSegmentIndex)).isSome = .ok () :=
    OutboundResource.check_of_le _ hmax
  obtain ⟨r, hr⟩ : ∃ r, OutboundResource.withOptions (random.tag l.nextSegmentIndex)
      (random.encryptFn.map (· l.nextSegmentIndex)) l.nextChunk l.autoCompress l.nextMetadata none =
        .ok r := OutboundResource.exists_withOptions hcheck
  obtain ⟨-, attempt, hbuild⟩ := OutboundResource.withOptions_ok hr
  refine ⟨l.tie r, ?_, by rw [hbuild]; rfl, l.nextSegmentIndex, attempt, l.nextChunk,
    l.nextMetadata, hle, hmax, htotal, ?_⟩
  · rw [nextSegment, if_neg (Nat.not_lt.mpr hle)]
    rw [nextChunk] at hr
    simp only [hr]
  · rw [hbuild, Option.map_map]
    rfl

/-- The segments of a plan come in order, and nothing comes after the last one. -/
theorem take_eq_ok (h : l.Planned) (n : ℕ) :
    ∃ rs, l.take random n = .ok rs ∧ rs.map content = l.pending.take n ∧
      ∀ r ∈ rs, SegmentOf random l r := by
  induction n generalizing l with
  | zero => exact ⟨[], rfl, rfl, by simp⟩
  | succ n ih =>
    by_cases hle : l.nextSegmentIndex ≤ l.totalSegments
    · obtain ⟨r, hr, hcontent, hsegment⟩ := nextSegment_of_le random h hle
      obtain ⟨rs, hrs, hcontents, hsegments⟩ := ih (h.advance hle)
      refine ⟨r :: rs, by simp [take, hr, hrs], ?_, ?_⟩
      · rw [pending_eq h hle, map_cons, take_succ_cons, hcontent, hcontents, pending_advance h hle]
      · exact forall_mem_cons.mpr ⟨hsegment, hsegments⟩
    · have hlen := h.length_pending
      have hnil : l.pending = [] := length_eq_zero_iff.mp (by omega)
      refine ⟨[], ?_, by rw [hnil]; rfl, by simp⟩
      rw [take, nextSegment, if_pos (Nat.lt_of_not_le hle)]

end Take

end LazyMultiSegmentOutbound

/-! ### The receiver -/

/-- `MultiSegmentInbound`. -/
structure MultiSegmentInbound where
  originalHash : Octets 32
  totalSegments : ℕ
  segments : List (Option InboundResource)
  assembledSegments : List (Option Bytes)
  dataSize : ℕ
  metadata : Option Bytes
  deriving DecidableEq, Repr

namespace MultiSegmentInbound

/-- `MultiSegmentInbound::new`. -/
def new (totalSegments : ℕ) (originalHash : Octets 32) : MultiSegmentInbound where
  originalHash := originalHash
  totalSegments := totalSegments
  segments := List.replicate totalSegments none
  assembledSegments := List.replicate totalSegments none
  dataSize := 0
  metadata := none

/-- `MultiSegmentInbound::set_segment_data`. -/
def setSegmentData (m : MultiSegmentInbound) (segmentIndex : ℕ) (data : Bytes) :
    MultiSegmentInbound × Except ResourceError Unit :=
  if segmentIndex < 1 ∨ m.totalSegments < segmentIndex then (m, .error .invalidAdvertisement)
  else
    let idx := segmentIndex - 1
    if (m.assembledSegments[idx]?.join).isSome then (m, .error .duplicateSegment)
    else
      ({ m with
          dataSize := min (m.dataSize + data.length) usizeMax
          assembledSegments := m.assembledSegments.set idx (some data) },
        .ok ())

/-- `MultiSegmentInbound::set_metadata`. -/
def setMetadata (m : MultiSegmentInbound) (metadata : Bytes) : MultiSegmentInbound :=
  if m.metadata.isNone then { m with metadata := some metadata } else m

/-- `MultiSegmentInbound::is_complete`. -/
def isComplete (m : MultiSegmentInbound) : Bool := m.assembledSegments.all Option.isSome

/-- `MultiSegmentInbound::reassemble`. -/
def reassemble (m : MultiSegmentInbound) : Except ResourceError Bytes :=
  if ¬ m.isComplete then .error .incomplete
  else
    match m.assembledSegments.mapM id with
    | none => .error .incomplete
    | some segments => .ok segments.flatten

end MultiSegmentInbound

end Reticulum.Resource
