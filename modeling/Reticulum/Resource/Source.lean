import Reticulum.Resource.Segments
import Reticulum.Resource.Sender

/-!
# Streaming sources

Resources read from a seekable source, `resource_source.rs` of `rns-runtime`: small ones are read
whole, large ones segment by segment. A read may return fewer bytes than asked for, and it may
fail.
-/

namespace Reticulum.Resource

open OutboundResource List

/-! ### Reading -/

/-- A seekable source with stable content. `grant k n` is how many of the available bytes the
`k`-th read, of at most `n` bytes, returns; it is at least one byte before the end. Without a value
the read fails. Without `seekable` every seek fails. -/
structure Source where
  content : Bytes
  seekable : Bool
  position : ℕ
  reads : ℕ
  grant : ℕ → ℕ → Option ℕ

/-- `ResourceSourceError`. -/
inductive ResourceSourceError
  | io
  | tooLarge
  | tooManySegments
  | protocol (error : ResourceError)
  deriving DecidableEq, Repr

namespace Source

/-- What is left to read. -/
def rest (s : Source) : Bytes := s.content.drop s.position

/-- `Read::read` into a buffer of `n` bytes. -/
def read (s : Source) (n : ℕ) : Source × Except ResourceSourceError Bytes :=
  let available := min n s.rest.length
  match s.grant s.reads n with
  | none => ({ s with reads := s.reads + 1 }, .error .io)
  | some k =>
    let count := min available (max 1 k)
    ({ s with position := s.position + count, reads := s.reads + 1 }, .ok (s.rest.take count))

/-- The loop that fills a buffer of `limit` bytes, `filled` of which are read. -/
def fillFrom : ℕ → Source → ℕ → Bytes → Source × Except ResourceSourceError Bytes
  | 0, s, _, filled => (s, .ok filled)
  | fuel + 1, s, limit, filled =>
    if limit ≤ filled.length then (s, .ok filled)
    else
      match s.read (limit - filled.length) with
      | (s, .error e) => (s, .error e)
      | (s, .ok []) => (s, .ok filled)
      | (s, .ok (b :: bytes)) => fillFrom fuel s limit (filled ++ b :: bytes)

/-- Fill a buffer of `limit` bytes as far as the source goes. -/
def fill (s : Source) (limit : ℕ) : Source × Except ResourceSourceError Bytes :=
  s.fillFrom limit limit []

/-- The loop that reads to the end, `n` bytes at a time. -/
def drainFrom (n : ℕ) : ℕ → Source → Bytes → Source × Except ResourceSourceError Bytes
  | 0, s, filled => (s, .ok filled)
  | fuel + 1, s, filled =>
    match s.read n with
    | (s, .error e) => (s, .error e)
    | (s, .ok []) => (s, .ok filled)
    | (s, .ok (b :: bytes)) => drainFrom n fuel s (filled ++ b :: bytes)

/-- Read to the end. -/
def drain (s : Source) (n : ℕ) : Source × Except ResourceSourceError Bytes :=
  s.drainFrom n (s.rest.length + 1) []

/-- `Seek::seek` to the start. -/
def rewind (s : Source) : Source := { s with position := 0 }

/-- Neither a read nor a seek fails. -/
def Reliable (s : Source) : Prop := s.seekable = true ∧ ∀ k n, (s.grant k n).isSome

section

variable {s : Source}

/-- A read of a reliable source returns some of the next bytes, and none only at the end. -/
theorem read_eq (hs : s.Reliable) {n : ℕ} (hn : 0 < n) :
    ∃ s' k, s.read n = (s', .ok (s.rest.take k)) ∧ k ≤ n ∧ k ≤ s.rest.length ∧
      (s.rest ≠ [] → 0 < k) ∧ s'.rest = s.rest.drop k ∧ s'.content = s.content ∧
      s'.Reliable := by
  obtain ⟨k, hk⟩ := Option.isSome_iff_exists.mp (hs.2 s.reads n)
  refine ⟨{ s with
      position := s.position + min (min n s.rest.length) (max 1 k), reads := s.reads + 1 },
    min (min n s.rest.length) (max 1 k), by simp only [read, hk], by omega, by omega,
    fun hne => ?_, ?_, rfl, hs⟩
  · have := length_pos_iff.mpr hne
    omega
  · simp only [rest, drop_drop]

/-- The loop appends what is missing, as far as the source goes. -/
theorem fillFrom_eq (hs : s.Reliable) {fuel limit : ℕ} {filled : Bytes}
    (hfuel : limit ≤ filled.length + fuel) :
    ∃ s', s.fillFrom fuel limit filled =
        (s', .ok (filled ++ s.rest.take (limit - filled.length))) ∧
      s'.rest = s.rest.drop (limit - filled.length) ∧ s'.Reliable := by
  induction fuel generalizing s filled with
  | zero =>
    have hzero : limit - filled.length = 0 := by omega
    exact ⟨s, by simp [fillFrom, hzero], by rw [hzero, drop_zero], hs⟩
  | succ fuel ih =>
    by_cases hdone : limit ≤ filled.length
    · have hzero : limit - filled.length = 0 := by omega
      exact ⟨s, by simp [fillFrom, hdone, hzero], by rw [hzero, drop_zero], hs⟩
    · obtain ⟨s', k, hread, hk, hlen, hpos, hrest, -, hs'⟩ :=
        read_eq hs (n := limit - filled.length) (by omega)
      rw [fillFrom, if_neg hdone, hread]
      by_cases hnil : s.rest = []
      · have hzero : k = 0 := by
          rw [hnil] at hlen
          exact Nat.le_zero.mp hlen
        refine ⟨s', by simp [hnil, hzero], ?_, hs'⟩
        rw [hrest, hnil, drop_nil, drop_nil]
      · have hk' := hpos hnil
        have htake : (s.rest.take k).length = k := by
          rw [length_take, Nat.min_eq_left hlen]
        obtain ⟨b, bytes, hcons⟩ := exists_cons_of_length_pos (htake.symm ▸ hk')
        have hlen' : (filled ++ s.rest.take k).length = filled.length + k := by
          rw [length_append, htake]
        obtain ⟨s'', hfill, hrest', hs''⟩ :=
          @ih s' hs' (filled ++ s.rest.take k) (by omega)
        have hsplit : limit - filled.length = k + (limit - (filled ++ s.rest.take k).length) := by
          omega
        refine ⟨s'', ?_, ?_, hs''⟩
        · simp only [hcons] at hfill ⊢
          rw [hfill, hsplit, take_add, hrest, hcons]
          simp
        · rw [hrest', hrest, drop_drop, ← hsplit]

theorem fill_eq (hs : s.Reliable) (limit : ℕ) :
    ∃ s', s.fill limit = (s', .ok (s.rest.take limit)) ∧ s'.rest = s.rest.drop limit ∧
      s'.Reliable := by
  have hfill := @fillFrom_eq s hs limit limit [] (by simp)
  simpa [fill] using hfill

/-- Reading to the end gives everything that is left. -/
theorem drainFrom_eq (hs : s.Reliable) {n fuel : ℕ} (hn : 0 < n) (hfuel : s.rest.length < fuel)
    (filled : Bytes) :
    ∃ s', s.drainFrom n fuel filled = (s', .ok (filled ++ s.rest)) ∧ s'.content = s.content ∧
      s'.Reliable := by
  induction fuel generalizing s filled with
  | zero => exact absurd hfuel (Nat.not_lt_zero _)
  | succ fuel ih =>
    obtain ⟨s', k, hread, -, hlen, hpos, hrest, hcontent, hs'⟩ := read_eq hs hn
    rw [drainFrom, hread]
    by_cases hnil : s.rest = []
    · exact ⟨s', by simp [hnil], hcontent, hs'⟩
    · have hk := hpos hnil
      have htake : (s.rest.take k).length = k := by
        rw [length_take, Nat.min_eq_left hlen]
      obtain ⟨b, bytes, hcons⟩ := exists_cons_of_length_pos (htake.symm ▸ hk)
      have hshort : s'.rest.length < fuel := by
        rw [hrest, length_drop]
        omega
      obtain ⟨s'', hdrain, hcontent', hs''⟩ := ih hs' hshort (filled ++ s.rest.take k)
      refine ⟨s'', ?_, hcontent'.trans hcontent, hs''⟩
      simp only [hcons] at hdrain ⊢
      rw [hdrain, hrest, append_assoc, ← hcons, take_append_drop]

theorem drain_eq (hs : s.Reliable) {n : ℕ} (hn : 0 < n) :
    ∃ s', s.drain n = (s', .ok s.rest) ∧ s'.content = s.content ∧ s'.Reliable := by
  simpa [drain] using drainFrom_eq hs hn (Nat.lt_succ_self _) []

end

end Source

/-! ### Prepared sources -/

/-- `ResourceOptions`. -/
structure ResourceOptions where
  autoCompress : Bool
  metadata : Option Bytes
  deriving DecidableEq, Repr

/-- `ResourcePurpose`. -/
inductive ResourcePurpose
  | ordinary
  | request (requestId : Octets 16)
  deriving DecidableEq, Repr

namespace ResourcePurpose

/-- The request id of a purpose. -/
def requestId : ResourcePurpose → Option Bytes
  | ordinary => none
  | request id => some id.1

/-- `ResourcePurpose::apply`. -/
def apply (purpose : ResourcePurpose) (resource : OutboundResource) : OutboundResource :=
  match purpose with
  | ordinary => resource
  | request id =>
    { resource with
      flags := { resource.flags with isRequest := true }
      requestId := some id.1 }

end ResourcePurpose

/-- `PreparedResourceSegment`. -/
structure PreparedResourceSegment where
  transfer : OutboundTransfer
  logicalHash : Octets 32
  segmentIndex : ℕ
  totalSegments : ℕ
  dataSize : ℕ
  segmentDataSize : ℕ

/-- The variant `Split` of `PreparedResourceSource`. -/
structure SplitSource where
  source : Source
  options : ResourceOptions
  purpose : ResourcePurpose
  dataSize : ℕ
  metadataWireSize : ℕ
  originalHash : Octets 32
  totalSegments : ℕ
  nextSegmentIndex : ℕ

/-- `PreparedResourceSource`. -/
inductive PreparedResourceSource
  | single (data : Option Bytes) (options : ResourceOptions) (purpose : ResourcePurpose)
  | split (s : SplitSource)

section

variable [Sha256]

/-- The part of `prepare_with_purpose` for content beyond one segment, which is hashed first. -/
def SplitSource.prepare (randomHash : Octets 4) (source : Source) (options : ResourceOptions)
    (purpose : ResourcePurpose) : Except ResourceSourceError SplitSource :=
  let dataSize := source.content.length
  let metadataWireSize := OutboundResource.metadataWireSize options.metadata
  if maxEfficientSize < metadataWireSize then .error (.protocol .metadataTooLarge)
  else
    let totalSegments := segmentCount dataSize metadataWireSize
    if maxSegments < totalSegments then .error .tooManySegments
    else
      match source.drain (64 * 1024) with
      | (_, .error e) => .error e
      | (source, .ok content) => .ok {
          source := source.rewind
          options
          purpose
          dataSize
          metadataWireSize
          originalHash := computeResourceHash content randomHash.1
          totalSegments
          nextSegmentIndex := 0 }

/-- `PreparedResourceSource::prepare_with_purpose`. -/
def PreparedResourceSource.prepareWithPurpose (randomHash : Octets 4) (source : Source)
    (options : ResourceOptions) (purpose : ResourcePurpose) :
    Except ResourceSourceError PreparedResourceSource :=
  if ¬ source.seekable then .error .io
  else if maxResourceSize < source.content.length then .error .tooLarge
  else do
    let source := source.rewind
    let dataSize := source.content.length
    let metadataWireSize := metadataWireSize options.metadata
    (preflightOutbound dataSize (options.metadata.map List.length) purpose.requestId false true
      Wire.mtu).mapError .protocol
    if metadataWireSize + dataSize ≤ maxEfficientSize then
      match source.drain maxEfficientSize with
      | (_, .error e) => .error e
      | (_, .ok data) => .ok (.single (some data) options purpose)
    else (SplitSource.prepare randomHash source options purpose).map .split

variable [Bzip2] (tag : ℕ → ℕ → Octets 4) (encrypt : ℕ → ℕ → Bytes → Bytes) (rtt now : ℕ)

/-- `next_segment` of a split source. A failure has taken the metadata and what was read. -/
def SplitSource.nextSegment (s : SplitSource) :
    SplitSource × Except ResourceSourceError (Option PreparedResourceSegment) :=
  if s.totalSegments ≤ s.nextSegmentIndex then (s, .ok none)
  else
    let segmentIndex := s.nextSegmentIndex + 1
    let metadata := if segmentIndex = 1 then s.options.metadata else none
    let options := { s.options with
      metadata := if segmentIndex = 1 then none else s.options.metadata }
    let payloadLimit := if segmentIndex = 1
      then maxEfficientSize - OutboundResource.metadataWireSize metadata else maxEfficientSize
    match s.source.fill payloadLimit with
    | (source, .error e) => ({ s with source, options }, .error e)
    | (source, .ok data) =>
      match withOptions (tag segmentIndex) (some (encrypt segmentIndex)) data
          options.autoCompress metadata none with
      | .error e => ({ s with source, options }, .error (.protocol e))
      | .ok resource =>
        let resource := s.purpose.apply resource
        let resource := { resource with
          flags := { resource.flags with split := true }
          segmentIndex
          totalSegments := s.totalSegments
          originalHash := some s.originalHash
          advertisementDataSize := s.dataSize + s.metadataWireSize }
        ({ s with source, options, nextSegmentIndex := segmentIndex }, .ok (some {
          transfer := .fromResource resource rtt now
          logicalHash := s.originalHash
          segmentIndex
          totalSegments := s.totalSegments
          dataSize := s.dataSize
          segmentDataSize := data.length }))

namespace PreparedResourceSource

/-- `PreparedResourceSource::next_segment`. -/
def nextSegment : PreparedResourceSource →
    PreparedResourceSource × Except ResourceSourceError (Option PreparedResourceSegment)
  | single none options purpose => (single none options purpose, .ok none)
  | single (some data) options purpose =>
    let after := single none { options with metadata := none } purpose
    match withOptions (tag 1) (some (encrypt 1)) data options.autoCompress
        options.metadata none with
    | .error e => (after, .error (.protocol e))
    | .ok resource =>
      let resource := purpose.apply resource
      (after, .ok (some {
        transfer := .fromResource resource rtt now
        logicalHash := resource.resourceHash
        segmentIndex := 1
        totalSegments := 1
        dataSize := data.length
        segmentDataSize := data.length }))
  | split s =>
    let (s, result) := s.nextSegment tag encrypt rtt now
    (split s, result)

/-- The segments of at most `n` calls, up to the first call that returns none. -/
def take : ℕ → PreparedResourceSource → Except ResourceSourceError (List PreparedResourceSegment)
  | 0, _ => .ok []
  | n + 1, p =>
    match p.nextSegment tag encrypt rtt now with
    | (_, .error e) => .error e
    | (_, .ok none) => .ok []
    | (p, .ok (some segment)) => do
      let segments ← take n p
      return segment :: segments

end PreparedResourceSource

end

/-! ### What the segments of a source contain -/

/-- The content of the segment in a transfer. -/
def PreparedResourceSegment.content (p : PreparedResourceSegment) : Bytes × Option Bytes :=
  p.transfer.resource.content

@[simp] theorem ResourcePurpose.content_apply (purpose : ResourcePurpose)
    (resource : OutboundResource) : (purpose.apply resource).content = resource.content := by
  cases purpose <;> rfl

variable {metadata : Option Bytes}

/-- Content that fits one segment has one segment. -/
theorem segmentContents_of_le {data : Bytes}
    (h : metadataWireSize metadata + data.length ≤ maxEfficientSize) :
    segmentContents data metadata = [(data, metadata.map frameMetadata)] := by
  have hlen : data.length ≤ maxEfficientSize - metadataWireSize metadata := by
    omega
  rw [segmentContents, take_of_length_le hlen, drop_of_length_le hlen, chunks_nil, map_nil]

/-- Content that fits one segment is built. -/
private theorem exists_resource [Sha256] [Bzip2] (rng : ℕ → Octets 4)
    (encryptFn : ℕ → Bytes → Bytes) (data : Bytes) (autoCompress : Bool) (metadata : Option Bytes)
    (h : metadataWireSize metadata + data.length ≤ maxEfficientSize) :
    ∃ r, withOptions rng (some encryptFn) data autoCompress metadata none =
      .ok r ∧ r.content = (data, metadata.map frameMetadata) := by
  obtain ⟨r, hr⟩ : ∃ r, withOptions rng (some encryptFn) data autoCompress
      metadata none = .ok r :=
    exists_withOptions (check_of_le _ h)
  obtain ⟨-, attempt, hbuild⟩ := withOptions_ok hr
  exact ⟨r, hr, by rw [hbuild]; rfl⟩

namespace SplitSource

/-- The contents of the segments that are still to come. -/
def pending (s : SplitSource) : List (Bytes × Option Bytes) :=
  if s.nextSegmentIndex = 0 then segmentContents s.source.rest s.options.metadata
  else (chunks maxEfficientSize s.source.rest).map plainContent

/-- A split source that has yielded some of its segments. -/
structure Planned (s : SplitSource) : Prop where
  reliable : s.source.Reliable
  wire_le : s.nextSegmentIndex = 0 →
    OutboundResource.metadataWireSize s.options.metadata ≤ maxEfficientSize
  length_pending : s.nextSegmentIndex + s.pending.length = s.totalSegments

section

variable [Sha256] [Bzip2] (tag : ℕ → ℕ → Octets 4) (encrypt : ℕ → ℕ → Bytes → Bytes) (rtt now : ℕ)
  {s : SplitSource}

/-- What a filled buffer makes of the pending segments. -/
private theorem nextSegment_of_fill (h : s.Planned) (hlt : s.nextSegmentIndex < s.totalSegments)
    {payloadLimit : ℕ}
    (hmetadata : metadata = if s.nextSegmentIndex + 1 = 1 then s.options.metadata else none)
    (hlimit : payloadLimit = if s.nextSegmentIndex + 1 = 1
      then maxEfficientSize - OutboundResource.metadataWireSize metadata else maxEfficientSize)
    (hle : OutboundResource.metadataWireSize metadata + payloadLimit ≤ maxEfficientSize)
    (hpending : s.pending = (s.source.rest.take payloadLimit,
      metadata.map frameMetadata) ::
        (chunks maxEfficientSize (s.source.rest.drop payloadLimit)).map plainContent) :
    ∃ s' segment, s.nextSegment tag encrypt rtt now = (s', .ok (some segment)) ∧
      s.pending = segment.content :: s'.pending ∧ s'.Planned := by
  obtain ⟨source, hfill, hrest, hreliable⟩ := Source.fill_eq h.reliable payloadLimit
  have htake := length_take_le payloadLimit s.source.rest
  obtain ⟨r, hr, hcontent⟩ := exists_resource (tag (s.nextSegmentIndex + 1))
    (encrypt (s.nextSegmentIndex + 1)) (s.source.rest.take payloadLimit) s.options.autoCompress
    metadata (by omega)
  have hnext : ¬ s.nextSegmentIndex + 1 = 0 := Nat.succ_ne_zero _
  have hlen := h.length_pending
  rw [hpending, length_cons, ← hrest] at hlen
  rw [nextSegment, if_neg (Nat.not_le.mpr hlt)]
  simp only [← hmetadata, ← hlimit, hfill, hr]
  refine ⟨_, _, rfl, ?_, hreliable, fun heq => absurd heq hnext, ?_⟩
  · rw [hpending, pending, if_neg hnext, hrest]
    simp only [PreparedResourceSegment.content, OutboundTransfer.fromResource]
    rw [← hcontent, ← ResourcePurpose.content_apply s.purpose r]
    rfl
  · rw [pending, if_neg hnext]
    simp only
    omega

/-- A split source with segments left yields the next one. -/
theorem nextSegment_of_lt (h : s.Planned) (hlt : s.nextSegmentIndex < s.totalSegments) :
    ∃ s' segment, s.nextSegment tag encrypt rtt now = (s', .ok (some segment)) ∧
      s.pending = segment.content :: s'.pending ∧ s'.Planned := by
  by_cases hzero : s.nextSegmentIndex = 0
  · have hone : s.nextSegmentIndex + 1 = 1 := by omega
    have hwire := h.wire_le hzero
    refine nextSegment_of_fill tag encrypt rtt now h hlt (if_pos hone).symm (if_pos hone).symm
      (by omega) ?_
    rw [pending, if_pos hzero, segmentContents]
  · have hone : ¬ s.nextSegmentIndex + 1 = 1 := by omega
    have hne : s.source.rest ≠ [] := by
      intro hnil
      have hlen := h.length_pending
      rw [pending, if_neg hzero, hnil, chunks_nil, map_nil, length_nil] at hlen
      omega
    refine nextSegment_of_fill tag encrypt rtt now h hlt (if_neg hone).symm (if_neg hone).symm
      le_rfl ?_
    rw [pending, if_neg hzero, chunks_cons (by decide) hne, map_cons]
    rfl

end

end SplitSource

namespace PreparedResourceSource

/-- The contents of the segments that are still to come. -/
def pending : PreparedResourceSource → List (Bytes × Option Bytes)
  | single none _ _ => []
  | single (some data) options _ => segmentContents data options.metadata
  | split s => s.pending

/-- A prepared source that has yielded some of its segments. -/
def Planned : PreparedResourceSource → Prop
  | single data options _ => ∀ d ∈ data,
    metadataWireSize options.metadata + d.length ≤ maxEfficientSize
  | split s => s.Planned

section

variable [Sha256] [Bzip2] (tag : ℕ → ℕ → Octets 4) (encrypt : ℕ → ℕ → Bytes → Bytes) (rtt now : ℕ)
  {p : PreparedResourceSource}

/-- A call yields the first of the segments that are still to come, if there is one. -/
theorem nextSegment_eq (h : p.Planned) :
    (p.pending = [] ∧ p.nextSegment tag encrypt rtt now = (p, .ok none)) ∨
      ∃ p' segment, p.nextSegment tag encrypt rtt now = (p', .ok (some segment)) ∧
        p.pending = segment.content :: p'.pending ∧ p'.Planned := by
  match p with
  | single none options purpose => exact .inl ⟨rfl, rfl⟩
  | single (some data) options purpose =>
    have hle := h data rfl
    obtain ⟨r, hr, hcontent⟩ := exists_resource (tag 1) (encrypt 1) data options.autoCompress
      options.metadata hle
    refine .inr ⟨_, _, by simp only [nextSegment, hr]; rfl, ?_, by simp [Planned]⟩
    have hpending : (single (some data) options purpose).pending =
        segmentContents data options.metadata := rfl
    rw [hpending, segmentContents_of_le hle, ← hcontent,
      ← ResourcePurpose.content_apply purpose r]
    rfl
  | split s =>
    have hs : s.Planned := h
    rcases Nat.lt_or_ge s.nextSegmentIndex s.totalSegments with hlt | hge
    · obtain ⟨s', segment, hnext, hpending, hs'⟩ :=
        SplitSource.nextSegment_of_lt tag encrypt rtt now hs hlt
      exact .inr ⟨split s', segment, by simp only [nextSegment, hnext], hpending, hs'⟩
    · have hlen := hs.length_pending
      refine .inl ⟨length_eq_zero_iff.mp (by rw [pending]; omega), ?_⟩
      rw [nextSegment, SplitSource.nextSegment, if_pos hge]

/-- The segments of a prepared source come in order, and nothing comes after the last one. -/
theorem take_eq_ok (h : p.Planned) (n : ℕ) :
    ∃ segments, p.take tag encrypt rtt now n = .ok segments ∧
      segments.map PreparedResourceSegment.content = p.pending.take n := by
  induction n generalizing p with
  | zero => exact ⟨[], rfl, rfl⟩
  | succ n ih =>
    rcases nextSegment_eq tag encrypt rtt now h with ⟨hnil, hnext⟩ | ⟨p', seg, hnext, hcons, h'⟩
    · exact ⟨[], by rw [take, hnext], by rw [hnil]; rfl⟩
    · obtain ⟨segments, hsegments, hcontents⟩ := ih h'
      refine ⟨seg :: segments, by simp [take, hnext, hsegments], ?_⟩
      rw [map_cons, hcontents, hcons, take_succ_cons]

end

/-- Content that passes the preflight check is accepted from a source that does not fail. -/
theorem exists_prepareWithPurpose [Sha256] (randomHash : Octets 4) {source : Source}
    (hs : source.Reliable) (options : ResourceOptions) (purpose : ResourcePurpose)
    (h : Admitted source.content.length (metadataWireSize options.metadata)
      purpose.requestId false true options.metadata.isSome sdu Wire.mtu) :
    ∃ p, prepareWithPurpose randomHash source options purpose = .ok p ∧ p.Planned ∧
      p.pending = segmentContents source.content options.metadata := by
  have hwire := h.wire_le
  have hpre : preflightOutbound source.content.length (options.metadata.map List.length)
      purpose.requestId false true Wire.mtu = .ok () := by
    refine preflightOutboundWithSdu_ok_iff.mpr ⟨_, metadataWire_eq hwire, ?_⟩
    rwa [Option.isSome_map]
  have hrest : source.rewind.rest = source.content := rfl
  have hrewind : source.rewind.Reliable := hs
  rw [prepareWithPurpose, if_neg (by simp [hs.1]), if_neg (Nat.not_lt.mpr h.dataLen_le)]
  have hlen : source.rewind.content = source.content := rfl
  simp only [hlen, hpre, mapError_ok, ok_bind]
  split_ifs with hone
  · obtain ⟨_, hdrain, -, -⟩ := Source.drain_eq hrewind (n := maxEfficientSize) (by decide)
    rw [hdrain, hrest]
    refine ⟨_, rfl, ?_, rfl⟩
    rintro d ⟨⟩
    exact hone
  · obtain ⟨source', hdrain, hcontent, hreliable⟩ :=
      Source.drain_eq hrewind (n := 64 * 1024) (by decide)
    rw [SplitSource.prepare]
    simp only [hlen, hdrain]
    rw [if_neg (Nat.not_lt.mpr hwire), if_neg (Nat.not_lt.mpr h.segmentCount_le)]
    have hpending : segmentContents source'.rewind.rest options.metadata =
        segmentContents source.content options.metadata := congrArg (segmentContents · _) hcontent
    refine ⟨_, rfl, ⟨hreliable, fun _ => hwire, ?_⟩, hpending⟩
    have hcount := length_segmentContents source.content options.metadata
    rw [← hpending] at hcount
    rw [← hcount, Nat.zero_add]
    rfl

end PreparedResourceSource

end Reticulum.Resource
