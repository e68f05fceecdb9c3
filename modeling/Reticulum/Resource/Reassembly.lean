import Reticulum.Resource.Source

/-!
# Cutting and reassembling

The sender cuts data into segments in one of three ways: all at once, one by one, or from a source.
The receiver stores the payloads of the segments in whatever order they arrive.

## Main definitions

* `MultiSegmentInbound.store` — a sequence of stored payloads.
* `MultiSegmentInbound.Stored` — the slots hold the payloads with the stored indices.

## Main results

* `MultiSegmentInbound.Stored.isComplete_iff`, `MultiSegmentInbound.Stored.reassemble_eq`.
* `segments_round_trip` — the three ways agree, and the receiver gets the data back.
-/

namespace Reticulum.Resource

open LazyMultiSegmentOutbound OutboundResource MultiSegmentInbound List

namespace MultiSegmentInbound

/-- Payloads stored one after the other, each with its index. -/
def store (m : MultiSegmentInbound) (stores : List (ℕ × Bytes)) : MultiSegmentInbound :=
  stores.foldl (fun m s => (m.setSegmentData s.1 s.2).1) m

/-- The payload of every index in `present` is in its slot, and the other slots are empty. -/
structure Stored (payloads : List Bytes) (present : List ℕ) (m : MultiSegmentInbound) : Prop where
  total_eq : m.totalSegments = payloads.length
  slots_eq : m.assembledSegments =
    payloads.mapIdx fun k payload => if k + 1 ∈ present then some payload else none

namespace Stored

variable {payloads : List Bytes} {present : List ℕ} {m : MultiSegmentInbound}

theorem new (payloads : List Bytes) (originalHash : Octets 32) :
    Stored payloads [] (MultiSegmentInbound.new payloads.length originalHash) where
  total_eq := rfl
  slots_eq := by
    refine ext_getElem? fun k => ?_
    by_cases hk : k < payloads.length <;> simp [MultiSegmentInbound.new, hk]

variable {index : ℕ}

section

variable (h : Stored payloads present m)

include h

/-- A slot is taken exactly when its index is present. -/
theorem slot_isSome (hpos : 1 ≤ index) (hle : index ≤ payloads.length) :
    (m.assembledSegments[index - 1]?.join).isSome = true ↔ index ∈ present := by
  obtain ⟨k, rfl⟩ : ∃ k, index = k + 1 := ⟨index - 1, by omega⟩
  have hk : payloads[k]? = some payloads[k] := getElem?_eq_getElem hle
  rw [h.slots_eq, Nat.add_sub_cancel, getElem?_mapIdx, hk]
  by_cases hmem : k + 1 ∈ present <;> simp [hmem]

/-- An index out of range is refused. -/
theorem setSegmentData_of_range (data : Bytes) (hrange : index < 1 ∨ payloads.length < index) :
    m.setSegmentData index data = (m, .error .invalidAdvertisement) := by
  rw [setSegmentData, h.total_eq, if_pos hrange]

/-- A payload that is present is refused. -/
theorem setSegmentData_of_mem (data : Bytes) (hpos : 1 ≤ index) (hle : index ≤ payloads.length)
    (hmem : index ∈ present) : m.setSegmentData index data = (m, .error .duplicateSegment) := by
  rw [setSegmentData, h.total_eq, if_neg (by omega)]
  exact if_pos ((h.slot_isSome hpos hle).mpr hmem)

/-- Refused or not, a store adds its index. -/
theorem setSegmentData {data : Bytes}
    (hdata : 1 ≤ index → index ≤ payloads.length → payloads[index - 1]? = some data) :
    Stored payloads (index :: present) (m.setSegmentData index data).1 := by
  by_cases hrange : index < 1 ∨ payloads.length < index
  · rw [h.setSegmentData_of_range data hrange]
    refine ⟨h.total_eq, h.slots_eq.trans (ext_getElem? fun k => ?_)⟩
    rw [getElem?_mapIdx, getElem?_mapIdx]
    by_cases hk : k < payloads.length
    · have hne : k + 1 ≠ index := by omega
      simp [hne]
    · simp [getElem?_eq_none (Nat.le_of_not_lt hk)]
  · have hpos : 1 ≤ index := by omega
    have hle : index ≤ payloads.length := by omega
    by_cases hmem : index ∈ present
    · rw [h.setSegmentData_of_mem data hpos hle hmem]
      refine ⟨h.total_eq, h.slots_eq.trans ?_⟩
      have hiff (k : ℕ) : k + 1 ∈ index :: present ↔ k + 1 ∈ present := by
        refine ⟨fun hk => ?_, mem_cons_of_mem _⟩
        rcases mem_cons.mp hk with heq | hk
        · exact heq ▸ hmem
        · exact hk
      simp only [hiff]
    · have hfree := mt (h.slot_isSome hpos hle).mp hmem
      have hrange' : ¬ (index < 1 ∨ m.totalSegments < index) := by rwa [h.total_eq]
      rw [MultiSegmentInbound.setSegmentData, if_neg hrange']
      simp only [hfree, Bool.false_eq_true, ↓reduceIte]
      refine ⟨h.total_eq, ext_getElem? fun k => ?_⟩
      simp only [h.slots_eq, getElem?_set, length_mapIdx, getElem?_mapIdx]
      by_cases hk : index - 1 = k
      · have hkey : k + 1 = index := by omega
        have hget : payloads[k]? = some data := hk ▸ hdata hpos hle
        have hlt : k < payloads.length := by omega
        rw [if_pos hk, if_pos (hk ▸ hlt), hget, hkey, Option.map_some, if_pos mem_cons_self]
      · have hne : k + 1 ≠ index := by omega
        simp [hk, hne]

/-- The slots after a sequence of stores. -/
theorem store {stores : List (ℕ × Bytes)}
    (hstores : ∀ s ∈ stores, 1 ≤ s.1 → s.1 ≤ payloads.length → payloads[s.1 - 1]? = some s.2) :
    Stored payloads ((stores.map Prod.fst).reverse ++ present) (m.store stores) := by
  induction stores generalizing m present with
  | nil => exact h
  | cons s stores ih =>
    obtain ⟨hs, hstores⟩ := forall_mem_cons.mp hstores
    have hrest := ih (h.setSegmentData hs) hstores
    rwa [map_cons, reverse_cons, append_assoc]

/-- The receiver is complete exactly when every index is present. -/
theorem isComplete_iff :
    m.isComplete = true ↔ ∀ index, 1 ≤ index → index ≤ payloads.length → index ∈ present := by
  rw [isComplete, h.slots_eq, all_eq_true]
  constructor
  · intro hall index hpos hle
    obtain ⟨k, rfl⟩ : ∃ k, index = k + 1 := ⟨index - 1, by omega⟩
    have hslot := hall _ (mem_mapIdx.mpr ⟨k, hle, rfl⟩)
    by_contra hmem
    simp [hmem] at hslot
  · intro hall slot hslot
    obtain ⟨k, hk, rfl⟩ := mem_mapIdx.mp hslot
    rw [if_pos (hall _ (Nat.le_add_left 1 k) hk)]
    rfl

/-- Complete receivers give the payloads in order, others give nothing. -/
theorem reassemble_eq :
    m.reassemble = if m.isComplete then .ok payloads.flatten else .error .incomplete := by
  rw [reassemble]
  by_cases hcomplete : m.isComplete = true
  · have hall := h.isComplete_iff.mp hcomplete
    have hslots : m.assembledSegments = payloads.map some := by
      rw [h.slots_eq]
      refine ext_getElem? fun k => ?_
      rw [getElem?_mapIdx, getElem?_map]
      by_cases hk : k < payloads.length
      · simp only [if_pos (hall _ (Nat.le_add_left 1 k) hk)]
      · rw [getElem?_eq_none (Nat.le_of_not_lt hk)]
        rfl
    have hmapM : (payloads.map some).mapM id = some payloads := by
      rw [mapM_map]
      exact (mapM_pure (m := Option) (f := id)).trans (by simp)
    simp only [hcomplete, not_true, ↓reduceIte, hslots, hmapM]
  · simp [hcomplete]

end

end Stored

end MultiSegmentInbound

/-! ### The round trip -/

section RoundTrip

variable [Sha256] [Bzip2] {randomHash : Octets 4} {data : Bytes} {autoCompress : Bool}
  {metadata requestId : Option Bytes} {isResponse : Bool} {lazy : LazyMultiSegmentOutbound}

/-- The constructor that cuts at once yields the segments of the plan. -/
theorem MultiSegmentOutbound.exists_withOptions
    (h : LazyMultiSegmentOutbound.withOptions randomHash data autoCompress metadata requestId
      isResponse = .ok lazy) (random : Randomness) :
    ∃ eager, MultiSegmentOutbound.withOptions random randomHash data autoCompress metadata requestId
        isResponse = .ok eager ∧
      eager.segments.map content = segmentContents data metadata ∧
      eager.totalSegments = lazy.totalSegments := by
  obtain ⟨hplanned, hpending, htotal, -⟩ := LazyMultiSegmentOutbound.withOptions_ok h
  obtain ⟨rs, hrs, hcontents, -⟩ :=
    LazyMultiSegmentOutbound.take_eq_ok random hplanned (lazy.totalSegments + 1)
  refine ⟨_, by simp only [withOptions, h, ok_bind, hrs]; rfl, ?_, rfl⟩
  rw [hcontents, hpending, take_of_length_le]
  rw [length_segmentContents, htotal]
  exact Nat.le_succ _

/-- A source with the same content yields the segments of the plan. -/
theorem PreparedResourceSource.exists_segments
    (h : withOptions randomHash data autoCompress metadata requestId
      isResponse = .ok lazy) {source : Source} (hreliable : source.Reliable)
    (hcontent : source.content = data) {purpose : ResourcePurpose}
    (hpurpose : ∀ id ∈ purpose.requestId, requestId = some id) (tag : ℕ → ℕ → Octets 4)
    (encrypt : ℕ → ℕ → Bytes → Bytes) (rtt now : ℕ) :
    ∃ p, prepareWithPurpose randomHash source ⟨autoCompress, metadata⟩ purpose = .ok p ∧
      ∀ n, ∃ segments, p.take tag encrypt rtt now n = .ok segments ∧
        segments.map PreparedResourceSegment.content = (segmentContents data metadata).take n := by
  obtain ⟨-, -, -, hadmitted, -⟩ := withOptions_ok h
  subst hcontent
  obtain ⟨p, hp, hplanned, hpending⟩ := exists_prepareWithPurpose randomHash hreliable
    ⟨autoCompress, metadata⟩ purpose (hadmitted.of_requestId (by decide) hpurpose)
  refine ⟨p, hp, fun n => ?_⟩
  rw [← hpending]
  exact take_eq_ok tag encrypt rtt now hplanned n

/-- The segments of accepted data are as many as announced, none exceeds the limit, and the lazy
constructor, the eager one and a reliable source yield the same contents. Storing the payloads in
any order, with repetitions and with indices out of range, completes the receiver exactly when every
index occurs; then it has the data, and otherwise it is incomplete. A repetition and an index out of
range are refused and change nothing. -/
theorem segments_round_trip
    (h : LazyMultiSegmentOutbound.withOptions randomHash data autoCompress metadata requestId
      isResponse = .ok lazy) :
    (segmentContents data metadata).length = lazy.totalSegments ∧
    (∀ c ∈ segmentContents data metadata,
      (c.2.map List.length).getD 0 + c.1.length ≤ maxEfficientSize) ∧
    (∀ random n, ∃ segments, lazy.take random n = .ok segments ∧
      segments.map content = (segmentContents data metadata).take n) ∧
    (∀ random, ∃ eager, MultiSegmentOutbound.withOptions random randomHash data autoCompress
        metadata requestId isResponse = .ok eager ∧
      eager.segments.map content = segmentContents data metadata ∧
      eager.totalSegments = lazy.totalSegments) ∧
    (∀ (source : Source) (purpose : ResourcePurpose) tag encrypt rtt now, source.Reliable →
      source.content = data → (∀ id ∈ purpose.requestId, requestId = some id) →
      ∃ p, PreparedResourceSource.prepareWithPurpose randomHash source ⟨autoCompress, metadata⟩
          purpose = .ok p ∧
        ∀ n, ∃ segments, p.take tag encrypt rtt now n = .ok segments ∧
          segments.map PreparedResourceSegment.content =
            (segmentContents data metadata).take n) ∧
    ∀ originalHash (stores : List (ℕ × Bytes)),
      (∀ s ∈ stores, 1 ≤ s.1 → s.1 ≤ lazy.totalSegments →
        ((segmentContents data metadata).map Prod.fst)[s.1 - 1]? = some s.2) →
      let m := (new lazy.totalSegments originalHash).store stores
      (m.isComplete = true ↔
        ∀ index, 1 ≤ index → index ≤ lazy.totalSegments → ∃ s ∈ stores, s.1 = index) ∧
      m.reassemble = (if m.isComplete then .ok data else .error .incomplete) ∧
      ∀ index payload,
        ((index < 1 ∨ lazy.totalSegments < index) →
          m.setSegmentData index payload = (m, .error .invalidAdvertisement)) ∧
        (1 ≤ index → index ≤ lazy.totalSegments → (∃ s ∈ stores, s.1 = index) →
          m.setSegmentData index payload = (m, .error .duplicateSegment)) := by
  obtain ⟨hplanned, hpending, htotal, hadmitted, -⟩ := LazyMultiSegmentOutbound.withOptions_ok h
  have hlength : (segmentContents data metadata).length = lazy.totalSegments := by
    rw [length_segmentContents, htotal]
  refine ⟨hlength, fun c hc => length_le_of_mem_segmentContents hadmitted.wire_le hc,
    fun random n => ?_, fun random => MultiSegmentOutbound.exists_withOptions h random,
    fun source purpose tag encrypt rtt now hreliable hcontent hpurpose =>
      PreparedResourceSource.exists_segments h hreliable hcontent hpurpose tag encrypt rtt now,
    fun originalHash stores hstores => ?_⟩
  · obtain ⟨segments, htake, hcontents, -⟩ :=
      LazyMultiSegmentOutbound.take_eq_ok random hplanned n
    exact ⟨segments, htake, hpending ▸ hcontents⟩
  · set payloads := (segmentContents data metadata).map Prod.fst with hpayloads
    have hcount : payloads.length = lazy.totalSegments := by rw [hpayloads, length_map, hlength]
    have hflatten : payloads.flatten = data := flatten_segmentContents data metadata
    have hmem (index : ℕ) :
        index ∈ (stores.map Prod.fst).reverse ++ [] ↔ ∃ s ∈ stores, s.1 = index := by simp
    rw [← hcount] at hstores ⊢
    have hstored := (Stored.new payloads originalHash).store hstores
    refine ⟨?_, ?_, fun index payload => ⟨hstored.setSegmentData_of_range payload,
      fun hpos hle hs => hstored.setSegmentData_of_mem payload hpos hle ((hmem index).mpr hs)⟩⟩
    · simp only [hstored.isComplete_iff, hmem]
    · rw [hstored.reassemble_eq, hflatten]

end RoundTrip

/-- The SHA-256 digest of the bytes 1, 2, 3 and the tag 0. -/
@[reducible] private def shortDataSha : Sha256 where
  digest _ := .ofNat 0x33039fca04699df0cbf328f37d8fd61eeac2612d2d2cddb89d4c6fc4a4a1a3de

@[reducible] private def shortDataBzip2 : Bzip2 where
  compress _ := none
  decoder _ := ([], false)

/-- Metadata that fills the first segment. -/
private def fullMetadata : Bytes := List.replicate (maxEfficientSize - 3) 7

private theorem metadataWireSize_fullMetadata :
    OutboundResource.metadataWireSize (some fullMetadata) = 1048575 := by
  rw [OutboundResource.metadataWireSize, Option.map_some, fullMetadata, length_replicate]
  rfl

private theorem fullMetadata_admitted :
    Admitted 3 1048575 none false true true sdu Wire.mtu where
  sdu_pos := by decide
  dataLen_le := by decide
  wire_le := by decide
  segmentCount_le := by decide
  requestId_ok := rfl
  advertisement_ok := by decide +kernel
  controls_ok := by decide +kernel

/-- Behind metadata that fills the first segment, three bytes make a second one. -/
theorem segments_round_trip_fullMetadata :
    letI := shortDataSha
    ∃ lazy, withOptions ⟨[0, 0, 0, 0], rfl⟩ [1, 2, 3] false
        (some fullMetadata) none false = .ok lazy ∧
      lazy.totalSegments = 2 ∧ (segmentContents [1, 2, 3] (some fullMetadata)).length = 2 ∧
      ((new 2 lazy.originalHash).store
        [(2, [1, 2, 3]), (2, [1, 2, 3]), (3, []), (1, [])]).reassemble = .ok [1, 2, 3] := by
  let _ := shortDataSha
  let _ := shortDataBzip2
  have hadmitted : Admitted ([1, 2, 3] : Bytes).length
      (metadataWireSize (some fullMetadata)) none false true
      (some fullMetadata).isSome sdu Wire.mtu := by
    rw [metadataWireSize_fullMetadata]
    exact fullMetadata_admitted
  obtain ⟨lazy, hlazy⟩ :=
    exists_withOptions ⟨[0, 0, 0, 0], rfl⟩ false hadmitted
  obtain ⟨hlength, -, -, -, -, hstores⟩ := segments_round_trip hlazy
  have hpayloads : (segmentContents [1, 2, 3] (some fullMetadata)).map Prod.fst =
      [[], [1, 2, 3]] := by
    rw [segmentContents, metadataWireSize_fullMetadata]
    rfl
  have htotal : lazy.totalSegments = 2 := by
    rw [← hlength, ← length_map Prod.fst, hpayloads]
    rfl
  rw [htotal, hpayloads] at hstores
  obtain ⟨hcomplete, hreassemble, -⟩ := hstores lazy.originalHash
    [(2, [1, 2, 3]), (2, [1, 2, 3]), (3, []), (1, [])] (by simp)
  refine ⟨lazy, hlazy, htotal, hlength.trans htotal, ?_⟩
  rw [hreassemble, if_pos (hcomplete.mpr ?_)]
  intro index hpos hle
  obtain rfl | rfl : index = 1 ∨ index = 2 := by omega
  · exact ⟨(1, []), by simp, rfl⟩
  · exact ⟨(2, [1, 2, 3]), by simp, rfl⟩

end Reticulum.Resource
