import Reticulum.Resource.Reassembly

/-!
# Admitted data is sent and accepted

What the preflight check of a plan admits, every later step accepts: each segment is built, its
sizes are within what a receiver admits, and its advertisement fits a packet. The encryption only
has to keep within the length that the check counts.

## Main definitions

* `LengthBounded` — ciphertexts are no longer than counted.

## Main results

* `LazyMultiSegmentOutbound.SegmentOf.totalSize_le` — the transfer size of a segment.
* `LazyMultiSegmentOutbound.SegmentOf.createAdvertisement_ok` — its advertisement fits.
* `preflight_sound` — what the constructor accepts, all later steps accept.
-/

namespace Reticulum.Resource

open InboundResource OutboundTransfer LazyMultiSegmentOutbound

/-- Ciphertexts are at most as long as `encryptedLen` says. -/
def LengthBounded (encrypt : Bytes → Bytes) : Prop :=
  ∀ plaintext len, encryptedLen plaintext.length = .ok len → (encrypt plaintext).length ≤ len

/-- Every encryption of the randomness is bounded. -/
def Randomness.LengthBounded (random : Randomness) : Prop :=
  ∀ encryptFn ∈ random.encryptFn, ∀ index attempt,
    Resource.LengthBounded (encryptFn index attempt)

theorem Randomness.LengthBounded.encrypt {random : Randomness} (h : random.LengthBounded)
    (index attempt : ℕ) : ∀ e ∈ random.encrypt index attempt, Resource.LengthBounded e := by
  intro e he
  obtain ⟨encryptFn, hfn, rfl⟩ := Option.map_eq_some_iff.mp he
  exact h encryptFn hfn index attempt

namespace OutboundResource

variable [Sha256] [Bzip2] {randomHash : Octets 4} {encryptFn : Option (Bytes → Bytes)} {data : Bytes}
  {autoCompress : Bool} {metadata : Option Bytes}

/-- The transfer size of content that fits one segment. -/
theorem totalSize_build_le (henc : ∀ e ∈ encryptFn, LengthBounded e)
    (h : metadataWireSize metadata + data.length ≤ maxEfficientSize) :
    (build randomHash encryptFn data autoCompress metadata none).totalSize ≤
      transferSize true (metadataWireSize metadata + data.length) := by
  have hm : maxEfficientSize = 1048575 := rfl
  have hu : usizeMax = 2 ^ 64 - 1 := rfl
  have hlen : (randomHash.1 ++ (process autoCompress (fullData data metadata)).1).length ≤
      metadataWireSize metadata + data.length + 4 := by
    have hprocess := length_process_le autoCompress (fullData data metadata)
    rw [length_fullData] at hprocess
    rw [List.length_append, Octets.length_val]
    omega
  set blob := randomHash.1 ++ (process autoCompress (fullData data metadata)).1 with hblob
  have htransfer : transferSize true (metadataWireSize metadata + data.length) =
    ((metadataWireSize metadata + data.length + 4) / 16 + 1) * 16 + 48 := rfl
  cases encryptFn with
  | none =>
    have hsize : (build randomHash none data autoCompress metadata none).totalSize = blob.length :=
      rfl
    omega
  | some e =>
    have hsize : (build randomHash (some e) data autoCompress metadata none).totalSize =
      (e blob).length := rfl
    have hcount : encryptedLen blob.length = .ok ((blob.length / 16 + 1) * 16 + 48) :=
      if_neg (by omega)
    have hbound := henc e rfl blob _ hcount
    omega

/-- The number of parts follows from the transfer size. -/
theorem numParts_build :
    (build randomHash encryptFn data autoCompress metadata none).numParts =
      divCeil (build randomHash encryptFn data autoCompress metadata none).totalSize
        Resource.sdu := by
  have hpos : 0 < Resource.sdu := by decide
  rw [divCeil_eq hpos]
  exact length_chunks hpos _

end OutboundResource

namespace LazyMultiSegmentOutbound

variable [Sha256] [Bzip2] {random : Randomness} {l : LazyMultiSegmentOutbound}
  {r : OutboundResource}

section

variable (h : SegmentOf random l r)

include h

/-- The transfer size of a segment is within what the preflight check counts. -/
theorem SegmentOf.totalSize_le (henc : random.LengthBounded) :
    r.totalSize ≤ transferSize true (min (l.dataSize + l.metadataWireSize) maxEfficientSize) := by
  obtain ⟨index, attempt, chunk, metadata, -, hmax, htotal, rfl⟩ := h
  calc _ ≤ transferSize true (OutboundResource.metadataWireSize metadata + chunk.length) :=
        OutboundResource.totalSize_build_le (henc.encrypt index attempt) hmax
    _ ≤ _ := transferSize_mono true (Nat.le_min.mpr ⟨htotal, hmax⟩)

theorem SegmentOf.numParts_eq : r.numParts = divCeil r.totalSize sdu := by
  obtain ⟨index, attempt, chunk, metadata, -, -, -, rfl⟩ := h
  exact OutboundResource.numParts_build

theorem SegmentOf.totalSize_le_max (henc : random.LengthBounded) : r.totalSize ≤ maxTotalSize :=
  calc r.totalSize
      ≤ transferSize true (min (l.dataSize + l.metadataWireSize) maxEfficientSize) :=
        h.totalSize_le henc
    _ ≤ transferSize true maxEfficientSize := transferSize_mono true (Nat.min_le_right _ _)
    _ ≤ maxTotalSize := by decide

theorem SegmentOf.numParts_le_max : r.numParts ≤ maxParts r.totalSize := by
  have hsdu : sdu = 464 := rfl
  rw [h.numParts_eq, maxParts, hsdu]
  unfold divCeil
  split_ifs <;> omega

/-- The advertisement of a segment is no longer than the largest one of its resource. -/
private theorem SegmentOf.length_pack_le (henc : random.LengthBounded)
    (isResponse hasMetadata : Bool) :
    (advertisement r).pack.length ≤ (largestAdvertisement
        (transferSize true (min (l.dataSize + l.metadataWireSize) maxEfficientSize))
        (l.dataSize + l.metadataWireSize) l.totalSegments l.requestId isResponse true hasMetadata
        sdu).pack.length := by
  have hsize := h.totalSize_le henc
  have hparts : r.numParts ≤ divCeil
      (transferSize true (min (l.dataSize + l.metadataWireSize) maxEfficientSize)) sdu := by
    rw [h.numParts_eq]
    exact divCeil_mono hsize sdu
  obtain ⟨index, attempt, chunk, metadata, hindex, -, -, rfl⟩ := h
  refine ResourceAdvertisement.length_pack_le hsize le_rfl hparts ?_ hindex le_rfl le_rfl ?_
  · exact (Octets.length_val _).le
  · have hstride : hashmapMaxLen Wire.linkMdu = hashmapStride := by decide
    have hmap (hashes : List (Octets 4)) :
        ((hashes.take (hashmapMaxLen Wire.linkMdu)).flatMap (·.1)).length =
          min hashmapStride hashes.length * 4 := by
      rw [length_flatMap_val, List.length_take, hstride]
    refine (hmap _).trans_le (le_of_le_of_eq (Nat.mul_le_mul_right 4 ?_) (hmap _).symm)
    rw [List.length_replicate]
    refine Nat.le_min.mpr ⟨Nat.min_le_left _ _, Nat.le_min.mpr ⟨?_, Nat.min_le_left _ _⟩⟩
    refine (Nat.min_le_right _ _).trans (le_trans (le_of_eq ?_) hparts)
    exact List.length_map _

/-- Where the largest advertisement of a resource fits, that of every segment does. -/
theorem SegmentOf.createAdvertisement_ok {isResponse hasMetadata : Bool}
    (henc : random.LengthBounded) (hid : checkRequestId l.requestId Wire.mtu = .ok ())
    (hadv : checkAdvertisement (largestAdvertisement
      (transferSize true (min (l.dataSize + l.metadataWireSize) maxEfficientSize))
      (l.dataSize + l.metadataWireSize) l.totalSegments l.requestId isResponse true hasMetadata
      sdu) Wire.mtu = .ok ()) (rtt now : ℕ) :
    (fromResource r rtt now).createAdvertisement = .ok (advertisement r).pack := by
  have hcheck : checkAdvertisement (advertisement r) Wire.mtu = .ok () :=
    checkAdvertisement_mono (by decide) (h.length_pack_le henc isResponse hasMetadata) hadv
  have hrequest : r.requestId = l.requestId := by
    obtain ⟨index, attempt, chunk, metadata, -, -, -, rfl⟩ := h
    rfl
  have hresource : (fromResource r rtt now).resource = r := rfl
  rw [← hrequest] at hid
  rw [createAdvertisement, hresource]
  cases hr : r.requestId with
  | none => simp only [hcheck, ok_bind]; rfl
  | some id =>
    rw [hr, checkRequestId] at hid
    simp only [hid, hcheck, ok_bind]
    rfl

end

end LazyMultiSegmentOutbound

/-- Sizes within the limits are accepted by the receiver. -/
theorem InboundResource.exists_new {totalParts totalSize : ℕ} (hpos : totalParts ≠ 0)
    (hsize : totalSize ≤ maxTotalSize) (hparts : totalParts ≤ maxParts totalSize) (dataSize : ℕ)
    (randomHash : Octets 4) (resourceHash : Octets 32) (flags : ResourceFlags)
    (hashes : List (Octets 4)) :
    ∃ q, new totalParts totalSize dataSize randomHash resourceHash flags hashes = .ok q := by
  rw [new, withSdu, if_neg hpos, if_neg (Nat.not_lt.mpr hsize), if_neg (Nat.not_lt.mpr hparts)]
  exact ⟨_, rfl⟩

section

variable [Sha256] [Bzip2] {randomHash : Octets 4} {data : Bytes} {autoCompress : Bool}
  {metadata requestId : Option Bytes} {isResponse : Bool} {lazy : LazyMultiSegmentOutbound}

/-- When the constructor accepts and the ciphertexts keep within the counted length, every segment
is built, the size and the number of its parts are within the limits of the receiver, which accepts
it unless the ciphertext is empty, and its advertisement is created. -/
theorem preflight_sound (random : Randomness)
    (h : withOptions randomHash data autoCompress metadata requestId
      isResponse = .ok lazy) (henc : random.LengthBounded) (n : ℕ) :
    ∃ segments, lazy.take random n = .ok segments ∧
      segments.length = min n lazy.totalSegments ∧
      ∀ r ∈ segments,
        r.totalSize ≤ maxTotalSize ∧
        r.numParts ≤ maxParts r.totalSize ∧
        (r.totalSize ≠ 0 → ∀ hashes, ∃ q, new r.numParts r.totalSize
          r.advertisementDataSize r.randomHash r.resourceHash r.flags hashes = .ok q) ∧
        ∀ rtt now, ∃ bytes,
          (fromResource r rtt now).createAdvertisement = .ok bytes := by
  obtain ⟨hplanned, hpending, htotal, hadmitted, hdata, hwire, hid⟩ :=
    withOptions_ok h
  obtain ⟨segments, htake, hcontents, hsegments⟩ :=
    take_eq_ok random hplanned n
  refine ⟨segments, htake, ?_, fun r hr => ?_⟩
  · rw [← List.length_map OutboundResource.content, hcontents, hpending, List.length_take,
      length_segmentContents, htotal]
  · have hsegment := hsegments r hr
    have hsize := hsegment.totalSize_le_max henc
    have hparts := hsegment.numParts_le_max
    refine ⟨hsize, hparts, fun hne hashes => ?_, fun rtt now => ?_⟩
    · refine exists_new ?_ hsize hparts _ _ _ _ _
      have hsdu : sdu = 464 := rfl
      rw [hsegment.numParts_eq, hsdu]
      unfold divCeil
      split_ifs <;> omega
    · have hadv := hadmitted.advertisement_ok
      rw [← htotal, ← hdata, ← hwire, ← hid] at hadv
      exact ⟨_, hsegment.createAdvertisement_ok henc (hid ▸ hadmitted.requestId_ok) hadv rtt now⟩

end

/-- SHA-256 of the bytes 1, 2, 3 and a tag, of them and that digest, and of their token. -/
@[reducible] private def tokenSha : Sha256 where
  digest data :=
    let resourceHash : Octets 32 :=
      .ofNat 0x33039fca04699df0cbf328f37d8fd61eeac2612d2d2cddb89d4c6fc4a4a1a3de
    if data.length = 7 then resourceHash
    else if data.length = 35 then
      .ofNat 0xbe22a57be88388bf1081ba5977e653dee45ccfa8dc3ccab987072cc13a44b8a6
    else .ofNat 0xd2a631893b494dfc8217b0f19041c0971b2ebcbc62491c81ec24ca31870fc254

/-- Nothing is compressed. -/
@[reducible] private def tokenBzip2 : Bzip2 where
  compress _ := none
  decoder _ := ([], false)

/-- Tokens of exactly the counted length. -/
private def tokenRandomness : Randomness where
  tag _ _ := ⟨[0, 0, 0, 0], rfl⟩
  encryptFn := some fun _ _ plaintext =>
    plaintext ++ List.replicate (64 - plaintext.length % 16) 0

private theorem tokenRandomness_bounded : tokenRandomness.LengthBounded := by
  rintro _ ⟨⟩ index attempt plaintext len hlen
  simp only [encryptedLen, ite_error_eq_ok] at hlen
  have heq := Except.ok.inj hlen.2
  rw [List.length_append, List.length_replicate]
  omega

/-- Three bytes with tokens of exactly the counted length. -/
theorem preflight_sound_token :
    letI := tokenSha
    letI := tokenBzip2
    ∃ lazy, withOptions ⟨[0, 0, 0, 0], rfl⟩ [1, 2, 3] false none none
        false = .ok lazy ∧ tokenRandomness.LengthBounded ∧
      ∃ segments, lazy.take tokenRandomness 2 = .ok segments ∧
        segments.length = min 2 lazy.totalSegments ∧
        ∀ r ∈ segments, r.totalSize ≤ maxTotalSize ∧ ∀ rtt now, ∃ bytes,
          (fromResource r rtt now).createAdvertisement = .ok bytes := by
  let _ := tokenSha
  let _ := tokenBzip2
  have heval : (withOptions ⟨[0, 0, 0, 0], rfl⟩ [1, 2, 3] false none none
    false).toOption.isSome = true := by decide +kernel
  obtain ⟨lazy, hoption⟩ := Option.isSome_iff_exists.mp heval
  have hlazy := toOption_eq_some.mp hoption
  obtain ⟨segments, htake, hlength, hall⟩ :=
    preflight_sound tokenRandomness hlazy tokenRandomness_bounded 2
  refine ⟨lazy, hlazy, tokenRandomness_bounded, segments, htake, hlength, fun r hr => ?_⟩
  obtain ⟨hsize, -, -, hadv⟩ := hall r hr
  exact ⟨hsize, hadv⟩

end Reticulum.Resource
