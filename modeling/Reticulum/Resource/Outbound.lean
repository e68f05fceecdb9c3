import Reticulum.Foundation.Lists
import Reticulum.Resource.Control
import Reticulum.Resource.Window

/-!
# Outgoing resources

One segment of data prepared for sending, `OutboundResource` of `resource.rs`: framed metadata and
payload are compressed, a random tag is put in front, the whole is encrypted and cut into parts,
and every part gets a map hash. When two map hashes coincide, the resource is built again with
another tag, a bounded number of times.

The random tags and whatever randomness the encryption uses are functions of the attempt.
-/

namespace Reticulum.Resource

/-- `OutboundResource`. -/
structure OutboundResource where
  state : ResourceState
  data : Bytes
  randomHash : Octets 4
  resourceHash : Octets 32
  expectedProof : Octets 32
  flags : ResourceFlags
  parts : List Bytes
  mapHashes : List (Octets 4)
  totalSize : ℕ
  advertisementDataSize : ℕ
  segmentIndex : ℕ
  totalSegments : ℕ
  requestId : Option Bytes
  originalHash : Option (Octets 32)
  window : WindowState
  retries : ℕ
  sdu : ℕ
  metadata : Option Bytes
  metadataSize : ℕ
  deriving DecidableEq, Repr

namespace OutboundResource

/-- `MAX_COLLISION_RETRIES`. -/
def maxCollisionRetries : ℕ := 5

/-- Metadata behind its length in three bytes. -/
def frameMetadata (metadata : Bytes) : Bytes := be24 metadata.length ++ metadata

/-- The framed metadata in front of the payload. -/
def fullData (data : Bytes) (metadata : Option Bytes) : Bytes :=
  ((metadata.map frameMetadata).getD []) ++ data

/-- The size of framed metadata. -/
def metadataWireSize (metadata : Option Bytes) : ℕ := (metadata.map fun m => 3 + m.length).getD 0

@[simp] theorem length_frameMetadata (metadata : Bytes) :
    (frameMetadata metadata).length = 3 + metadata.length := by
  simp [frameMetadata]

theorem length_fullData (data : Bytes) (metadata : Option Bytes) :
    (fullData data metadata).length = metadataWireSize metadata + data.length := by
  cases metadata with
  | none => simp [fullData, metadataWireSize]
  | some m => simp [fullData, metadataWireSize, frameMetadata, Nat.add_assoc]

/-- The checks that every attempt makes first. -/
def check (data : Bytes) (metadata : Option Bytes) (linkSdu : Option ℕ) (encrypted : Bool) :
    Except ResourceError Unit :=
  let sdu := linkSdu.getD Resource.sdu
  if sdu = 0 then .error .invalidAdvertisement
  else do
    preflightOutboundWithSdu data.length (metadata.map List.length) none false encrypted sdu Wire.mtu
    if ∃ m ∈ metadata, metadataMaxSize < m.length then .error .metadataTooLarge
    else if maxEfficientSize < metadataWireSize metadata + data.length then .error .tooLarge
    else .ok ()

variable [Sha256] [Bzip2]

/-- The data as it is transmitted, and whether it is compressed. -/
def process (autoCompress : Bool) (full : Bytes) : Bytes × Bool :=
  if autoCompress && full.length ≤ autoCompressMaxSize then tryCompress full else (full, false)

omit [Sha256] in
theorem length_process_le (autoCompress : Bool) (full : Bytes) :
    (process autoCompress full).1.length ≤ full.length := by
  unfold process
  split_ifs
  · exact length_tryCompress_le full
  · exact le_rfl

/-- One attempt with the tag `randomHash`. -/
def build (randomHash : Octets 4) (encryptFn : Option (Bytes → Bytes)) (data : Bytes)
    (autoCompress : Bool) (metadata : Option Bytes) (linkSdu : Option ℕ) : OutboundResource :=
  let sdu := linkSdu.getD Resource.sdu
  let full := fullData data metadata
  let (processed, compressed) := process autoCompress full
  let blob := randomHash.1 ++ processed
  let blob := match encryptFn with
    | some enc => enc blob
    | none => blob
  let resourceHash := computeResourceHash full randomHash.1
  let parts := chunks sdu blob
  { state := .none
    data
    randomHash
    resourceHash
    expectedProof := computeExpectedProof full resourceHash
    flags := { encrypted := encryptFn.isSome, compressed, hasMetadata := metadata.isSome }
    parts
    mapHashes := parts.map fun part => getMapHash part randomHash.1
    totalSize := blob.length
    advertisementDataSize := full.length
    segmentIndex := 1
    totalSegments := 1
    requestId := none
    originalHash := none
    window := .new
    retries := 0
    sdu
    metadata := metadata.map frameMetadata
    metadataSize := metadataWireSize metadata }

/-- `OutboundResource::with_options_inner` with `retriesLeft` of its retries left. -/
def withOptionsInner (rng : ℕ → Octets 4) (encryptFn : Option (ℕ → Bytes → Bytes)) (data : Bytes)
    (autoCompress : Bool) (metadata : Option Bytes) (linkSdu : Option ℕ) :
    ℕ → Except ResourceError OutboundResource
  | 0 => do
    check data metadata linkSdu encryptFn.isSome
    return build (rng maxCollisionRetries) (encryptFn.map (· maxCollisionRetries)) data autoCompress
      metadata linkSdu
  | retriesLeft + 1 => do
    check data metadata linkSdu encryptFn.isSome
    let attempt := maxCollisionRetries - (retriesLeft + 1)
    let resource := build (rng attempt) (encryptFn.map (· attempt)) data autoCompress metadata
      linkSdu
    if resource.mapHashes.Nodup then return resource
    withOptionsInner rng encryptFn data autoCompress metadata linkSdu retriesLeft

/-- `OutboundResource::with_options`. -/
def withOptions (rng : ℕ → Octets 4) (encryptFn : Option (ℕ → Bytes → Bytes)) (data : Bytes)
    (autoCompress : Bool) (metadata : Option Bytes) (linkSdu : Option ℕ) :
    Except ResourceError OutboundResource :=
  withOptionsInner rng encryptFn data autoCompress metadata linkSdu maxCollisionRetries

/-- `OutboundResource::validate_proof`. -/
def validateProof (r : OutboundResource) (proofData : Bytes) : OutboundResource × Bool :=
  if proofData.length < 64 then (r, false)
  else if (proofData.drop 32).take 32 = r.expectedProof.1 then ({ r with state := .complete }, true)
  else (r, false)

/-- `OutboundResource::get_part`. -/
def getPart (r : OutboundResource) (index : ℕ) : Option Bytes := r.parts[index]?

/-- `OutboundResource::num_parts`. -/
def numParts (r : OutboundResource) : ℕ := r.parts.length

/-- `OutboundResource::handle_cancel`. -/
def handleCancel (r : OutboundResource) : OutboundResource := { r with state := .rejected }

/-! ### What the constructor gives -/

variable {r : OutboundResource}

section

variable {rng : ℕ → Octets 4} {encryptFn : Option (ℕ → Bytes → Bytes)} {data : Bytes}
  {autoCompress : Bool} {metadata : Option Bytes} {linkSdu : Option ℕ}

/-- With or without retries, a resource is built by some attempt after the checks. -/
private theorem withOptionsInner_ok {retriesLeft : ℕ}
    (h : withOptionsInner rng encryptFn data autoCompress metadata linkSdu retriesLeft = .ok r) :
    check data metadata linkSdu encryptFn.isSome = .ok () ∧
      ∃ k, r = build (rng k) (encryptFn.map (· k)) data autoCompress metadata linkSdu := by
  induction retriesLeft with
  | zero =>
    obtain ⟨_, hcheck, h⟩ := bind_eq_ok.mp h
    exact ⟨hcheck, _, (pure_eq_ok.mp h).symm⟩
  | succ retriesLeft ih =>
    obtain ⟨_, hcheck, h⟩ := bind_eq_ok.mp h
    simp only at h
    split_ifs at h
    · exact ⟨hcheck, _, (pure_eq_ok.mp h).symm⟩
    · exact ih h

/-- A resource is the result of one attempt, and its data passed the checks. -/
theorem withOptions_ok (h : withOptions rng encryptFn data autoCompress metadata linkSdu = .ok r) :
    check data metadata linkSdu encryptFn.isSome = .ok () ∧
      ∃ k, r = build (rng k) (encryptFn.map (· k)) data autoCompress metadata linkSdu :=
  withOptionsInner_ok h

/-- Without collisions the first attempt is the last. -/
theorem withOptions_of_nodup (h : check data metadata linkSdu encryptFn.isSome = .ok ())
    (hnodup : (build (rng 0) (encryptFn.map (· 0)) data autoCompress metadata linkSdu).mapHashes.Nodup) :
    withOptions rng encryptFn data autoCompress metadata linkSdu =
      .ok (build (rng 0) (encryptFn.map (· 0)) data autoCompress metadata linkSdu) := by
  rw [withOptions, maxCollisionRetries, withOptionsInner]
  simp only [h, ok_bind]
  exact if_pos hnodup

/-- Data that passes the checks is built. -/
theorem exists_withOptions (h : check data metadata linkSdu encryptFn.isSome = .ok ()) :
    ∃ r, withOptions rng encryptFn data autoCompress metadata linkSdu = .ok r := by
  have hinner (retriesLeft : ℕ) :
      ∃ r, withOptionsInner rng encryptFn data autoCompress metadata linkSdu retriesLeft = .ok r := by
    induction retriesLeft with
    | zero => exact ⟨_, by rw [withOptionsInner, h]; rfl⟩
    | succ retriesLeft ih =>
      simp only [withOptionsInner, h, ok_bind]
      split_ifs
      · exact ⟨_, rfl⟩
      · exact ih
  exact hinner maxCollisionRetries

end

omit [Sha256] [Bzip2] in
/-- A proof is accepted when its second half is the expected one. -/
theorem validateProof_iff {proofData : Bytes} :
    (r.validateProof proofData).2 = true ↔
      64 ≤ proofData.length ∧ (proofData.drop 32).take 32 = r.expectedProof.1 := by
  unfold validateProof
  split_ifs with hlen heq
  · simp [hlen]
  · exact ⟨fun _ => ⟨Nat.le_of_not_lt hlen, heq⟩, fun _ => rfl⟩
  · simp [heq]

end OutboundResource

end Reticulum.Resource
