import Reticulum.Foundation.Fallible
import Reticulum.Foundation.Lists
import Reticulum.Resource.Window

/-!
# Incoming resources

The receiving side of one segment, `InboundResource` of `resource.rs`: parts are put into the slots
of their map hashes, the complete stream is decrypted, decompressed and checked against the
advertised hash, and metadata is split off.
-/

namespace Reticulum.Resource

/-- `InboundResource`. -/
structure InboundResource where
  state : ResourceState
  parts : List (Option Bytes)
  totalParts : ℕ
  randomHash : Octets 4
  resourceHash : Octets 32
  flags : ResourceFlags
  totalSize : ℕ
  dataSize : ℕ
  consecutiveCompleted : ℕ
  window : WindowState
  mapHashes : List (Octets 4)
  sdu : ℕ
  metadata : Option Bytes
  deriving DecidableEq, Repr

namespace InboundResource

/-- The largest transfer size that a receiver admits: data, tag, token and padding. -/
def maxTotalSize : ℕ := maxEfficientSize + 4 + Wire.tokenOverhead + 16

/-- The largest number of parts that a receiver admits for a transfer size. -/
def maxParts (totalSize : ℕ) : ℕ := divCeil totalSize 32 + 16

/-- `InboundResource::with_sdu`. -/
def withSdu (totalParts totalSize dataSize : ℕ) (randomHash : Octets 4) (resourceHash : Octets 32)
    (flags : ResourceFlags) (initialMapHashes : List (Octets 4)) (linkSdu : Option ℕ) :
    Except ResourceError InboundResource :=
  if totalParts = 0 then .error .invalidAdvertisement
  else if maxTotalSize < totalSize then .error .tooLarge
  else if maxParts totalSize < totalParts then .error .tooLarge
  else .ok
    { state := .transferring
      parts := List.replicate totalParts none
      totalParts
      randomHash
      resourceHash
      flags
      totalSize
      dataSize
      consecutiveCompleted := 0
      window := .new
      mapHashes := initialMapHashes
      sdu := linkSdu.getD Resource.sdu
      metadata := none }

variable {r : InboundResource}

/-- A resource is set up when its numbers are within the bounds. -/
theorem withSdu_eq_ok_iff {totalParts totalSize dataSize : ℕ} {randomHash : Octets 4}
    {resourceHash : Octets 32} {flags : ResourceFlags} {mapHashes : List (Octets 4)}
    {linkSdu : Option ℕ} :
    withSdu totalParts totalSize dataSize randomHash resourceHash flags mapHashes linkSdu = .ok r ↔
      (0 < totalParts ∧ totalSize ≤ maxTotalSize ∧ totalParts ≤ maxParts totalSize) ∧
      r = { state := .transferring
            parts := List.replicate totalParts none
            totalParts
            randomHash
            resourceHash
            flags
            totalSize
            dataSize
            consecutiveCompleted := 0
            window := .new
            mapHashes
            sdu := linkSdu.getD Resource.sdu
            metadata := none } := by
  rw [withSdu, ite_error_eq_ok, ite_error_eq_ok, ite_error_eq_ok, Except.ok.injEq, @eq_comm _ r,
    Nat.pos_iff_ne_zero, Nat.not_lt, Nat.not_lt, and_assoc, and_assoc]

/-- `InboundResource::new`. -/
def new (totalParts totalSize dataSize : ℕ) (randomHash : Octets 4) (resourceHash : Octets 32)
    (flags : ResourceFlags) (initialMapHashes : List (Octets 4)) :
    Except ResourceError InboundResource :=
  withSdu totalParts totalSize dataSize randomHash resourceHash flags initialMapHashes none

/-- The end of the receive window. -/
def windowEnd (r : InboundResource) : ℕ :=
  min (r.consecutiveCompleted + r.window.window) r.totalParts

/-- The first empty slot of the window with the given map hash. -/
def slot (r : InboundResource) (mh : Octets 4) : Option ℕ :=
  (List.range' r.consecutiveCompleted (r.windowEnd - r.consecutiveCompleted)).find? fun i =>
    r.mapHashes[i]? = some mh ∧ r.parts[i]? = some none

/-- `InboundResource::update_consecutive`: skip the received parts. -/
def updateConsecutive (r : InboundResource) : InboundResource :=
  { r with
    consecutiveCompleted := r.consecutiveCompleted +
      ((r.parts.drop r.consecutiveCompleted).takeWhile Option.isSome).length }

/-- `InboundResource::is_complete`. -/
def isComplete (r : InboundResource) : Bool := r.consecutiveCompleted = r.totalParts

/-- `InboundResource::received_count`. -/
def receivedCount (r : InboundResource) : ℕ := r.parts.countP Option.isSome

/-- `InboundResource::handle_cancel`. -/
def handleCancel (r : InboundResource) : InboundResource :=
  { r with state := .failed, parts := List.replicate r.parts.length none }

variable [Sha256]

/-- `InboundResource::receive_part`. -/
def receivePart (r : InboundResource) (data : Bytes) : InboundResource × Bool :=
  match r.slot (getMapHash data r.randomHash.1) with
  | some i => ({ r with parts := r.parts.set i (some data) }.updateConsecutive, true)
  | none => (r, false)

variable [Bzip2]

/-- The transmitted data, decompressed if it was compressed. -/
def unprocess (compressed : Bool) (data : Bytes) : Except ResourceError Bytes :=
  if compressed then (bz2Decompress data maxEfficientSize).mapError fun _ => .decompressionFailed
  else .ok data

/-- Metadata and payload of verified data: the state, the metadata and the result. -/
def splitMetadata (r : InboundResource) (finalData : Bytes) :
    InboundResource × Except ResourceError Bytes :=
  if r.flags.hasMetadata then
    match finalData with
    | a :: b :: c :: rest =>
      let metadataSize := ofBe24 a b c
      if rest.length < metadataSize then
        ({ r with state := .corrupt }, .error (.invalidMetadata metadataSize rest.length))
      else
        ({ r with state := .complete, metadata := some (rest.take metadataSize) },
          .ok (rest.drop metadataSize))
    | _ => ({ r with state := .corrupt }, .error (.invalidMetadata 0 finalData.length))
  else ({ r with state := .complete }, .ok finalData)

/-- `InboundResource::assemble`: the resource after it, and the payload. -/
def assemble (r : InboundResource) (decryptFn : Option (Bytes → Except ResourceError Bytes)) :
    InboundResource × Except ResourceError Bytes :=
  if ¬ r.isComplete then (r, .error .incomplete)
  else
    let r := { r with state := .assembling }
    match r.parts.mapM id with
    | none => (r, .error .incomplete)
    | some parts =>
      match (decryptFn.getD .ok) parts.flatten with
      | .error e => (r, .error e)
      | .ok stream =>
        if stream.length < 4 then ({ r with state := .corrupt }, .error .corrupt)
        else
          match unprocess r.flags.compressed (stream.drop 4) with
          | .error e => (r, .error e)
          | .ok finalData =>
            if computeResourceHash finalData r.randomHash.1 ≠ r.resourceHash then
              ({ r with state := .corrupt }, .error .hashMismatch)
            else r.splitMetadata finalData

/-- `InboundResource::generate_proof`. -/
def generateProof (r : InboundResource) (data : Bytes) : Bytes :=
  r.resourceHash.1 ++ (computeExpectedProof data r.resourceHash).1

/-- The data of which `assemble` computes the hash. -/
def assembledData (r : InboundResource) (decryptFn : Option (Bytes → Except ResourceError Bytes)) :
    Except ResourceError Bytes :=
  match r.parts.mapM id with
  | none => .error .incomplete
  | some parts => do
    let stream ← (decryptFn.getD .ok) parts.flatten
    unprocess r.flags.compressed (stream.drop 4)

/-- A successful assembly found data with the advertised hash and split it. -/
theorem assemble_ok {decryptFn : Option (Bytes → Except ResourceError Bytes)} {payload : Bytes}
    (h : (r.assemble decryptFn).2 = .ok payload) :
    ∃ finalData, r.assembledData decryptFn = .ok finalData ∧
      computeResourceHash finalData r.randomHash.1 = r.resourceHash ∧
      r.assemble decryptFn = { r with state := .assembling }.splitMetadata finalData := by
  unfold assemble at h ⊢
  by_cases hc : ¬ r.isComplete = true
  · rw [if_pos hc] at h
    cases h
  · rw [if_neg hc] at h ⊢
    simp only at h ⊢
    cases hparts : r.parts.mapM id with
    | none =>
      simp only [hparts] at h
      cases h
    | some parts =>
      simp only [hparts] at h ⊢
      cases hdec : (decryptFn.getD .ok) parts.flatten with
      | error e =>
        simp only [hdec] at h
        cases h
      | ok stream =>
        simp only [hdec] at h ⊢
        by_cases hlen : stream.length < 4
        · rw [if_pos hlen] at h
          cases h
        · rw [if_neg hlen] at h ⊢
          cases hun : unprocess r.flags.compressed (stream.drop 4) with
          | error e =>
            simp only [hun] at h
            cases h
          | ok finalData =>
            simp only [hun] at h ⊢
            by_cases hhash : computeResourceHash finalData r.randomHash.1 = r.resourceHash
            · refine ⟨finalData, ?_, hhash, if_neg (not_not.mpr hhash)⟩
              simp only [assembledData, hparts, hdec, ok_bind, hun]
            · rw [if_pos hhash] at h
              cases h

end InboundResource

end Reticulum.Resource
