import Reticulum.Resource.Outbound

/-!
# What the preflight check admits

The preflight check decides from sizes alone, before data is read or encrypted. Encoded
advertisements grow with every number and byte string in them, so an advertisement below the
largest one of a resource is admitted with it.
-/

namespace Reticulum.Resource

open MessagePack List

/-- The request id as a field. -/
def requestIdField (requestId : Option Bytes) : Field := (requestId.map Field.bin).getD .nil

variable {a b : ResourceAdvertisement}

namespace ResourceAdvertisement

/-- The length of an encoded advertisement; the flags and the two hashes have fixed lengths. -/
theorem length_pack (a : ResourceAdvertisement) :
    a.pack.length = 92 + (writeUint a.transferSize).length + (writeUint a.dataSize).length +
      (writeUint a.numParts).length + (writeBin a.randomHash).length +
      (writeUint a.segmentIndex).length + (writeUint a.totalSegments).length +
      (requestIdField a.requestId).write.length + (writeBin a.hashmap).length := by
  have hflags : (writeUint a.flags.toByte.toNat).length = 1 :=
    length_writeUint_of_lt (a.flags.toByte_lt.trans (by decide))
  have hbin (x : Octets 32) : (writeBin x.1).length = 34 := by simp [writeBin]
  have hkey (c : Char) : (writeStr (key c)).length = 2 := rfl
  have hhead : (writeMapLen 11).length = 1 := rfl
  simp only [pack, entries, flatMap_cons, flatMap_nil, length_cons, length_nil,
    length_append, Field.write, hflags, hbin, hkey, Nat.zero_add, Nat.reduceAdd, hhead,
    requestIdField]
  omega

/-- An advertisement with no larger fields is no longer. -/
theorem length_pack_le (ht : a.transferSize ≤ b.transferSize) (hd : a.dataSize ≤ b.dataSize)
    (hn : a.numParts ≤ b.numParts) (hr : a.randomHash.length ≤ b.randomHash.length)
    (hi : a.segmentIndex ≤ b.segmentIndex) (hl : a.totalSegments ≤ b.totalSegments)
    (hq : (requestIdField a.requestId).write.length ≤ (requestIdField b.requestId).write.length)
    (hm : a.hashmap.length ≤ b.hashmap.length) : a.pack.length ≤ b.pack.length := by
  have ht := length_writeUint_le ht
  have hd := length_writeUint_le hd
  have hn := length_writeUint_le hn
  have hr := length_writeBin_le hr
  have hi := length_writeUint_le hi
  have hl := length_writeUint_le hl
  have hm := length_writeBin_le hm
  rw [length_pack, length_pack]
  omega

end ResourceAdvertisement

theorem length_requestIdField_none_le (requestId : Option Bytes) :
    (requestIdField none).write.length ≤ (requestIdField requestId).write.length := by
  cases requestId with
  | none => exact le_rfl
  | some id =>
    simp only [requestIdField, Option.map_none, Option.getD_none, Field.write, writeNil,
      Option.map_some, Option.getD_some, writeBin, length_append]
    split_ifs <;> simp <;> omega

/-- An advertisement is admitted when its padded token fits. -/
theorem checkAdvertisement_iff {a : ResourceAdvertisement} {mtu : ℕ} (hmtu : mtu ≤ usizeMax) :
    checkAdvertisement a mtu = .ok () ↔
      Wire.headerMinsize + ((a.pack.length / 16 + 1) * 16 + 48) ≤ mtu := by
  simp only [checkAdvertisement, ResourceAdvertisement.encodedLen, bind_eq_ok, ite_error_eq_ok]
  constructor
  · rintro ⟨len, ⟨-, hlen⟩, hframe⟩
    obtain rfl := Except.ok.inj hlen
    exact (checkControlFrame_encrypted hmtu).mp hframe
  · intro h
    exact ⟨_, ⟨by omega, rfl⟩, (checkControlFrame_encrypted hmtu).mpr h⟩

/-- Shorter advertisements are admitted where longer ones are. -/
theorem checkAdvertisement_mono {mtu : ℕ} (hmtu : mtu ≤ usizeMax)
    (hle : a.pack.length ≤ b.pack.length) (h : checkAdvertisement b mtu = .ok ()) :
    checkAdvertisement a mtu = .ok () := by
  rw [checkAdvertisement_iff hmtu] at h ⊢
  omega

/-! ### The conditions of the preflight check -/

/-- The size of a segment of `len` bytes as it is transmitted, at most. -/
def transferSize (encrypted : Bool) (len : ℕ) : ℕ :=
  if encrypted then ((len + 4) / 16 + 1) * 16 + 48 else len + 4

variable (encrypted : Bool)

theorem transferSize_mono {m n : ℕ} (h : m ≤ n) :
    transferSize encrypted m ≤ transferSize encrypted n := by
  unfold transferSize
  split_ifs <;> omega

/-- What the preflight check requires of `dataLen` bytes behind `wire` bytes of metadata. -/
structure Admitted (dataLen wire : ℕ) (requestId : Option Bytes)
    (isResponse encrypted hasMetadata : Bool) (partSdu mtu : ℕ) : Prop where
  sdu_pos : partSdu ≠ 0
  dataLen_le : dataLen ≤ maxResourceSize
  wire_le : wire ≤ maxEfficientSize
  segmentCount_le : segmentCount dataLen wire ≤ maxSegments
  requestId_ok : checkRequestId requestId mtu = .ok ()
  advertisement_ok : checkAdvertisement
    (largestAdvertisement (transferSize encrypted (min (dataLen + wire) maxEfficientSize))
      (dataLen + wire) (segmentCount dataLen wire) requestId isResponse encrypted hasMetadata
      partSdu) mtu = .ok ()
  controls_ok : checkControls
    (divCeil (transferSize encrypted (min (dataLen + wire) maxEfficientSize)) partSdu) mtu = .ok ()

variable {len : ℕ}

/-- Sizes that the preflight check bounds do not overflow. -/
private theorem transferSize_eq_ok (h : len ≤ maxEfficientSize) {size : ℕ} :
    bodyLen encrypted (len + 4) = .ok size ↔ transferSize encrypted len = size := by
  have hm : maxEfficientSize = 1048575 := rfl
  have hu : usizeMax = 2 ^ 64 - 1 := rfl
  have hfits : ¬ usizeMax < ((len + 4) / 16 + 1) * 16 + 48 := by omega
  cases encrypted with
  | true => simp [transferSize, bodyLen, encryptedLen, hfits]
  | false => simp [transferSize, bodyLen]

theorem preflightOutboundWithSdu_ok_iff {dataLen : ℕ} {metadataLen : Option ℕ}
    {requestId : Option Bytes} {isResponse encrypted : Bool} {partSdu mtu : ℕ} :
    preflightOutboundWithSdu dataLen metadataLen requestId isResponse encrypted partSdu mtu =
        .ok () ↔
      ∃ wire, metadataWire metadataLen = .ok wire ∧
        Admitted dataLen wire requestId isResponse encrypted metadataLen.isSome partSdu mtu := by
  have hm : maxEfficientSize = 1048575 := rfl
  have hu : usizeMax = 2 ^ 64 - 1 := rfl
  have hr : maxResourceSize = 134217727 := rfl
  have hs : maxSegments = 128 := rfl
  simp only [preflightOutboundWithSdu, ite_error_eq_ok, bind_eq_ok,
    transferSize_eq_ok encrypted (Nat.min_le_right _ _)]
  constructor
  · rintro ⟨hsdu, hdata, wire, hwire, hle, -, -, hcount, _, hid, -, size, rfl, _, hadv, hctl⟩
    exact ⟨wire, hwire, hsdu, by omega, by omega, by omega, hid, hadv, hctl⟩
  · rintro ⟨wire, hwire, h⟩
    have h1 := h.dataLen_le
    have h2 := h.wire_le
    have h3 := h.segmentCount_le
    exact ⟨h.sdu_pos, by omega, wire, hwire, by omega, by omega, by omega, by omega, (),
      h.requestId_ok, by omega, _, rfl, (), h.advertisement_ok, h.controls_ok⟩

/-- A resource without a request id, or with the same one, is admitted in either role. -/
theorem Admitted.of_requestId {dataLen wire : ℕ} {requestId requestId' : Option Bytes}
    {isResponse isResponse' encrypted hasMetadata : Bool} {partSdu mtu : ℕ} (hmtu : mtu ≤ usizeMax)
    (h : Admitted dataLen wire requestId isResponse encrypted hasMetadata partSdu mtu)
    (hid : ∀ id ∈ requestId', requestId = some id) :
    Admitted dataLen wire requestId' isResponse' encrypted hasMetadata partSdu mtu := by
  have hle : (requestIdField requestId').write.length ≤ (requestIdField requestId).write.length := by
    cases requestId' with
    | none => exact length_requestIdField_none_le requestId
    | some id => rw [hid id rfl]
  refine ⟨h.sdu_pos, h.dataLen_le, h.wire_le, h.segmentCount_le, ?_, ?_, h.controls_ok⟩
  · cases requestId' with
    | none => rfl
    | some id => exact hid id rfl ▸ h.requestId_ok
  · refine checkAdvertisement_mono hmtu ?_ h.advertisement_ok
    exact ResourceAdvertisement.length_pack_le le_rfl le_rfl le_rfl le_rfl le_rfl le_rfl hle le_rfl

/-! ### One segment -/

/-- A single segment has one segment. -/
theorem segmentCount_of_le {dataLen wire : ℕ} (h : dataLen + wire ≤ maxEfficientSize) :
    segmentCount dataLen wire = 1 := by
  rw [segmentCount, Nat.min_eq_left (by omega), Nat.sub_self]
  rfl

/-- The parts of a segment at the default size. -/
theorem divCeil_transferSize_le (h : len ≤ maxEfficientSize) :
    divCeil (transferSize encrypted len) sdu ≤ 2260 :=
  calc divCeil (transferSize encrypted len) sdu
      ≤ divCeil (transferSize encrypted maxEfficientSize) sdu :=
        divCeil_mono (transferSize_mono encrypted h) _
    _ ≤ 2260 := by cases encrypted <;> decide

/-- The encoded length of a full hash map. -/
private theorem length_writeBin_map {b : Bytes} (h : b.length = hashmapStride * 4) :
    (writeBin b).length = 299 := by
  rw [writeBin, length_append, h]
  rfl

/-- The control messages of a segment of at most 2260 parts fit. -/
private theorem checkControls_of_le {parts : ℕ} (h : parts ≤ 2260) :
    checkControls parts Wire.mtu = .ok () := by
  have hu : usizeMax = 2 ^ 64 - 1 := rfl
  have hseg : (writeUint ((parts - 1) / hashmapStride)).length = 1 :=
    length_writeUint_of_lt (by unfold hashmapStride; omega)
  have hhmu : (encodeHashmapUpdate (Octets.replicate 32 0) ((parts - 1) / hashmapStride)
      (List.replicate (hashmapStride * 4) 0)).length = 333 := by
    simp only [encodeHashmapUpdate, length_append, Octets.length_val, hseg,
      length_writeBin_map length_replicate]
    rfl
  simp only [checkControls, hhmu]
  decide

/-- The largest advertisement of a single segment without a request id fits. -/
private theorem checkAdvertisement_one (isResponse encrypted hasMetadata : Bool)
    (h : len ≤ maxEfficientSize) :
    checkAdvertisement (largestAdvertisement (transferSize encrypted len) len 1 none isResponse
      encrypted hasMetadata sdu) Wire.mtu = .ok () := by
  have hsize : transferSize encrypted len ≤ 1048640 :=
    (transferSize_mono encrypted h).trans (by cases encrypted <;> decide)
  have ht : (writeUint (transferSize encrypted len)).length ≤ 5 := length_writeUint_le hsize
  have hd : (writeUint len).length ≤ 5 := length_writeUint_le h
  have hn : (writeUint (divCeil (transferSize encrypted len) sdu)).length ≤ 3 :=
    length_writeUint_le (divCeil_transferSize_le encrypted h)
  set a := largestAdvertisement (transferSize encrypted len) len 1 none isResponse encrypted
    hasMetadata sdu with ha
  have hm : (writeBin a.hashmap).length ≤ 299 := by
    refine (length_writeBin_le ?_).trans_eq
      (length_writeBin_map (b := List.replicate (hashmapStride * 4) 0) length_replicate)
    have hmap : a.hashmap.length = _ := length_flatMap_val _
    rw [hmap, length_replicate, length_take]
    exact Nat.mul_le_mul_right 4 (Nat.min_le_left _ _)
  have hlen := a.length_pack
  have ht' : (writeUint a.transferSize).length ≤ 5 := ht
  have hd' : (writeUint a.dataSize).length ≤ 5 := hd
  have hn' : (writeUint a.numParts).length ≤ 3 := hn
  have hrest : (writeBin a.randomHash).length = 6 ∧ (writeUint a.segmentIndex).length = 1 ∧
      (writeUint a.totalSegments).length = 1 ∧ (requestIdField a.requestId).write.length = 1 :=
    ⟨rfl, rfl, rfl, rfl⟩
  rw [checkAdvertisement_iff (by decide)]
  have hmtu : Wire.mtu = 500 := rfl
  have hheader : Wire.headerMinsize = 19 := rfl
  omega

namespace OutboundResource

variable {metadata : Option Bytes}

/-- The wire size of metadata is the one that the preflight check counts. -/
theorem metadataWire_eq (h : metadataWireSize metadata ≤ maxEfficientSize) :
    metadataWire (metadata.map List.length) = .ok (metadataWireSize metadata) := by
  have hm : maxEfficientSize = 1048575 := rfl
  have hu : usizeMax = 2 ^ 64 - 1 := rfl
  cases metadata with
  | none => rfl
  | some m =>
    have hlen : metadataWireSize (some m) = 3 + m.length := rfl
    have hfits : ¬ usizeMax < m.length + 3 := by omega
    rw [Option.map_some, metadataWire, if_neg hfits, hlen, Nat.add_comm]

/-- Content that fits one segment passes the checks, with and without encryption. -/
theorem check_of_le {data : Bytes} (encrypted : Bool)
    (h : metadataWireSize metadata + data.length ≤ maxEfficientSize) :
    check data metadata none encrypted = .ok () := by
  have hm : maxEfficientSize = 1048575 := rfl
  have hu : usizeMax = 2 ^ 64 - 1 := rfl
  have hr : maxResourceSize = 134217727 := rfl
  have hM : metadataMaxSize = 16777215 := rfl
  set wire := metadataWireSize metadata with hwire
  have hcount : segmentCount data.length wire = 1 := segmentCount_of_le (by omega)
  have hmin : min (data.length + wire) maxEfficientSize = data.length + wire :=
    Nat.min_eq_left (by omega)
  have hparts : divCeil (transferSize encrypted (data.length + wire)) Resource.sdu ≤ 2260 :=
    divCeil_transferSize_le encrypted (by omega)
  have hadmitted : Admitted data.length wire none false encrypted
      (metadata.map List.length).isSome Resource.sdu Wire.mtu := by
    refine ⟨by decide, by omega, by omega, by rw [hcount]; decide, rfl, ?_, ?_⟩
    · rw [hmin, hcount]
      exact checkAdvertisement_one false encrypted _ (by omega)
    · rw [hmin]
      exact checkControls_of_le hparts
  have hpre := preflightOutboundWithSdu_ok_iff.mpr
    ⟨wire, metadataWire_eq (by omega), hadmitted⟩
  have hmeta : ¬ ∃ m ∈ metadata, metadataMaxSize < m.length := by
    rintro ⟨m, rfl, hlt⟩
    have hlen : wire = 3 + m.length := rfl
    omega
  have hsdu : ¬ Resource.sdu = 0 := by decide
  simp only [check, Option.getD_none, hsdu, ↓reduceIte, hpre, ok_bind, hmeta, ← hwire]
  rw [if_neg (by omega)]

end OutboundResource

end Reticulum.Resource
