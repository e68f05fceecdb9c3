import Reticulum.Foundation.Fallible
import Reticulum.Foundation.MessagePack
import Reticulum.Resource.Basic

/-!
# Resource advertisements

The message that announces a resource, `resource_adv.rs`, and the size check of resource control
frames, `resource_control.rs`. An advertisement is a MessagePack map of eleven fields; it carries
the first map hashes of the parts.
-/

namespace Reticulum.Resource

open List Wire

/-! ### Control frames -/

/-- `usize::MAX`. -/
def usizeMax : ℕ := 2 ^ 64 - 1

/-- `encrypted_len`: block padding and token overhead. -/
def encryptedLen (plaintextLen : ℕ) : Except ResourceError ℕ :=
  let len := (plaintextLen / 16 + 1) * 16 + 48
  if usizeMax < len then .error .tooLarge else .ok len

/-- The size of a body as it is transmitted. -/
def bodyLen (encrypted : Bool) (len : ℕ) : Except ResourceError ℕ :=
  if encrypted then encryptedLen len else .ok len

/-- `check_control_frame`. -/
def checkControlFrame (context : PacketContext) (payloadLen : ℕ) (encrypted : Bool)
    (headerLen mtu : ℕ) : Except ResourceError Unit := do
  let body ← bodyLen encrypted payloadLen
  let encodedLen := headerLen + body
  if usizeMax < encodedLen then .error .tooLarge
  else if mtu < encodedLen then .error (.controlFrameTooLarge context encodedLen mtu)
  else .ok ()

/-- An encrypted control frame is admitted when the padded token fits. -/
theorem checkControlFrame_encrypted {context : PacketContext} {payloadLen headerLen mtu : ℕ}
    (hmtu : mtu ≤ usizeMax) :
    checkControlFrame context payloadLen true headerLen mtu = .ok () ↔
      headerLen + ((payloadLen / 16 + 1) * 16 + 48) ≤ mtu := by
  simp only [checkControlFrame, bodyLen, ↓reduceIte, bind_eq_ok, encryptedLen, ite_error_eq_ok]
  constructor
  · rintro ⟨len, ⟨-, hlen⟩, -, hfit, -⟩
    obtain rfl := Except.ok.inj hlen
    omega
  · intro h
    exact ⟨_, ⟨by omega, rfl⟩, by omega, by omega, trivial⟩

/-! ### Map hashes -/

/-- `hashmap_max_len`. -/
def hashmapMaxLen (mdu : ℕ) : ℕ := if 134 < mdu then (mdu - 134) / 4 else 0

/-- `collision_guard_size`. -/
def collisionGuardSize (mdu : ℕ) : ℕ := 2 * windowMaxFast + hashmapMaxLen mdu

/-- A hash map cut into map hashes; an incomplete one at the end is dropped. -/
def mapHashChunks : Bytes → List (Octets 4)
  | a :: b :: c :: d :: rest => ⟨[a, b, c, d], rfl⟩ :: mapHashChunks rest
  | _ => []

@[simp] theorem mapHashChunks_flatMap (hashes : List (Octets 4)) :
    mapHashChunks (hashes.flatMap (·.1)) = hashes := by
  induction hashes with
  | nil => rfl
  | cons h hashes ih =>
    rcases h with ⟨h, hlen⟩
    match h, hlen with
    | [a, b, c, d], _ =>
      rw [flatMap_cons]
      exact congrArg (List.cons _) ih

@[simp] theorem length_flatMap_val {n : ℕ} (hashes : List (Octets n)) :
    (hashes.flatMap (·.1)).length = hashes.length * n := by
  induction hashes with
  | nil => simp
  | cons h hashes ih =>
    rw [flatMap_cons, length_append, ih, length_cons, h.2, Nat.succ_mul, Nat.add_comm]

/-! ### Advertisements -/

/-- `ResourceAdvertisement`. -/
structure ResourceAdvertisement where
  transferSize : ℕ
  dataSize : ℕ
  numParts : ℕ
  resourceHash : Octets 32
  randomHash : Bytes
  originalHash : Octets 32
  segmentIndex : ℕ
  totalSegments : ℕ
  requestId : Option Bytes
  flags : ResourceFlags
  hashmap : Bytes
  metadataSize : ℕ
  deriving DecidableEq, Repr

/-- What a key or a field of an advertisement is written from. -/
inductive Field
  | str (s : Bytes)
  | uint (n : ℕ)
  | bin (b : Bytes)
  | nil

namespace Field

open MessagePack

/-- The bytes of a field. -/
def write : Field → Bytes
  | str s => writeStr s
  | uint n => writeUint n
  | bin b => writeBin b
  | nil => writeNil

/-- The value of a field. -/
def value : Field → Value
  | str s => .string s
  | uint n => .integer n
  | bin b => .binary b
  | nil => .nil

/-- The field fits its format. -/
def Fits : Field → Prop
  | str s => s.length < 32
  | uint n => n < 2 ^ 64
  | bin b => b.length < 2 ^ 32
  | nil => True

theorem readValue_write {f : Field} (h : f.Fits) (depth : ℕ) (rest : Bytes) :
    readValue (depth + 1) (f.write ++ rest) = some (f.value, rest) := by
  cases f with
  | str s => exact readValue_writeStr depth rest h
  | uint n => exact readValue_writeUint depth rest h
  | bin b => exact readValue_writeBin depth rest h
  | nil => exact readValue_writeNil depth rest

end Field

namespace ResourceAdvertisement

open MessagePack

/-- The map key of one letter. -/
def key (c : Char) : Bytes := [UInt8.ofNat c.toNat]

/-- `ResourceAdvertisement::with_metadata_size`. -/
def withMetadataSize (transferSize dataSize numParts : ℕ) (resourceHash : Octets 32)
    (randomHash : Bytes) (flags : ResourceFlags) (mapHashes : List (Octets 4)) (mdu : ℕ)
    (metadataSize : ℕ) : ResourceAdvertisement where
  transferSize := transferSize
  dataSize := dataSize
  numParts := numParts
  resourceHash := resourceHash
  randomHash := randomHash
  originalHash := resourceHash
  segmentIndex := 1
  totalSegments := 1
  requestId := none
  flags := flags
  hashmap := (mapHashes.take (hashmapMaxLen mdu)).flatMap (·.1)
  metadataSize := metadataSize

/-- `ResourceAdvertisement::new`. -/
def new (transferSize dataSize numParts : ℕ) (resourceHash : Octets 32) (randomHash : Bytes)
    (flags : ResourceFlags) (mapHashes : List (Octets 4)) (mdu : ℕ) : ResourceAdvertisement :=
  withMetadataSize transferSize dataSize numParts resourceHash randomHash flags mapHashes mdu 0

/-- The map that an advertisement is serialised as. -/
def entries (a : ResourceAdvertisement) : List (Field × Field) :=
  [(.str (key 't'), .uint a.transferSize),
    (.str (key 'd'), .uint a.dataSize),
    (.str (key 'n'), .uint a.numParts),
    (.str (key 'h'), .bin a.resourceHash.1),
    (.str (key 'r'), .bin a.randomHash),
    (.str (key 'o'), .bin a.originalHash.1),
    (.str (key 'i'), .uint a.segmentIndex),
    (.str (key 'l'), .uint a.totalSegments),
    (.str (key 'q'), (a.requestId.map Field.bin).getD .nil),
    (.str (key 'f'), .uint a.flags.toByte.toNat),
    (.str (key 'm'), .bin a.hashmap)]

/-- `ResourceAdvertisement::pack`. -/
def pack (a : ResourceAdvertisement) : Bytes :=
  writeMapLen a.entries.length ++ a.entries.flatMap fun e => e.1.write ++ e.2.write

/-- `ResourceAdvertisement::encoded_len`. -/
def encodedLen (a : ResourceAdvertisement) : Except ResourceError ℕ :=
  if usizeMax < a.pack.length then .error .tooLarge else .ok a.pack.length

/-- `ResourceAdvertisement::get_map_hashes`. -/
def getMapHashes (a : ResourceAdvertisement) : List (Octets 4) := mapHashChunks a.hashmap

/-- The reasons for which `unpack` refuses. -/
inductive UnpackError
  | frame (error : ResourceError)
  | decode
  | expectedMap
  | missingKey (c : Char)
  | short (c : Char) (expected actual : ℕ)
  deriving DecidableEq, Repr

/-- The first value under a key. -/
def get (map : List (Value × Value)) (c : Char) : Option Value :=
  (map.find? fun e => match e.1 with
    | .string s => s == key c
    | _ => false).map (·.2)

/-- The number under a key. -/
def getUsize (map : List (Value × Value)) (c : Char) : Except UnpackError ℕ :=
  match (get map c).bind Value.asU64 with
  | some n => .ok n
  | none => .error (.missingKey c)

/-- The byte string under a key, of at least `len` bytes. -/
def getBytes (map : List (Value × Value)) (c : Char) (len : ℕ) : Except UnpackError Bytes :=
  match (get map c).bind Value.asSlice with
  | some b => if b.length < len then .error (.short c len b.length) else .ok b
  | none => .error (.missingKey c)

/-- `ResourceAdvertisement::unpack`. -/
def unpack (data : Bytes) : Except UnpackError ResourceAdvertisement := do
  (checkControlFrame .resourceAdv data.length true headerMinsize mtu).mapError .frame
  let map ← match readValue maxDepth data with
    | none => .error .decode
    | some (.map m, _) => .ok m
    | some _ => .error .expectedMap
  let transferSize ← getUsize map 't'
  let dataSize ← getUsize map 'd'
  let numParts ← getUsize map 'n'
  let resourceHash ← getBytes map 'h' 32
  let randomHash ← getBytes map 'r' 4
  let originalHash ← getBytes map 'o' 32
  let segmentIndex ← getUsize map 'i'
  let totalSegments ← getUsize map 'l'
  let requestId := (get map 'q').bind fun v => if v.isNil then none else v.asSlice
  let flags := .fromByte (UInt8.ofNat (((get map 'f').bind Value.asU64).getD 0))
  let hashmap := ((get map 'm').bind Value.asSlice).getD []
  return { transferSize, dataSize, numParts, resourceHash := Octets.read 32 resourceHash
           randomHash, originalHash := Octets.read 32 originalHash, segmentIndex, totalSegments
           requestId, flags, hashmap, metadataSize := 0 }

/-- The fields fit their formats. -/
structure WellFormed (a : ResourceAdvertisement) : Prop where
  transferSize : a.transferSize ≤ usizeMax
  dataSize : a.dataSize ≤ usizeMax
  numParts : a.numParts ≤ usizeMax
  segmentIndex : a.segmentIndex ≤ usizeMax
  totalSegments : a.totalSegments ≤ usizeMax
  le_randomHash : 4 ≤ a.randomHash.length
  randomHash_lt : a.randomHash.length < 2 ^ 32
  requestId : ∀ id ∈ a.requestId, id.length < 2 ^ 32
  hashmap : a.hashmap.length < 2 ^ 32

variable {a : ResourceAdvertisement}

/-- The map of a well-formed advertisement is read back. -/
private theorem readValue_pack (h : a.WellFormed) :
    readValue maxDepth a.pack =
      some (.map (a.entries.map fun e => (e.1.value, e.2.value)), []) := by
  have hu : usizeMax = 2 ^ 64 - 1 := rfl
  have hfits : ∀ e ∈ a.entries, e.1.Fits ∧ e.2.Fits := by
    have hid : ((a.requestId.map Field.bin).getD .nil).Fits := by
      cases hid : a.requestId with
      | none => trivial
      | some id => exact h.requestId id hid
    have hflags := a.flags.toByte_lt
    have h1 := h.transferSize
    have h2 := h.dataSize
    have h3 := h.numParts
    have h4 := h.segmentIndex
    have h5 := h.totalSegments
    simp only [entries, forall_mem_cons, Field.Fits, key, length_singleton,
      Octets.length_val, h.randomHash_lt, h.hashmap]
    refine ⟨?_, ?_, ?_, ?_, ?_, ?_, ?_, ?_, ⟨by decide, hid⟩, ?_, ?_, by simp⟩ <;>
      refine ⟨by decide, ?_⟩ <;> first | trivial | omega
  have hlen : a.entries.length < 16 := show 11 < 16 by decide
  have hread := readValue_map 1023 [] hlen fun e he rest =>
    ⟨Field.readValue_write (hfits e he).1 1022 rest, Field.readValue_write (hfits e he).2 1022 rest⟩
  rw [append_nil] at hread
  exact hread

/-- An advertisement of well-formed fields that the frame check admits is unpacked as it was
packed; the size of the metadata is not transmitted. -/
theorem unpack_pack (h : a.WellFormed)
    (hframe : checkControlFrame .resourceAdv a.pack.length true headerMinsize mtu = .ok ()) :
    unpack a.pack = .ok { a with metadataSize := 0 } := by
  have hshort : ¬ a.randomHash.length < 4 := Nat.not_lt.mpr h.le_randomHash
  have hnum {m : List (Value × Value)} {c : Char} {n : ℕ} (hget : get m c = some (.integer n)) :
      getUsize m c = .ok n := by
    simp [getUsize, hget]
  have hbin {m : List (Value × Value)} {c : Char} {b : Bytes} {len : ℕ}
      (hget : get m c = some (.binary b)) (hlen : ¬ b.length < len) : getBytes m c len = .ok b := by
    simp [getBytes, hget, Value.asSlice, hlen]
  set m := a.entries.map fun e => (e.1.value, e.2.value) with hm
  have ht : getUsize m 't' = .ok a.transferSize := hnum rfl
  have hd : getUsize m 'd' = .ok a.dataSize := hnum rfl
  have hn : getUsize m 'n' = .ok a.numParts := hnum rfl
  have hh : getBytes m 'h' 32 = .ok a.resourceHash.1 := hbin rfl (by simp)
  have hr : getBytes m 'r' 4 = .ok a.randomHash := hbin rfl hshort
  have ho : getBytes m 'o' 32 = .ok a.originalHash.1 := hbin rfl (by simp)
  have hi : getUsize m 'i' = .ok a.segmentIndex := hnum rfl
  have hl : getUsize m 'l' = .ok a.totalSegments := hnum rfl
  have hq : get m 'q' = some ((a.requestId.map Field.bin).getD .nil).value := rfl
  have hf : get m 'f' = some (.integer a.flags.toByte.toNat) := rfl
  have hmap : get m 'm' = some (.binary a.hashmap) := rfl
  have hid : (if ((a.requestId.map Field.bin).getD .nil).value.isNil then none
      else ((a.requestId.map Field.bin).getD .nil).value.asSlice) = a.requestId := by
    cases a.requestId with
    | none => rfl
    | some id => rfl
  simp only [unpack, hframe, readValue_pack h, ← hm, mapError_ok, ok_bind, ht, hd, hn, hh, hr, ho,
    hi, hl, hq, hf, hmap, Option.bind_some, hid, Value.asU64_natCast, Option.getD_some,
    UInt8.ofNat_toNat, ResourceFlags.fromByte_toByte, Octets.read_self]
  rfl

/-- The numbers of an advertisement are `usize` values. -/
structure Sized (a : ResourceAdvertisement) : Prop where
  transferSize : a.transferSize ≤ usizeMax
  dataSize : a.dataSize ≤ usizeMax
  numParts : a.numParts ≤ usizeMax
  segmentIndex : a.segmentIndex ≤ usizeMax
  totalSegments : a.totalSegments ≤ usizeMax

/-- No field is longer than the packed advertisement. -/
theorem length_write_le_pack {e : Field × Field} (he : e ∈ a.entries) :
    e.2.write.length ≤ a.pack.length := by
  have hmem : e.1.write ++ e.2.write ∈ a.entries.map fun e => e.1.write ++ e.2.write :=
    mem_map_of_mem he
  have hle := (sublist_flatten_of_mem hmem).length_le
  rw [length_append] at hle
  rw [pack, length_append, flatMap_def]
  omega

/-- The frame check bounds every field, so that only the random tag is left to ask about. -/
theorem wellFormed_of_frame (hs : a.Sized)
    (hframe : checkControlFrame .resourceAdv a.pack.length true headerMinsize mtu = .ok ())
    (hr : 4 ≤ a.randomHash.length) : a.WellFormed := by
  have hpack : a.pack.length < 500 := by
    have hfit := (checkControlFrame_encrypted (by decide)).mp hframe
    have hmtu : mtu = 500 := rfl
    omega
  have hbin {k : Field} {b : Bytes} (he : (k, Field.bin b) ∈ a.entries) : b.length < 2 ^ 32 := by
    have hle := length_write_le_pack he
    simp only [Field.write, writeBin, length_append] at hle
    omega
  have hid : ∀ id ∈ a.requestId, id.length < 2 ^ 32 := by
    intro id hid
    refine hbin (k := .str (key 'q')) ?_
    have hsome : a.requestId = some id := hid
    simp [entries, hsome]
  exact
    { transferSize := hs.transferSize
      dataSize := hs.dataSize
      numParts := hs.numParts
      segmentIndex := hs.segmentIndex
      totalSegments := hs.totalSegments
      le_randomHash := hr
      randomHash_lt := hbin (k := .str (key 'r')) (by simp [entries])
      requestId := hid
      hashmap := hbin (k := .str (key 'm')) (by simp [entries]) }

/-- What `unpack` accepts has passed the frame check and carries a random tag of four bytes or
more. -/
theorem of_unpack_eq_ok {data : Bytes} (h : unpack data = .ok a) :
    checkControlFrame .resourceAdv data.length true headerMinsize mtu = .ok () ∧
      4 ≤ a.randomHash.length := by
  simp only [unpack, bind_eq_ok, mapError_eq_ok] at h
  obtain ⟨⟨⟩, hframe, h⟩ := h
  refine ⟨hframe, ?_⟩
  split at h
  · exact absurd h nofun
  · rename_i map _ _
    simp only [ok_bind, bind_eq_ok, pure_eq_ok] at h
    obtain ⟨-, -, -, -, -, -, -, -, tag, htag, -, -, -, -, -, -, rfl⟩ := h
    cases hget : (get map 'r').bind Value.asSlice with
    | none => simp [getBytes, hget] at htag
    | some b =>
      simp only [getBytes, hget, ite_error_eq_ok] at htag
      obtain rfl := Except.ok.inj htag.2
      exact Nat.le_of_not_lt htag.1
  · exact absurd h nofun

end ResourceAdvertisement

/-- `check_advertisement`. -/
def checkAdvertisement (advertisement : ResourceAdvertisement) (mtu : ℕ) :
    Except ResourceError Unit := do
  let len ← advertisement.encodedLen
  checkControlFrame .resourceAdv len true headerMinsize mtu

end Reticulum.Resource
