import Reticulum.Crypto.Primitives
import Reticulum.Wire.Header

/-!
# Packet hashes

The hash of a packet leaves out what forwarding changes: the hop count, the upper half of the flags
byte and the transport id. The functions follow `hash.rs` of the `rns-wire` crate; on an empty
packet, where the source panics, they return `none`.
-/

namespace Reticulum.Wire

open PacketHeader Option

/-! ### The functions of the source -/

/-- The number of bytes at the start of a packet that its hash skips. -/
def hashSkip : HeaderType → ℕ
  | .header2 => 128 / 8 + 2
  | .header1 => 2

/-- `get_hashable_part`. -/
def getHashablePart (raw : Bytes) (headerType : HeaderType) : Option Bytes := do
  let flags ← raw.head?
  let hashable := [flags &&& 0x0F]
  let skip := hashSkip headerType
  return if skip < raw.length then hashable ++ raw.drop skip else hashable

variable [Sha256]

/-- `packet_hash`. The hasher is fed the flags nibble, then the rest. -/
def packetHash (raw : Bytes) (headerType : HeaderType) : Option (Octets 32) := do
  let flags ← raw.head?
  let hasher : Bytes := [flags &&& 0x0F]
  let skip := match headerType with
    | .header2 => 128 / 8 + 2
    | .header1 => 2
  return if skip < raw.length then Sha256.digest (hasher ++ raw.drop skip)
    else Sha256.digest hasher

/-- `truncated_packet_hash`. -/
def truncatedPacketHash (raw : Bytes) (headerType : HeaderType) : Option (Octets 16) :=
  (packetHash raw headerType).map fun full => Octets.read 16 full.1

/-- `link_id_from_raw`. -/
def linkIdFromRaw (raw : Bytes) (headerType : HeaderType) : Option (Octets 16) := do
  let hashable ← getHashablePart raw headerType
  let headerInHashable := 1 + 16 + 1
  let dataInHashable := hashable.length - headerInHashable
  let hashable :=
    if 64 < dataInHashable then hashable.take (hashable.length - (dataInHashable - 64))
    else hashable
  return truncatedHash hashable

/-- `packet_hash` is the hash of the hashable part. -/
theorem packetHash_eq (raw : Bytes) (headerType : HeaderType) :
    packetHash raw headerType = (getHashablePart raw headerType).map fullHash := by
  cases raw with
  | nil => rfl
  | cons b raw =>
    simp only [packetHash, getHashablePart, List.head?_cons, bind_eq_bind,
      bind_some, pure_def, map_some, apply_ite fullHash]
    cases headerType <;> rfl

/-! ### The content of a packet -/

/-- What the hash of a packet depends on. -/
structure Content where
  flagsNibble : UInt8
  destinationHash : Octets 16
  context : UInt8
  payload : Bytes
  deriving DecidableEq, Repr

namespace Content

/-- The bytes that are hashed. -/
def hashable (k : Content) : Bytes :=
  k.flagsNibble :: (k.destinationHash.1 ++ k.context :: k.payload)

/-- The bytes a link id is made of: the payload counts up to the key block only. -/
def linkHashable (k : Content) : Bytes :=
  k.flagsNibble :: (k.destinationHash.1 ++ k.context :: k.payload.take 64)

omit [Sha256] in
/-- The hashed bytes decide the payload. -/
theorem payload_eq_of_hashable_eq {k k' : Content} (h : k.hashable = k'.hashable) :
    k.payload = k'.payload := by
  obtain ⟨-, h⟩ := List.cons.inj h
  obtain ⟨-, h⟩ := List.append_inj h (by rw [Octets.length_val, Octets.length_val])
  exact (List.cons.inj h).2

end Content

/-- A well-formed packet with content `k`: its flags byte agrees with its layout. -/
structure Carries (k : Content) (raw : Bytes) : Prop where
  exists_frame : ∃ b0 hops transportId,
    raw = frame b0 hops transportId k.destinationHash k.context k.payload ∧
    ((PacketFlags.unpack b0).headerType = .header2 ↔ transportId.isSome) ∧
    b0 &&& 0x0F = k.flagsNibble

namespace Carries

variable {k : Content} {raw : Bytes} {h : PacketHeader} {offset : ℕ}

omit [Sha256] in
/-- Every packet that parses carries the content its header and payload say. -/
theorem of_unpack (hu : unpack raw = .ok (h, offset)) :
    ∃ k, Carries k raw ∧ k.destinationHash = h.destinationHash ∧
      PacketContext.fromByte k.context = h.context ∧ k.payload = raw.drop offset ∧
      k.flagsNibble = (h.flags.destinationType.toByte <<< 2) ||| h.flags.packetType.toByte := by
  obtain ⟨b0, c, payload, hraw, hf, hc, hb, -, hp⟩ := PacketHeader.exists_frame hu
  refine ⟨⟨b0 &&& 0x0F, h.destinationHash, c, payload⟩, ⟨b0, h.hops, h.transportId, hraw, ?_, rfl⟩,
    rfl, hc, hp.symm, ?_⟩
  · rw [hf, hb]
  · rw [← hf]
    exact (PacketFlags.and_low_nibble b0).symm

omit [Sha256] in
/-- A packet that carries a content parses, and its layout is the one its header type names. -/
theorem unpack (hk : Carries k raw) :
    ∃ h offset, unpack raw = .ok (h, offset) ∧ k.destinationHash = h.destinationHash ∧
      raw.drop offset = k.payload := by
  obtain ⟨b0, hops, tid, rfl, hb, -⟩ := hk.exists_frame
  exact ⟨_, _, unpack_frame hb hops _ _ _, rfl, drop_frame tid _ _ _⟩

omit [Sha256] in
/-- The payload of a packet stands behind its header. -/
theorem payload_eq (hk : Carries k raw) (hu : PacketHeader.unpack raw = .ok (h, offset)) :
    raw.drop offset = k.payload ∧ raw.drop h.size = k.payload := by
  obtain ⟨h', offset', hu', -, hpayload⟩ := hk.unpack
  obtain ⟨rfl, rfl⟩ := Prod.mk.inj (Except.ok.inj (hu.symm.trans hu'))
  obtain ⟨-, -, -, -, -, -, -, hoffset, -⟩ := PacketHeader.exists_frame hu
  exact ⟨hpayload, hoffset ▸ hpayload⟩

omit [Sha256] in
/-- Contents with one flags nibble belong to packets of one type. -/
theorem packetType_eq {k' : Content} {raw' : Bytes} {h' : PacketHeader} {offset' : ℕ}
    (hk : Carries k raw) (hk' : Carries k' raw') (hn : k.flagsNibble = k'.flagsNibble)
    (hu : PacketHeader.unpack raw = .ok (h, offset))
    (hu' : PacketHeader.unpack raw' = .ok (h', offset')) :
    h.flags.packetType = h'.flags.packetType := by
  obtain ⟨b0, hops, tid, rfl, hb, hnibble⟩ := hk.exists_frame
  obtain ⟨b0', hops', tid', rfl, hb', hnibble'⟩ := hk'.exists_frame
  obtain ⟨rfl, -⟩ := Prod.mk.inj (Except.ok.inj
    ((PacketHeader.unpack_frame hb hops _ k.context k.payload).symm.trans hu))
  obtain ⟨rfl, -⟩ := Prod.mk.inj (Except.ok.inj
    ((PacketHeader.unpack_frame hb' hops' _ k'.context k'.payload).symm.trans hu'))
  exact PacketFlags.packetType_eq_of_and_eq (hnibble.trans (hn.trans hnibble'.symm))

omit [Sha256] in
/-- The hashable part of a packet is a function of its content. -/
theorem getHashablePart_eq (hk : Carries k raw)
    (hu : PacketHeader.unpack raw = .ok (h, offset)) :
    getHashablePart raw h.flags.headerType = some k.hashable := by
  obtain ⟨b0, hops, tid, rfl, hb, hn⟩ := hk.exists_frame
  obtain ⟨rfl, -⟩ := Prod.mk.inj (Except.ok.inj
    ((PacketHeader.unpack_frame hb hops _ k.context k.payload).symm.trans hu))
  cases tid with
  | none =>
    have ht : (PacketFlags.unpack b0).headerType = .header1 := by
      cases h : (PacketFlags.unpack b0).headerType with
      | header1 => rfl
      | header2 => simpa using hb.mp h
    simp [getHashablePart, frame, transportBytes, hashSkip, ht, hn, Content.hashable]
  | some tid =>
    have ht : (PacketFlags.unpack b0).headerType = .header2 := hb.mpr rfl
    have hskip : hashSkip .header2 <
        (frame b0 hops (some tid) k.destinationHash k.context k.payload).length := by
      simp only [hashSkip, frame, transportBytes, map_some, getD_some,
        List.length_cons, List.length_append, Octets.length_val]
      omega
    simp only [getHashablePart, ht, hskip, if_true]
    simp [frame, transportBytes, hashSkip, hn, Content.hashable]

/-- So is its hash. -/
theorem packetHash_eq (hk : Carries k raw) (hu : PacketHeader.unpack raw = .ok (h, offset)) :
    packetHash raw h.flags.headerType = some (fullHash k.hashable) := by
  rw [Wire.packetHash_eq, hk.getHashablePart_eq hu, map_some]

/-- The link id of a packet depends on its content up to the key block. -/
theorem linkIdFromRaw_eq (hk : Carries k raw) (hu : PacketHeader.unpack raw = .ok (h, offset)) :
    linkIdFromRaw raw h.flags.headerType = some (truncatedHash k.linkHashable) := by
  have hlen : k.hashable.length = k.payload.length + 18 := by
    simp [Content.hashable]
    omega
  have htake : k.hashable.take (18 + 64) = k.linkHashable := by
    have hdest : (k.destinationHash.1 ++ k.context :: k.payload).take 81 =
        k.destinationHash.1 ++ k.context :: k.payload.take 64 := by
      rw [List.take_append, List.take_of_length_le (by simp), Octets.length_val]
      rfl
    rw [Content.hashable, List.take_succ_cons, hdest, Content.linkHashable]
  simp only [linkIdFromRaw, hk.getHashablePart_eq hu, pure_def, bind_eq_bind, bind_some]
  split_ifs with hlong
  · have hcut : k.hashable.length - (k.hashable.length - (1 + 16 + 1) - 64) = 18 + 64 := by
      omega
    rw [hcut, htake]
  · rw [← htake, List.take_of_length_le (by omega)]

end Carries

end Reticulum.Wire
