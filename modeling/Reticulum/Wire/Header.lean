import Reticulum.Foundation.Octets

/-!
# Packet headers

A packet starts with a flags byte, a hop count, for `Header2` the hash of the next transport node,
the destination hash and a context byte. The coding of these fields follows `flags.rs`,
`context.rs` and `header.rs` of the `rns-wire` crate.

## Main definitions

* `PacketFlags`, `PacketContext`, `PacketHeader` with `pack` and `unpack`.
* `frame` — the bytes of a packet with a given header and payload.

## Main results

* `PacketHeader.unpack_frame` — a frame whose flags byte agrees with its layout parses.
* `PacketHeader.exists_frame` — every packet that parses is such a frame.
* `PacketHeader.codec_exact` — which headers and which packets survive coding both ways.
-/

namespace Reticulum.Wire

open Octets Option

/-- `MTU`: the base packet size. -/
def mtu : ℕ := 500

/-- `HEADER_MINSIZE`: flags, hops, destination hash, context. -/
def headerMinsize : ℕ := 19

/-- `HEADER_MAXSIZE`: the same with a transport id. -/
def headerMaxsize : ℕ := 35

/-! ### The flags byte -/

/-- The packet type, bits 1–0. -/
inductive PacketType
  | data
  | announce
  | linkRequest
  | proof
  deriving DecidableEq, Repr

/-- The destination type, bits 3–2. -/
inductive DestinationType
  | single
  | group
  | plain
  | link
  deriving DecidableEq, Repr

/-- The header layout, bit 6. -/
inductive HeaderType
  | header1
  | header2
  deriving DecidableEq, Repr

/-- The propagation mode, bit 4. -/
inductive TransportType
  | broadcast
  | transport
  deriving DecidableEq, Repr

/-- The value of a packet type in the flags byte. -/
def PacketType.toByte : PacketType → UInt8
  | data => 0x00
  | announce => 0x01
  | linkRequest => 0x02
  | proof => 0x03

/-- The value of a destination type in the flags byte, before shifting. -/
def DestinationType.toByte : DestinationType → UInt8
  | single => 0x00
  | group => 0x01
  | plain => 0x02
  | link => 0x03

/-- The value of a header type in the flags byte, before shifting. -/
def HeaderType.toByte : HeaderType → UInt8
  | header1 => 0x00
  | header2 => 0x01

/-- The value of a transport type in the flags byte, before shifting. -/
def TransportType.toByte : TransportType → UInt8
  | broadcast => 0x00
  | transport => 0x01

/-- The decoded flags byte. Bit 7 belongs to the interface access code. -/
structure PacketFlags where
  headerType : HeaderType
  contextFlag : Bool
  transportType : TransportType
  destinationType : DestinationType
  packetType : PacketType
  deriving DecidableEq, Repr

namespace PacketFlags

/-- `PacketFlags::pack`. -/
def pack (f : PacketFlags) : UInt8 :=
  (f.headerType.toByte <<< 6) ||| (f.contextFlag.toUInt8 <<< 5) |||
    (f.transportType.toByte <<< 4) ||| (f.destinationType.toByte <<< 2) ||| f.packetType.toByte

/-- `PacketFlags::unpack`; every byte has flags, and bit 7 is ignored. -/
def unpack (byte : UInt8) : PacketFlags where
  headerType := match (byte &&& 0b01000000) >>> 6 with
    | 0 => .header1
    | _ => .header2
  contextFlag := (byte &&& 0b00100000) >>> 5 != 0
  transportType := match (byte &&& 0b00010000) >>> 4 with
    | 0 => .broadcast
    | _ => .transport
  destinationType := match (byte &&& 0b00001100) >>> 2 with
    | 0 => .single
    | 1 => .group
    | 2 => .plain
    | _ => .link
  packetType := match byte &&& 0b00000011 with
    | 0 => .data
    | 1 => .announce
    | 2 => .linkRequest
    | _ => .proof

theorem unpack_pack (f : PacketFlags) : unpack f.pack = f := by
  obtain ⟨ht, cf, tt, dt, pt⟩ := f
  cases ht <;> cases cf <;> cases tt <;> cases dt <;> cases pt <;> rfl

/-- The low nibble of the flags byte holds destination type and packet type. -/
theorem and_low_nibble :
    ∀ b : UInt8, ((unpack b).destinationType.toByte <<< 2) ||| (unpack b).packetType.toByte =
      b &&& 0x0F :=
  UInt8.forall_of_forall_lt (by decide +kernel)

/-- Bits 6, 3, 2, 1 and 0 decide the header type, the destination type and the packet type. -/
theorem unpack_eq_of_and_eq {a b : UInt8} (h : a &&& 0x4F = b &&& 0x4F) :
    (unpack a).headerType = (unpack b).headerType ∧ a &&& 0x0F = b &&& 0x0F := by
  have hht : ∀ c : UInt8, (c &&& 0b01000000) >>> 6 = ((c &&& 0x4F) &&& 0b01000000) >>> 6 :=
    UInt8.forall_of_forall_lt (by decide +kernel)
  have hlow : ∀ c : UInt8, c &&& 0x0F = (c &&& 0x4F) &&& 0x0F :=
    UInt8.forall_of_forall_lt (by decide +kernel)
  constructor
  · simp only [unpack, hht a, hht b, h]
  · rw [hlow a, hlow b, h]

/-- The low nibble decides the packet type. -/
theorem packetType_eq_of_and_eq {a b : UInt8} (h : a &&& 0x0F = b &&& 0x0F) :
    (unpack a).packetType = (unpack b).packetType := by
  have hlow : ∀ c : UInt8, c &&& 0b00000011 = (c &&& 0x0F) &&& 0b00000011 :=
    UInt8.forall_of_forall_lt (by decide +kernel)
  simp only [unpack, hlow a, hlow b, h]

/-- The flags byte up to bit 7 is the packed form of its flags. -/
theorem pack_unpack : ∀ b : UInt8, (unpack b).pack = b &&& 0x7F :=
  UInt8.forall_of_forall_lt (by decide +kernel)

end PacketFlags

/-! ### The context byte -/

/-- The context byte; unrecognised values are kept. -/
inductive PacketContext
  | none
  | resource
  | resourceAdv
  | resourceReq
  | resourceHmu
  | resourcePrf
  | resourceIcl
  | resourceRcl
  | cacheRequest
  | request
  | response
  | pathResponse
  | command
  | commandStatus
  | channel
  | keepalive
  | linkIdentify
  | linkClose
  | linkProof
  | lrrtt
  | lrproof
  | unknown (byte : UInt8)
  deriving DecidableEq, Repr

namespace PacketContext

/-- `PacketContext::from_byte`. -/
def fromByte (byte : UInt8) : PacketContext :=
  match byte with
  | 0x00 => none
  | 0x01 => resource
  | 0x02 => resourceAdv
  | 0x03 => resourceReq
  | 0x04 => resourceHmu
  | 0x05 => resourcePrf
  | 0x06 => resourceIcl
  | 0x07 => resourceRcl
  | 0x08 => cacheRequest
  | 0x09 => request
  | 0x0A => response
  | 0x0B => pathResponse
  | 0x0C => command
  | 0x0D => commandStatus
  | 0x0E => channel
  | 0xFA => keepalive
  | 0xFB => linkIdentify
  | 0xFC => linkClose
  | 0xFD => linkProof
  | 0xFE => lrrtt
  | 0xFF => lrproof
  | other => unknown other

/-- `PacketContext::to_byte`. -/
def toByte : PacketContext → UInt8
  | none => 0x00
  | resource => 0x01
  | resourceAdv => 0x02
  | resourceReq => 0x03
  | resourceHmu => 0x04
  | resourcePrf => 0x05
  | resourceIcl => 0x06
  | resourceRcl => 0x07
  | cacheRequest => 0x08
  | request => 0x09
  | response => 0x0A
  | pathResponse => 0x0B
  | command => 0x0C
  | commandStatus => 0x0D
  | channel => 0x0E
  | keepalive => 0xFA
  | linkIdentify => 0xFB
  | linkClose => 0xFC
  | linkProof => 0xFD
  | lrrtt => 0xFE
  | lrproof => 0xFF
  | unknown byte => byte

/-- No context byte is lost in parsing. -/
@[simp] theorem toByte_fromByte : ∀ b : UInt8, (fromByte b).toByte = b :=
  UInt8.forall_of_forall_lt (by decide +kernel)

end PacketContext

open PacketContext

/-! ### Headers -/

/-- The bytes of a transport id, none without one. -/
def transportBytes (transportId : Option (Octets 16)) : Bytes :=
  (transportId.map Subtype.val).getD []

/-- The bytes of a packet with flags byte `b0`, context byte `c` and payload `payload`. -/
def frame (b0 hops : UInt8) (transportId : Option (Octets 16)) (destinationHash : Octets 16)
    (c : UInt8) (payload : Bytes) : Bytes :=
  b0 :: hops :: (transportBytes transportId ++ (destinationHash.1 ++ c :: payload))

/-- A packet header. -/
structure PacketHeader where
  flags : PacketFlags
  hops : UInt8
  transportId : Option (Octets 16)
  destinationHash : Octets 16
  context : PacketContext
  deriving DecidableEq, Repr

/-- Why a header does not parse. -/
inductive HeaderError
  | tooShort (length : ℕ)
  deriving DecidableEq, Repr

namespace PacketHeader

/-- `PacketHeader::pack`. -/
def pack (h : PacketHeader) : Bytes :=
  h.flags.pack :: h.hops :: (transportBytes h.transportId ++
    (h.destinationHash.1 ++ [h.context.toByte]))

/-- `PacketHeader::unpack`: the header and the offset of the payload. -/
def unpack (raw : Bytes) : Except HeaderError (PacketHeader × ℕ) :=
  if raw.length < headerMinsize then .error (.tooShort raw.length)
  else
    let flags := PacketFlags.unpack (raw.getD 0 0)
    let hops := raw.getD 1 0
    match flags.headerType with
    | .header1 =>
      .ok ({ flags, hops, transportId := none,
             destinationHash := read 16 (raw.drop 2)
             context := .fromByte (raw.getD 18 0) }, 19)
    | .header2 =>
      if raw.length < headerMaxsize then .error (.tooShort raw.length)
      else
        .ok ({ flags, hops
               transportId := some (read 16 (raw.drop 2))
               destinationHash := read 16 (raw.drop 18)
               context := .fromByte (raw.getD 34 0) }, 35)

/-- `PacketHeader::size`. -/
def size (h : PacketHeader) : ℕ :=
  if h.transportId.isSome then headerMaxsize else headerMinsize

theorem pack_append (h : PacketHeader) (payload : Bytes) :
    h.pack ++ payload =
      frame h.flags.pack h.hops h.transportId h.destinationHash h.context.toByte payload := by
  simp [pack, frame]

variable {b0 hops : UInt8} (transportId : Option (Octets 16)) (destinationHash : Octets 16)

/-- A frame is its header followed by its payload. -/
theorem frame_append (c : UInt8) (payload : Bytes) :
    frame b0 hops transportId destinationHash c payload =
      frame b0 hops transportId destinationHash c [] ++ payload := by
  simp [frame]

/-- The length of the header of a frame. -/
theorem length_frame_nil (c : UInt8) :
    (frame b0 hops transportId destinationHash c []).length =
      if transportId.isSome then 35 else 19 := by
  cases transportId <;> simp [frame, transportBytes]

/-- Behind the header of a frame stands its payload. -/
theorem drop_frame (c : UInt8) (payload : Bytes) :
    (frame b0 hops transportId destinationHash c payload).drop
      (if transportId.isSome then 35 else 19) = payload := by
  rw [frame_append, ← length_frame_nil transportId destinationHash c, List.drop_left]

/-- A frame whose flags byte announces a transport id exactly when it has one parses. -/
theorem unpack_frame {b0 : UInt8} {transportId : Option (Octets 16)}
    (hb : (PacketFlags.unpack b0).headerType = .header2 ↔ transportId.isSome) (hops : UInt8)
    (destinationHash : Octets 16) (c : UInt8) (payload : Bytes) :
    unpack (frame b0 hops transportId destinationHash c payload) =
      .ok ({ flags := .unpack b0, hops, transportId, destinationHash, context := .fromByte c },
        if transportId.isSome then 35 else 19) := by
  have hctx : (destinationHash.1 ++ c :: payload)[16]? = some c :=
    getElem?_append_add destinationHash (c :: payload) 0
  cases transportId with
  | none =>
    have ht : (PacketFlags.unpack b0).headerType = .header1 := by
      cases h : (PacketFlags.unpack b0).headerType with
      | header1 => rfl
      | header2 => simpa using hb.mp h
    have hlen : ¬ 16 + (payload.length + 1) + 1 + 1 < 19 := by omega
    simp only [unpack, frame, transportBytes, headerMinsize, map_none, getD_none,
      List.nil_append, List.length_cons, List.length_append, length_val, hlen, ht,
      if_false, List.getD_eq_getElem?_getD, List.getElem?_cons_zero, List.getElem?_cons_succ, hctx,
      getD_some, List.drop_succ_cons, List.drop_zero, read_append,
      isSome_none, Bool.false_eq_true]
  | some tid =>
    have ht : (PacketFlags.unpack b0).headerType = .header2 := hb.mpr rfl
    have hlen : ¬ 16 + (16 + (payload.length + 1)) + 1 + 1 < 35 := by omega
    have hlen' : ¬ 16 + (16 + (payload.length + 1)) + 1 + 1 < 19 := by omega
    have hctx' : (tid.1 ++ (destinationHash.1 ++ c :: payload))[32]? = some c :=
      (getElem?_append_add tid _ 16).trans hctx
    simp only [unpack, frame, transportBytes, headerMinsize, headerMaxsize, map_some,
      getD_some, List.length_cons, List.length_append, length_val, hlen, hlen', ht,
      if_false, List.getD_eq_getElem?_getD, List.getElem?_cons_zero, List.getElem?_cons_succ,
      hctx', List.drop_succ_cons, List.drop_zero, read_append, drop_append,
      isSome_some, if_true]

variable {h : PacketHeader} {offset : ℕ} {raw : Bytes}

/-- Every packet that parses is a frame with the parsed fields. -/
theorem exists_frame (hu : unpack raw = .ok (h, offset)) :
    ∃ b0 c payload, raw = frame b0 h.hops h.transportId h.destinationHash c payload ∧
      PacketFlags.unpack b0 = h.flags ∧ fromByte c = h.context ∧
      (h.flags.headerType = .header2 ↔ h.transportId.isSome) ∧
      offset = h.size ∧ raw.drop offset = payload := by
  have hlen : 19 ≤ raw.length := by
    by_contra hlt
    have hlt' : raw.length < headerMinsize := Nat.lt_of_not_le hlt
    rw [unpack, if_pos hlt'] at hu
    cases hu
  match raw with
  | [] => simp at hlen
  | [_] => simp at hlen
  | b0 :: hops :: body =>
    simp only [List.length_cons] at hlen
    cases ht : (PacketFlags.unpack b0).headerType with
    | header1 =>
      obtain ⟨dest, c, payload, rfl⟩ := exists_append_cons (n := 16) (b := body) (by omega)
      have hb : (PacketFlags.unpack b0).headerType = .header2 ↔
          (none : Option (Octets 16)).isSome := by simp [ht]
      have hp := unpack_frame hb hops dest c payload
      obtain ⟨rfl, rfl⟩ := Prod.mk.inj (Except.ok.inj (hp.symm.trans hu))
      exact ⟨b0, c, payload, rfl, rfl, rfl, hb, rfl, drop_frame none dest c payload⟩
    | header2 =>
      have hmax : 35 ≤ body.length + 1 + 1 := by
        by_contra hlt
        have hlt' : (b0 :: hops :: body).length < headerMaxsize := Nat.lt_of_not_le hlt
        have hge : ¬ (b0 :: hops :: body).length < headerMinsize := Nat.not_lt.mpr hlen
        simp only [unpack, hge, hlt', List.getD_cons_zero, ht, if_false, if_true] at hu
        cases hu
      obtain ⟨tid, rest, rfl⟩ := exists_append (n := 16) (b := body) (by omega)
      simp only [List.length_append, length_val] at hmax
      obtain ⟨dest, c, payload, rfl⟩ := exists_append_cons (n := 16) (b := rest) (by omega)
      have hb : (PacketFlags.unpack b0).headerType = .header2 ↔ (some tid).isSome := by simp [ht]
      have hp := unpack_frame hb hops dest c payload
      obtain ⟨rfl, rfl⟩ := Prod.mk.inj (Except.ok.inj (hp.symm.trans hu))
      exact ⟨b0, c, payload, rfl, rfl, rfl, hb, rfl, drop_frame (some tid) dest c payload⟩

/-- Setting the hop count of a packet sets that of its header. -/
theorem unpack_set_hops (hu : unpack raw = .ok (h, offset))
    (hops : UInt8) : unpack (raw.set 1 hops) = .ok ({ h with hops }, offset) := by
  obtain ⟨b0, c, payload, rfl, hflags, hcontext, ht, rfl, -⟩ := exists_frame hu
  have hparse := unpack_frame (hflags ▸ ht) hops h.destinationHash c payload
  rw [hflags, hcontext] at hparse
  exact hparse

/-- A header that parsing can yield: its type announces a transport id exactly when it has one,
and a context byte with a name of its own is not carried as an unknown one. -/
structure Canonical (h : PacketHeader) : Prop where
  transportId : h.flags.headerType = .header2 ↔ h.transportId.isSome
  context : fromByte h.context.toByte = h.context

/-- The header length that the flags byte of a packet announces. -/
def announcedSize (raw : Bytes) : ℕ :=
  match (PacketFlags.unpack (raw.getD 0 0)).headerType with
  | .header1 => headerMinsize
  | .header2 => headerMaxsize

theorem length_pack (h : PacketHeader) : h.pack.length = h.size := by
  cases ht : h.transportId <;> simp [pack, size, transportBytes, ht, headerMinsize, headerMaxsize]

/-- What parses is canonical. -/
theorem canonical_of_unpack (hu : unpack raw = .ok (h, offset)) : h.Canonical := by
  obtain ⟨b0, c, payload, -, -, hc, ht, -, -⟩ := exists_frame hu
  refine ⟨ht, ?_⟩
  rw [← hc, toByte_fromByte]

/-- A packed header is parsed back with its payload behind it exactly when it is canonical. -/
theorem unpack_pack_append_iff (h : PacketHeader) (payload : Bytes) :
    unpack (h.pack ++ payload) = .ok (h, h.pack.length) ↔ h.Canonical := by
  constructor
  · exact canonical_of_unpack
  · intro hc
    have hb : (PacketFlags.unpack h.flags.pack).headerType = .header2 ↔ h.transportId.isSome := by
      rw [PacketFlags.unpack_pack]
      exact hc.transportId
    rw [pack_append, unpack_frame hb, PacketFlags.unpack_pack, hc.context, length_pack]
    rfl

/-- Only the length decides whether a packet parses. -/
theorem isOk_unpack_iff (raw : Bytes) :
    (unpack raw).isOk ↔ announcedSize raw ≤ raw.length := by
  cases ht : (PacketFlags.unpack (raw.getD 0 0)).headerType with
  | header1 =>
    have hsize : announcedSize raw = headerMinsize := by simp only [announcedSize, ht]
    by_cases hmin : raw.length < headerMinsize
    · rw [hsize, unpack, if_pos hmin]
      exact iff_of_false nofun (Nat.not_le.mpr hmin)
    · simp only [hsize, unpack, if_neg hmin, ht]
      exact iff_of_true rfl (Nat.le_of_not_lt hmin)
  | header2 =>
    have hsize : announcedSize raw = headerMaxsize := by simp only [announcedSize, ht]
    by_cases hmax : raw.length < headerMaxsize
    · refine iff_of_false ?_ (by rw [hsize]; exact Nat.not_le.mpr hmax)
      by_cases hmin : raw.length < headerMinsize
      · rw [unpack, if_pos hmin]
        exact nofun
      · simp only [unpack, if_neg hmin, ht, if_pos hmax]
        exact nofun
    · have hmin : ¬ raw.length < headerMinsize := fun h => hmax (h.trans (by decide))
      simp only [hsize, unpack, if_neg hmin, ht, if_neg hmax]
      exact iff_of_true rfl (Nat.le_of_not_lt hmax)

/-- Bit 7 is the only bit of a header that packing does not give back. -/
theorem pack_eq_take_iff (hu : unpack raw = .ok (h, offset)) :
    h.pack = raw.take offset ↔ raw.getD 0 0 &&& 0x80 = 0 := by
  have hbit : ∀ b : UInt8, b &&& 0x7F = b ↔ b &&& 0x80 = 0 :=
    UInt8.forall_of_forall_lt (by decide +kernel)
  obtain ⟨b0, c, payload, rfl, hflags, hcontext, -, rfl, -⟩ := exists_frame hu
  have hpack : h.pack = frame h.flags.pack h.hops h.transportId h.destinationHash c [] := by
    rw [← List.append_nil h.pack, pack_append, ← hcontext, toByte_fromByte]
  have htake : (frame b0 h.hops h.transportId h.destinationHash c payload).take h.size =
      frame b0 h.hops h.transportId h.destinationHash c [] := by
    have hsize : h.size = (frame b0 h.hops h.transportId h.destinationHash c []).length :=
      (length_frame_nil _ _ _).symm
    rw [frame_append, hsize, List.take_left]
  rw [hpack, htake, ← hflags, PacketFlags.pack_unpack]
  constructor
  · intro heq
    exact (hbit b0).mp (List.cons.inj heq).1
  · intro hclear
    rw [(hbit b0).mpr hclear]

/-- Coding is exact in both directions. A header is parsed back from its bytes, at the offset of
the payload behind them, exactly when it is canonical. A packet parses exactly when it is as long
as its flags byte announces, and packing the parsed header gives the consumed bytes back exactly
when bit 7 is clear. -/
theorem codec_exact :
    (∀ (h : PacketHeader) (payload : Bytes),
      unpack (h.pack ++ payload) = .ok (h, h.pack.length) ↔ h.Canonical) ∧
    ∀ raw : Bytes, ((unpack raw).isOk ↔ announcedSize raw ≤ raw.length) ∧
      ∀ (h : PacketHeader) (offset : ℕ), unpack raw = .ok (h, offset) →
        (h.pack = raw.take offset ↔ raw.getD 0 0 &&& 0x80 = 0) :=
  ⟨unpack_pack_append_iff, fun raw => ⟨isOk_unpack_iff raw, fun _ _ => pack_eq_take_iff⟩⟩

/-- The header of a data packet on its way through a transport node. -/
def relayedHeader : PacketHeader where
  flags := .unpack 0x50
  hops := 3
  transportId := some (replicate 16 0xbb)
  destinationHash := replicate 16 0xaa
  context := .none

/-- The packet with this header and three bytes is parsed, and its header is packed again. -/
theorem codec_exact_relayed :
    unpack (relayedHeader.pack ++ [1, 2, 3]) = .ok (relayedHeader, 35) ∧
      relayedHeader.pack = (relayedHeader.pack ++ [1, 2, 3]).take 35 := by
  have hunpack : unpack (relayedHeader.pack ++ [1, 2, 3]) = .ok (relayedHeader, 35) :=
    (codec_exact.1 relayedHeader [1, 2, 3]).mpr ⟨by decide, by decide⟩
  exact ⟨hunpack, ((codec_exact.2 _).2 _ _ hunpack).mpr (by decide)⟩

/-- The header of a data packet whose context byte `0x01` is carried as an unknown one. -/
def unknownResource : PacketHeader where
  flags := .unpack 0
  hops := 0
  transportId := none
  destinationHash := replicate 16 0
  context := .unknown 0x01

/-- The type of this header fits its fields, and yet it is parsed back with the context
`resource`. -/
theorem unknownResource_not_parsed_back :
    (unknownResource.flags.headerType = .header2 ↔ unknownResource.transportId.isSome) ∧
      unpack (unknownResource.pack ++ []) =
        .ok ({ unknownResource with context := .resource }, unknownResource.pack.length) ∧
      unpack (unknownResource.pack ++ []) ≠ .ok (unknownResource, unknownResource.pack.length) := by
  decide +kernel

end PacketHeader

end Reticulum.Wire
