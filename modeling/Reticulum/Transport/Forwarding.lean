import Reticulum.Foundation.Run
import Reticulum.Link.Handshake
import Reticulum.Transport.LinkTransit
import Reticulum.Wire.Hash

/-!
# Forwarding

A transport node rewrites the packets it forwards: it adds, replaces or strips the transport id,
sets the hop count, and for link requests attenuates the signalling trailer. The rewriting follows
`actor/inbound.rs` and `actor/mod.rs` of the `rns-transport` crate. Every such rewriting keeps the
identity of a packet, its hash, and the identity of the link it requests.

## Main results

* `carries_rewrite` — a rewrite keeps the content of a packet.
* `packet_identity` — over any sequence of rewrites packet hash and link id stay the same.
-/

namespace Reticulum.Transport

open Wire PacketHeader PacketFlags Octets Option

/-! ### The functions of the source -/

/-- The fields of `PathEntry` that forwarding reads. -/
structure PathEntry where
  nextHop : Option (Octets 16)
  hops : UInt8
  interfaceId : ℕ
  deriving DecidableEq, Repr

/-- `MAX_TRANSIT_LINK_TABLE_ENTRIES`. -/
def maxTransitLinkTableEntries : ℕ := 4096

/-- The fields of `TransportActor` that forwarding reads. -/
structure TransportActor where
  /-- The live path to a destination. -/
  path : Octets 16 → Option PathEntry
  interfaces : ℕ → Option InterfaceEntry
  /-- The ids of the links that cross this node. -/
  linkTable : List (Octets 16)
  transportIdentityHash : Option (Octets 16)
  isTransportEnabled : Bool
  localHopsDelta : UInt8

/-- The header of a packet in the given layout. -/
def reframe (header : PacketHeader) (headerType : HeaderType) (transportType : TransportType)
    (hops : UInt8) (transportId : Option (Octets 16)) : PacketHeader :=
  { header with
    flags := { header.flags with headerType, transportType }
    hops
    transportId }

namespace TransportActor

variable (actor : TransportActor)

/-- `rewrite_forwarded_transport_packet`. -/
def rewriteForwardedTransportPacket (raw : Bytes) (header : PacketHeader) (path : PathEntry)
    (toLocalClient : Bool) : Option Bytes :=
  let payloadOffset := header.size
  if raw.length < payloadOffset then none
  else if 1 < path.hops then do
    let nextHop ← path.nextHop
    let newHeader := reframe header .header2 .transport header.hops (some nextHop)
    return newHeader.pack ++ raw.drop payloadOffset
  else if path.hops = 1 ∨ toLocalClient ∧ actor.localHopsDelta ≠ 0 ∧
      header.flags.headerType = .header2 then
    let newHeader := reframe header .header1 .broadcast header.hops none
    some (newHeader.pack ++ raw.drop payloadOffset)
  else some (raw.set 1 header.hops)

/-- `transport_forward_candidate`: the interface and the bytes a packet is forwarded with. -/
def transportForwardCandidate (raw : Bytes) (header : PacketHeader)
    (fromLocalClient forLocalClient toLocalClient : Bool) : Option (ℕ × Bytes) := do
  let path ← actor.path header.destinationHash
  let mayForwardForSharedClient := fromLocalClient || forLocalClient
  let addressedToUs :=
    header.transportId.isSome && header.transportId == actor.transportIdentityHash
  if mayForwardForSharedClient && header.transportId.isSome && !addressedToUs then none
  else if !mayForwardForSharedClient && (!actor.isTransportEnabled || !addressedToUs) then none
  else
    let forwarded ← actor.rewriteForwardedTransportPacket raw header path toLocalClient
    if actor.localHopsDelta ≠ 0 ∧ fromLocalClient ∧ !toLocalClient then
      return (path.interfaceId, forwarded.set 1 actor.localHopsDelta)
    else return (path.interfaceId, forwarded)

/-- `mangle_hops`. -/
def mangleHops (raw : Bytes) (header : PacketHeader) (transportInsert : Bool) : Bytes :=
  match transportInsert, actor.transportIdentityHash with
  | true, some transportId =>
    let newHeader := reframe header .header2 .transport actor.localHopsDelta (some transportId)
    newHeader.pack ++ raw.drop header.size
  | _, _ => raw.set 1 actor.localHopsDelta

/-- The forwarding branch of `process_link_request`: the interface and the bytes sent. -/
def forwardLinkRequest [Sha256] (raw : Bytes) (header : PacketHeader) (interfaceId : ℕ)
    (fromLocalClient forLocalClient toLocalClient : Bool) : Option (ℕ × Bytes) := do
  let (targetInterface, forwarded) ←
    actor.transportForwardCandidate raw header fromLocalClient forLocalClient toLocalClient
  let linkId ← linkIdFromRaw raw header.flags.headerType
  if linkId ∈ actor.linkTable then none
  else if maxTransitLinkTableEntries ≤ actor.linkTable.length then none
  else
    let ingress ← actor.interfaces interfaceId
    let egress ← actor.interfaces targetInterface
    let (payload, _, _) ← (attenuateRequest (raw.drop header.size) interfaceId ingress
      targetInterface egress).toOption
    let (forwardedHeader, _) ← (unpack forwarded).toOption
    return (targetInterface, forwarded.take forwardedHeader.size ++ payload)

end TransportActor

/-! ### Rewrites -/

/-- The bits of the flags byte that a forwarder may choose: access code, context flag and
propagation mode. -/
def routingBits : UInt8 := 0xB0

/-- A flags byte with chosen routing bits. -/
def chooseRouting (b bits : UInt8) : UInt8 := b ||| bits &&& routingBits

/-- A rewrite of a packet on its way. The first five are the byte-level changes, the others run
the code of a node on the parsed packet, with the hop count it adjusted. -/
inductive Rewrite
  | setHops (hops : UInt8)
  | setUpperFlags (bits : UInt8)
  | wrap (bits : UInt8) (nextHop : Octets 16)
  | replaceTransportId (transportId : Octets 16)
  | unwrap (bits : UInt8)
  | forward (actor : TransportActor) (hops : UInt8)
      (fromLocalClient forLocalClient toLocalClient : Bool)
  | mangle (actor : TransportActor) (transportInsert : Bool)

/-- The bytes after a rewrite, `none` where it does not apply. -/
def rewrite : Bytes → Rewrite → Option Bytes
  | b0 :: _ :: rest, .setHops hops => some (b0 :: hops :: rest)
  | b0 :: rest, .setUpperFlags bits => some (chooseRouting (b0 &&& 0x4F) bits :: rest)
  | b0 :: hops :: rest, .wrap bits nextHop =>
    match (unpack b0).headerType with
    | .header1 => some (chooseRouting (b0 &&& 0x0F ||| 0x40) bits :: hops :: (nextHop.1 ++ rest))
    | .header2 => none
  | b0 :: hops :: rest, .replaceTransportId transportId =>
    match (unpack b0).headerType with
    | .header1 => none
    | .header2 => some (b0 :: hops :: (transportId.1 ++ rest.drop 16))
  | b0 :: hops :: rest, .unwrap bits =>
    match (unpack b0).headerType with
    | .header1 => none
    | .header2 => some (chooseRouting (b0 &&& 0x0F) bits :: hops :: rest.drop 16)
  | raw, .forward actor hops fromLocalClient forLocalClient toLocalClient => do
    let (header, _) ← (unpack raw).toOption
    let (_, forwarded) ← actor.transportForwardCandidate raw { header with hops }
      fromLocalClient forLocalClient toLocalClient
    return forwarded
  | raw, .mangle actor transportInsert => do
    let (header, _) ← (unpack raw).toOption
    return actor.mangleHops raw header transportInsert
  | _, _ => none

/-- A rewrite of a link request: a packet rewrite, a new or no trailer behind the key block, or
the forwarding code for link requests. -/
inductive LinkRewrite
  | packet (r : Rewrite)
  | setTrailer (trailer : Bytes)
  | forward (actor : TransportActor) (hops : UInt8) (interfaceId : ℕ)
      (fromLocalClient forLocalClient toLocalClient : Bool)

/-- The bytes of a link request after a rewrite. -/
def rewriteLinkRequest [Sha256] (raw : Bytes) : LinkRewrite → Option Bytes
  | .packet r => rewrite raw r
  | .setTrailer trailer => do
    let (_, offset) ← (unpack raw).toOption
    if raw.length < offset + 64 then none else return raw.take (offset + 64) ++ trailer
  | .forward actor hops interfaceId fromLocalClient forLocalClient toLocalClient => do
    let (header, _) ← (unpack raw).toOption
    let (_, forwarded) ← actor.forwardLinkRequest raw { header with hops } interfaceId
      fromLocalClient forLocalClient toLocalClient
    return forwarded

/-! ### A rewrite keeps the content -/

section Content

variable {k : Content} {raw raw' : Bytes} {header : PacketHeader} {offset : ℕ}

private theorem chooseRouting_and (b bits : UInt8) : chooseRouting b bits &&& 0x4F = b &&& 0x4F := by
  have hbits : bits &&& routingBits &&& 0x4F = 0 := by
    rw [UInt8.and_assoc, show routingBits &&& 0x4F = 0 from rfl, UInt8.and_zero]
  apply UInt8.eq_of_toBitVec_eq
  have hbits' := congrArg UInt8.toBitVec hbits
  simp only [UInt8.toBitVec_and] at hbits'
  simp only [chooseRouting, UInt8.toBitVec_and, UInt8.toBitVec_or, BitVec.and_or_distrib_right,
    hbits', UInt8.toBitVec_zero, BitVec.or_zero]

/-- The layout bits decide header type and low nibble, whatever the routing bits. -/
private theorem unpack_chooseRouting (b bits : UInt8) :
    (unpack (chooseRouting b bits)).headerType = (unpack b).headerType ∧
      chooseRouting b bits &&& 0x0F = b &&& 0x0F :=
  unpack_eq_of_and_eq (chooseRouting_and b bits)

private theorem headerType_keep :
    ∀ b : UInt8, (PacketFlags.unpack (b &&& 0x4F)).headerType = (PacketFlags.unpack b).headerType ∧
      b &&& 0x4F &&& 0x0F = b &&& 0x0F :=
  UInt8.forall_of_forall_lt (by decide +kernel)

private theorem headerType_wrap :
    ∀ b : UInt8, (PacketFlags.unpack (b &&& 0x0F ||| 0x40)).headerType = .header2 ∧
      (b &&& 0x0F ||| 0x40) &&& 0x0F = b &&& 0x0F :=
  UInt8.forall_of_forall_lt (by decide +kernel)

private theorem headerType_unwrap :
    ∀ b : UInt8, (PacketFlags.unpack (b &&& 0x0F)).headerType = .header1 ∧
      b &&& 0x0F &&& 0x0F = b &&& 0x0F :=
  UInt8.forall_of_forall_lt (by decide +kernel)

/-- Setting the hop count keeps the content. -/
theorem carries_set_hops (hk : Carries k raw) (hops : UInt8) :
    Carries k (raw.set 1 hops) := by
  obtain ⟨b0, hops', tid, rfl, hb, hn⟩ := hk.exists_frame
  exact ⟨b0, hops, tid, rfl, hb, hn⟩

/-- Packing the header of a packet in another layout keeps the content. -/
private theorem carries_reframe (hk : Carries k raw)
    (hu : unpack raw = .ok (header, offset)) {headerType : HeaderType}
    {transportId : Option (Octets 16)} (hlayout : headerType = .header2 ↔ transportId.isSome)
    (transportType : TransportType) (hops : UInt8) :
    Carries k ((reframe header headerType transportType hops transportId).pack ++
      raw.drop header.size) := by
  obtain ⟨b0, hops', tid, rfl, hb, hn⟩ := hk.exists_frame
  obtain ⟨rfl, rfl⟩ := Prod.mk.inj (Except.ok.inj
    ((unpack_frame hb hops' _ k.context k.payload).symm.trans hu))
  refine ⟨({ unpack b0 with headerType, transportType } : PacketFlags).pack, hops,
    transportId, ?_, ?_, ?_⟩
  · rw [pack_append]
    simp only [reframe, PacketContext.toByte_fromByte]
    congr 1
    exact drop_frame tid k.destinationHash k.context k.payload
  · rw [unpack_pack]
    exact hlayout
  · rw [← and_low_nibble, unpack_pack, ← hn, ← and_low_nibble b0]

variable (actor : TransportActor)

/-- The code's rewriting of a forwarded packet keeps the content. -/
private theorem carries_rewriteForwarded (hk : Carries k raw)
    (hu : unpack raw = .ok (header, offset)) {hops : UInt8} {path : PathEntry}
    {toLocalClient : Bool}
    (h : actor.rewriteForwardedTransportPacket raw { header with hops } path toLocalClient =
      some raw') : Carries k raw' := by
  simp only [TransportActor.rewriteForwardedTransportPacket] at h
  split_ifs at h with hlen hmany hone
  · obtain ⟨nextHop, -, h⟩ := bind_eq_some_iff.mp h
    obtain rfl := some.inj h
    exact carries_reframe hk hu (by simp) .transport hops
  · obtain rfl := some.inj h
    exact carries_reframe hk hu (by simp) .broadcast hops
  · obtain rfl := some.inj h
    exact carries_set_hops hk hops

/-- So does the choice of a forwarded packet. -/
theorem carries_forwardCandidate (hk : Carries k raw)
    (hu : unpack raw = .ok (header, offset)) {hops : UInt8} {interfaceId : ℕ}
    {fromLocalClient forLocalClient toLocalClient : Bool}
    (h : actor.transportForwardCandidate raw { header with hops } fromLocalClient forLocalClient
      toLocalClient = some (interfaceId, raw')) : Carries k raw' := by
  obtain ⟨path, -, h⟩ := bind_eq_some_iff.mp h
  simp only at h
  split_ifs at h with hshared haddressed hdelta
  · obtain ⟨forwarded, hf, h⟩ := bind_eq_some_iff.mp h
    obtain ⟨-, rfl⟩ := Prod.mk.inj (some.inj h)
    exact carries_set_hops (carries_rewriteForwarded actor hk hu hf) _
  · obtain ⟨forwarded, hf, h⟩ := bind_eq_some_iff.mp h
    obtain ⟨-, rfl⟩ := Prod.mk.inj (some.inj h)
    exact carries_rewriteForwarded actor hk hu hf

/-- And the substitution of the local hop count. -/
private theorem carries_mangleHops (hk : Carries k raw) (hu : unpack raw = .ok (header, offset))
    (transportInsert : Bool) : Carries k (actor.mangleHops raw header transportInsert) := by
  unfold TransportActor.mangleHops
  split
  · exact carries_reframe hk hu (by simp) .transport _
  · exact carries_set_hops hk _

/-- Every rewrite keeps the content of a packet. -/
theorem carries_rewrite {r : Rewrite} (hk : Carries k raw) (h : rewrite raw r = some raw') :
    Carries k raw' := by
  cases r with
  | forward actor hops fromLocalClient forLocalClient toLocalClient =>
    obtain ⟨header, offset, hu, -⟩ := hk.unpack
    simp only [rewrite, hu, Except.toOption, bind_eq_bind, bind_some] at h
    obtain ⟨⟨interfaceId, forwarded⟩, hf, h⟩ := bind_eq_some_iff.mp h
    obtain rfl := some.inj h
    exact carries_forwardCandidate actor hk hu hf
  | mangle actor transportInsert =>
    obtain ⟨header, offset, hu, -⟩ := hk.unpack
    simp only [rewrite, hu, Except.toOption, bind_eq_bind, bind_some] at h
    obtain rfl := some.inj h
    exact carries_mangleHops actor hk hu transportInsert
  | setHops hops =>
    obtain ⟨b0, hops', tid, rfl, hb, hn⟩ := hk.exists_frame
    obtain rfl := some.inj h
    exact ⟨b0, hops, tid, rfl, hb, hn⟩
  | setUpperFlags bits =>
    obtain ⟨b0, hops, tid, rfl, hb, hn⟩ := hk.exists_frame
    obtain rfl := some.inj h
    obtain ⟨ht, hl⟩ := unpack_chooseRouting (b0 &&& 0x4F) bits
    refine ⟨_, hops, tid, rfl, ?_, ?_⟩
    · rw [ht, (headerType_keep b0).1, hb]
    · rw [hl, (headerType_keep b0).2, hn]
  | wrap bits nextHop =>
    obtain ⟨b0, hops, tid, rfl, hb, hn⟩ := hk.exists_frame
    obtain ⟨ht, hl⟩ := unpack_chooseRouting (b0 &&& 0x0F ||| 0x40) bits
    simp only [rewrite, frame] at h
    split at h
    next h1 =>
      obtain rfl := some.inj h
      obtain rfl : tid = none := by simpa [h1] using hb
      refine ⟨_, hops, some nextHop, rfl, ?_, ?_⟩
      · rw [ht, (headerType_wrap b0).1]
        simp
      · rw [hl, (headerType_wrap b0).2, hn]
    next => cases h
  | replaceTransportId transportId =>
    obtain ⟨b0, hops, tid, rfl, hb, hn⟩ := hk.exists_frame
    simp only [rewrite, frame] at h
    split at h
    next => cases h
    next h2 =>
      obtain rfl := some.inj h
      obtain ⟨tid, rfl⟩ := isSome_iff_exists.mp (hb.mp h2)
      refine ⟨b0, hops, some transportId, ?_, by simpa using h2, hn⟩
      simp [frame, transportBytes]
  | unwrap bits =>
    obtain ⟨b0, hops, tid, rfl, hb, hn⟩ := hk.exists_frame
    obtain ⟨ht, hl⟩ := unpack_chooseRouting (b0 &&& 0x0F) bits
    simp only [rewrite, frame] at h
    split at h
    next => cases h
    next h2 =>
      obtain rfl := some.inj h
      obtain ⟨tid, rfl⟩ := isSome_iff_exists.mp (hb.mp h2)
      refine ⟨chooseRouting (b0 &&& 0x0F) bits, hops, none, ?_, ?_, ?_⟩
      · simp only [transportBytes, map_some, getD_some, drop_append]
        rfl
      · rw [ht, (headerType_unwrap b0).1]
        simp
      · rw [hl, (headerType_unwrap b0).2, hn]

end Content

/-! ### A rewrite of a link request keeps its key block -/

/-- A packet with the content `k` up to what stands behind the key block of its payload. -/
def CarriesRequest (k : Content) (raw : Bytes) : Prop :=
  ∃ payload, payload.take 64 = k.payload.take 64 ∧ Carries { k with payload } raw

section Request

variable {k : Content} {raw raw' : Bytes} {header : PacketHeader} {offset : ℕ}

/-- Exchanging the payload of a packet. -/
theorem carries_take_append (hk : Carries k raw)
    (hu : unpack raw = .ok (header, offset)) (payload : Bytes) :
    Carries { k with payload } (raw.take header.size ++ payload) := by
  obtain ⟨b0, hops, tid, rfl, hb, hn⟩ := hk.exists_frame
  obtain ⟨rfl, rfl⟩ := Prod.mk.inj (Except.ok.inj
    ((unpack_frame hb hops _ k.context k.payload).symm.trans hu))
  refine ⟨b0, hops, tid, ?_, hb, hn⟩
  rw [frame_append tid k.destinationHash k.context payload,
    frame_append tid k.destinationHash k.context k.payload]
  congr 1
  exact List.take_left' (length_frame_nil tid k.destinationHash k.context)

variable [Sha256]

/-- Every rewrite of a link request keeps its content up to the trailer. -/
theorem carriesRequest_rewriteLinkRequest {r : LinkRewrite} (hk : CarriesRequest k raw)
    (h : rewriteLinkRequest raw r = some raw') : CarriesRequest k raw' := by
  obtain ⟨payload, hblock, hk⟩ := hk
  obtain ⟨header, offset, hu, -, hdrop⟩ := hk.unpack
  replace hdrop : raw.drop offset = payload := hdrop
  obtain ⟨-, -, -, -, -, -, -, hoffset, -⟩ := exists_frame hu
  cases r with
  | packet r => exact ⟨payload, hblock, carries_rewrite hk h⟩
  | setTrailer trailer =>
    simp only [rewriteLinkRequest, hu, Except.toOption, bind_eq_bind, bind_some] at h
    split_ifs at h with hlen
    obtain rfl := some.inj h
    have htake : raw.take (offset + 64) ++ trailer =
        raw.take header.size ++ (payload.take 64 ++ trailer) := by
      rw [List.take_add, hdrop, hoffset, List.append_assoc]
    have hpayload : (payload.take 64).length = 64 := by
      have hl := congrArg List.length hdrop
      simp only [List.length_drop] at hl
      simp only [List.length_take]
      omega
    refine ⟨payload.take 64 ++ trailer, ?_, htake ▸ carries_take_append hk hu _⟩
    rw [List.take_append_of_le_length hpayload.ge, List.take_take, Nat.min_self, hblock]
  | forward actor hops interfaceId fromLocalClient forLocalClient toLocalClient =>
    simp only [rewriteLinkRequest, hu, Except.toOption, bind_eq_bind, bind_some] at h
    obtain ⟨⟨target, sent⟩, hf, h⟩ := bind_eq_some_iff.mp h
    obtain rfl := some.inj h
    obtain ⟨⟨target', forwarded⟩, hc, hf⟩ := bind_eq_some_iff.mp hf
    have hk' := carries_forwardCandidate actor hk hu hc
    obtain ⟨header', offset', hu', -⟩ := hk'.unpack
    obtain ⟨linkId, -, hf⟩ := bind_eq_some_iff.mp hf
    split_ifs at hf with hmem hfull
    obtain ⟨ingress, -, hf⟩ := bind_eq_some_iff.mp hf
    obtain ⟨egress, -, hf⟩ := bind_eq_some_iff.mp hf
    obtain ⟨⟨attenuated, mode, ceiling⟩, ha, hf⟩ := bind_eq_some_iff.mp hf
    simp only [hu', bind_eq_bind] at hf
    obtain ⟨-, rfl⟩ := Prod.mk.inj (some.inj hf)
    refine ⟨attenuated, ?_, carries_take_append hk' hu' attenuated⟩
    obtain ⟨hkeep, -⟩ := attenuateRequest_ok (toOption_eq_some.mp ha)
    rw [hkeep, ← hblock, ← hdrop, hoffset]
    rfl

/-! ### Packet identity -/

/-- The link id of a link request is the one its initiator computed. -/
private theorem truncatedHash_linkHashable (hn : k.flagsNibble = 0x02) (hc : k.context = 0x00) :
    truncatedHash k.linkHashable = computeLinkId k.destinationHash k.payload := by
  rw [computeLinkId_eq, linkIdInput, Content.linkHashable, hn, hc]

/-- **Packet identity.** Over every finite sequence of forwarding rewrites of a well-formed packet,
its hash under its own current header type stays the same and is the SHA-256 hash of its hashable
part. Also over rewrites of the signalling trailer the link id stays the same, and for a link request
it is the one that the initiator computes from destination and request data. -/
theorem packet_identity (hu : unpack raw = .ok (header, offset)) :
    (∀ rewrites raw', run rewrite raw rewrites = some raw' →
      ∃ header' offset', unpack raw' = .ok (header', offset') ∧
        ∃ hash, packetHash raw header.flags.headerType = some hash ∧
          packetHash raw' header'.flags.headerType = some hash ∧
          (getHashablePart raw' header'.flags.headerType).map Sha256.digest = some hash) ∧
    ∀ rewrites raw', run rewriteLinkRequest raw rewrites = some raw' →
      ∃ header' offset', unpack raw' = .ok (header', offset') ∧
        ∃ linkId, linkIdFromRaw raw header.flags.headerType = some linkId ∧
          linkIdFromRaw raw' header'.flags.headerType = some linkId ∧
          (header.flags.packetType = .linkRequest → header.flags.destinationType = .single →
            header.context = .none →
            linkId = computeLinkId header.destinationHash (raw.drop offset)) := by
  obtain ⟨k, hk, hdest, hctx, hpayload, hnibble⟩ := Carries.of_unpack hu
  constructor
  · intro rewrites raw' hrun
    have hk' : Carries k raw' :=
      run_invariant (I := Carries k) (fun _ _ _ hI hs => carries_rewrite hI hs) hk hrun
    obtain ⟨header', offset', hu', -⟩ := hk'.unpack
    refine ⟨header', offset', hu', fullHash k.hashable, hk.packetHash_eq hu, hk'.packetHash_eq hu',
      ?_⟩
    rw [hk'.getHashablePart_eq hu', map_some]
    rfl
  · intro rewrites raw' hrun
    have hk' : CarriesRequest k raw' :=
      run_invariant (I := CarriesRequest k)
        (fun _ _ _ hI hs => carriesRequest_rewriteLinkRequest hI hs) ⟨k.payload, rfl, hk⟩ hrun
    obtain ⟨payload, hblock, hk'⟩ := hk'
    obtain ⟨header', offset', hu', -⟩ := hk'.unpack
    refine ⟨header', offset', hu', truncatedHash k.linkHashable, hk.linkIdFromRaw_eq hu, ?_, ?_⟩
    · rw [hk'.linkIdFromRaw_eq hu', Content.linkHashable, Content.linkHashable, hblock]
    · intro hp ht hc
      have hn : k.flagsNibble = 0x02 := by
        rw [hnibble, hp, ht]
        rfl
      have hc' : k.context = 0x00 := by
        rw [← PacketContext.toByte_fromByte k.context, hctx, hc]
        rfl
      rw [truncatedHash_linkHashable hn hc', hdest, hpayload]

end Request

/-- SHA-256 of the hashable part of `requestPacket` and of its bytes up to the key block. -/
@[reducible] private def requestSha256 : Sha256 where
  digest data :=
    if data.length = 85 then
      .ofNat 0xfca7a5721e91b46b103727ef65e23a06471ec64fcfb00def55f0c5c22042f818
    else
      .ofNat 0xcb054ec559acb4f5889ccaaf4708931aba7d3c547dec85213df7339ec0c5cea8

/-- A link request to the destination `aa…aa` with the keys `11…11` and `22…22`. -/
private def requestPacket (b0 hops : UInt8) (transportId : Option (Octets 16)) (trailer : Bytes) :
    Bytes :=
  frame b0 hops transportId (replicate 16 0xaa) 0x00
    (List.replicate 32 0x11 ++ List.replicate 32 0x22 ++ trailer)

theorem packet_identity_request :
    letI := requestSha256
    packetHash (requestPacket 0x52 3 (some (replicate 16 0xbb)) [0x20, 0x01, 0xf4])
        .header2 =
      packetHash (requestPacket 0x02 0 none [0x20, 0x01, 0xf4]) .header1 ∧
    linkIdFromRaw (requestPacket 0x52 0 (some (replicate 16 0xbb)) []) .header2 =
      some (computeLinkId (replicate 16 0xaa)
        (List.replicate 32 0x11 ++ List.replicate 32 0x22 ++ [0x20, 0x01, 0xf4])) := by
  let _ := requestSha256
  have hu : unpack (requestPacket 0x02 0 none [0x20, 0x01, 0xf4]) =
      .ok (⟨.unpack 0x02, 0, none, replicate 16 0xaa, .none⟩, 19) :=
    unpack_frame (by decide) _ _ _ _
  have hu1 : unpack
      (requestPacket 0x52 3 (some (replicate 16 0xbb)) [0x20, 0x01, 0xf4]) =
      .ok (⟨.unpack 0x52, 3, some (replicate 16 0xbb), replicate 16 0xaa, .none⟩,
        35) :=
    unpack_frame (by decide) _ _ _ _
  have hu2 : unpack (requestPacket 0x52 0 (some (replicate 16 0xbb)) []) =
      .ok (⟨.unpack 0x52, 0, some (replicate 16 0xbb), replicate 16 0xaa, .none⟩,
        35) :=
    unpack_frame (by decide) _ _ _ _
  obtain ⟨hhash, hlink⟩ := packet_identity hu
  constructor
  · obtain ⟨header', offset', hu', hash, h0, h1, -⟩ := hhash
      [.wrap 0x10 (replicate 16 0xcc), .setHops 3,
        .replaceTransportId (replicate 16 0xbb)] _ rfl
    obtain ⟨rfl, rfl⟩ := Prod.mk.inj (Except.ok.inj (hu1.symm.trans hu'))
    exact h1.trans h0.symm
  · obtain ⟨header', offset', hu', linkId, -, h1, h2⟩ := hlink
      [.packet (.wrap 0x10 (replicate 16 0xbb)), .setTrailer []] _ rfl
    obtain ⟨rfl, rfl⟩ := Prod.mk.inj (Except.ok.inj (hu2.symm.trans hu'))
    exact h1.trans (congrArg some (h2 rfl rfl rfl))

end Reticulum.Transport
