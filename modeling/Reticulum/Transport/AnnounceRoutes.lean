import Reticulum.Transport.ForwardChain
import Reticulum.Transport.Maintenance
import Reticulum.Transport.RequestChain

/-!
# Announces are sent on as routes through the node

A node without local clients wraps every announce that it sends on in a header of its own: the
announce then names the node as the next hop, one hop further from the destination than the copy
that the node received. Announces leave over several ways: the table of rebroadcasts, queued path
responses, the answers to a search, and announces that were held back. All of them are made of
received copies, so one invariant over every table that keeps bytes of announces covers them.

A request for a cached announce is the exception: the cached bytes are queued as they were received.

## Main definitions

* `RouteThrough` — a packet, if it is an announce, is a route through a node made of a received copy.
* `Replayed` — a received announce that a received packet asks for.
* `Actor.Sourced` — all that a node keeps stems from received packets.
* `NodeEvent`, `Actor.advance` — received packets and ticks.

## Main results

* `Actor.announces_leave_as_routes` — over every run, all announces that the node keeps or hands to
  an interface are routes through it or replayed.
* `replayed_announce_not_route` — a replayed announce is not.
-/

namespace Reticulum.Transport

open Wire PacketHeader Option List

variable {F : Type}

/-! ### Received copies -/

/-- A received announce. -/
structure Copy (packets : List Bytes) (raw : Bytes) (header : PacketHeader) (offset : ℕ) : Prop where
  mem : raw ∈ packets
  unpack : unpack raw = .ok (header, offset)
  packetType : header.flags.packetType = .announce

/-- If a packet is an announce, it is a route through the node `id`: it has a header of two addresses
that names the node, the payload of a received copy, and one hop more than that copy. -/
def RouteThrough (id : Octets 16) (packets : List Bytes) (raw : Bytes) : Prop :=
  ∀ header offset, unpack raw = .ok (header, offset) → header.flags.packetType = .announce →
    header.flags.headerType = .header2 ∧ header.transportId = some id ∧
    ∃ copy received offset', Copy packets copy received offset' ∧
      received.destinationHash = header.destinationHash ∧ copy.drop offset' = raw.drop offset ∧
      header.hops.toNat = received.hops.toNat + 1

/-- A received announce as it is, with a received data packet that asks for it by its hash. -/
def Replayed [Sha256] (packets : List Bytes) (raw : Bytes) : Prop :=
  ∃ header offset hash, Copy packets raw header offset ∧
    packetHash raw header.flags.headerType = some hash ∧
    ∃ request ∈ packets, ∃ asked offset', unpack request = .ok (asked, offset') ∧
      asked.flags.packetType = .data ∧ asked.context = .cacheRequest ∧
      Actor.dataPayload request asked = some hash.1

/-- No two received packets with different hashable parts have one hash. -/
def NoCollision [Sha256] (packets : List Bytes) : Prop :=
  ∀ raw ∈ packets, ∀ raw' ∈ packets, ∀ header offset header' offset',
    unpack raw = .ok (header, offset) →
    unpack raw' = .ok (header', offset') →
    packetHash raw header.flags.headerType = packetHash raw' header'.flags.headerType →
    getHashablePart raw header.flags.headerType = getHashablePart raw' header'.flags.headerType

variable {hops : UInt8}

section

variable {id : Octets 16} {packets packets' : List Bytes} {raw raw' : Bytes}
  {header header' : PacketHeader} {offset offset' : ℕ}

theorem Copy.mono (h : Copy packets raw header offset) (hsub : packets ⊆ packets') :
    Copy packets' raw header offset :=
  { h with mem := hsub h.mem }

theorem RouteThrough.mono (h : RouteThrough id packets raw) (hsub : packets ⊆ packets') :
    RouteThrough id packets' raw := by
  intro header offset hu htype
  obtain ⟨hheader, hid, copy, received, offset', hcopy, hsame⟩ := h header offset hu htype
  exact ⟨hheader, hid, copy, received, offset', hcopy.mono hsub, hsame⟩

theorem Replayed.mono [Sha256] (h : Replayed packets raw) (hsub : packets ⊆ packets') :
    Replayed packets' raw := by
  obtain ⟨header, offset, hash, hcopy, hhash, request, hmem, hasked⟩ := h
  exact ⟨header, offset, hash, hcopy.mono hsub, hhash, request, hsub hmem, hasked⟩

theorem NoCollision.mono [Sha256] (h : NoCollision packets') (hsub : packets ⊆ packets') :
    NoCollision packets :=
  fun raw hraw raw' hraw' => h raw (hsub hraw) raw' (hsub hraw')

/-- A received copy under the header of the node is a route through it. -/
theorem RouteThrough.of_copy (hcopy : Copy packets raw header offset) (contextFlag : Bool)
    (hhops : hops.toNat = header.hops.toNat + 1) (context : PacketContext) {payload : Bytes}
    (hpayload : payload = raw.drop offset) :
    RouteThrough id packets
      ((relayHeader contextFlag hops id header.destinationHash context).pack ++ payload) := by
  intro header' offset' hu' htype
  obtain ⟨hu, hdrop⟩ :=
    unpack_relayHeader contextFlag hops id header.destinationHash context payload
  obtain ⟨rfl, rfl⟩ := Prod.mk.inj (Except.ok.inj (hu.symm.trans hu'))
  exact ⟨rfl, rfl, raw, header, offset, hcopy, rfl, hpayload.symm.trans hdrop.symm, hhops⟩

/-- A packet with the flags nibble of one that is no announce is no announce. -/
theorem RouteThrough.of_carries {k k' : Content} (hk : Carries k raw) (hk' : Carries k' raw')
    (hnibble : k'.flagsNibble = k.flagsNibble)
    (hu : unpack raw = .ok (header, offset))
    (htype : header.flags.packetType ≠ .announce) : RouteThrough id packets raw' := by
  intro header' offset' hu' htype'
  exact absurd ((hk.packetType_eq hk' hnibble.symm hu hu').trans htype') htype

/-- The requests of a node for paths are no announces. -/
theorem RouteThrough.of_pathRequest [Sha256] {cause : Cause}
    (h : Actor.PathRequest cause raw) : RouteThrough id packets raw := by
  obtain ⟨-, payload, rfl⟩ := h
  intro header offset hu htype
  have hlayout : (PacketFlags.unpack Actor.pathRequestHeader.flags.pack).headerType = .header2 ↔
      Actor.pathRequestHeader.transportId.isSome := by
    rw [PacketFlags.unpack_pack]
    exact iff_of_false nofun nofun
  rw [pack_append] at hu
  obtain ⟨rfl, -⟩ := Prod.mk.inj (Except.ok.inj
    ((unpack_frame hlayout _ _ _ _).symm.trans hu))
  rw [PacketFlags.unpack_pack] at htype
  cases htype

/-- Received packets with one hash have one payload. -/
theorem NoCollision.payload_eq [Sha256] (h : NoCollision packets)
    (hcopy : Copy packets raw header offset)
    (hcopy' : Copy packets raw' header' offset')
    (hhash : packetHash raw header.flags.headerType = packetHash raw' header'.flags.headerType) :
    raw.drop offset = raw'.drop offset' := by
  obtain ⟨k, hk, -, -, hpayload, -⟩ := Carries.of_unpack hcopy.unpack
  obtain ⟨k', hk', -, -, hpayload', -⟩ := Carries.of_unpack hcopy'.unpack
  have hpart := h raw hcopy.mem raw' hcopy'.mem _ _ _ _ hcopy.unpack hcopy'.unpack hhash
  rw [hk.getHashablePart_eq hcopy.unpack, hk'.getHashablePart_eq hcopy'.unpack] at hpart
  rw [← hpayload, ← hpayload']
  exact Content.payload_eq_of_hashable_eq (some.inj hpart)

end

/-! ### What a node keeps -/

variable {destHash : Octets 16} {hash : Octets 32}

section

variable [Sha256]

/-- A path stems from a received copy: it has the hash of the copy, and one hop more. -/
def Announced (packets : List Bytes) (destHash : Octets 16) (hash : Octets 32) (hops : UInt8) :
    Prop :=
  ∃ raw header offset, Copy packets raw header offset ∧ header.destinationHash = destHash ∧
    packetHash raw header.flags.headerType = some hash ∧ hops.toNat = header.hops.toNat + 1

theorem Announced.mono {packets packets' : List Bytes} (h : Announced packets destHash hash hops)
    (hsub : packets ⊆ packets') : Announced packets' destHash hash hops := by
  obtain ⟨raw, header, offset, hcopy, hsame⟩ := h
  exact ⟨raw, header, offset, hcopy.mono hsub, hsame⟩

/-- What a step brings in stems from received packets. -/
structure Gain.Sourced (id : Octets 16) (packets : List Bytes) (g : Gain F) : Prop where
  routes : ∀ cause raw, g.packets cause raw → RouteThrough id packets raw ∨ Replayed packets raw
  paths : ∀ destHash path hash, g.paths destHash path → path.packetHash = some hash →
    Announced packets destHash hash path.hops
  tunnels : ∀ destHash path hash, g.tunnels destHash path → path.packetHash = some hash →
    Announced packets destHash hash path.hops
  cache : ∀ hash raw, g.cache hash raw → ∃ header offset, Copy packets raw header offset ∧
    packetHash raw header.flags.headerType = some hash
  held : ∀ held, g.held held → ∃ header offset, Copy packets held.raw header offset

namespace Actor

/-- A node under the identity `id`, without local clients, shared peer and hop delta, and all that it
keeps stems from some packets: the announces it keeps or has sent are routes through it or replayed,
and paths, cached announces and announces held back are those of received copies. -/
structure Sourced (id : Octets 16) (packets : List Bytes) (s : Actor F) : Prop where
  bare : s.Bare
  transportIdentityHash : s.transportIdentityHash = some id
  holds : ∀ cause raw, s.Holds cause raw → RouteThrough id packets raw ∨ Replayed packets raw
  sent : ∀ t ∈ s.transmissions, RouteThrough id packets t.raw ∨ Replayed packets t.raw
  paths : ∀ destHash path hash, s.pathTable.get destHash = some path →
    path.packetHash = some hash → Announced packets destHash hash path.hops
  tunnels : ∀ destHash path hash, s.tunnelTable.Knows destHash path →
    path.packetHash = some hash → Announced packets destHash hash path.hops
  cache : ∀ hash raw, s.cached hash = some raw → ∃ header offset, Copy packets raw header offset ∧
    packetHash raw header.flags.headerType = some hash
  held : ∀ interfaceId entry destHash held, s.interfaces.get interfaceId = some entry →
    entry.heldAnnounces.get destHash = some held → ∃ header offset, Copy packets held.raw header offset

/-- A node that has not heard or sent anything. -/
structure Fresh (s : Actor F) : Prop where
  holds : ∀ cause raw, ¬ s.Holds cause raw
  transmissions : s.transmissions = []
  paths : ∀ destHash, s.pathTable.get destHash = none
  tunnels : ∀ destHash path, ¬ s.tunnelTable.Knows destHash path
  cache : ∀ hash, s.cached hash = none
  held : ∀ interfaceId entry, s.interfaces.get interfaceId = some entry → entry.heldAnnounces = ∅

namespace Sourced

variable {id : Octets 16} {packets packets' : List Bytes} {s s' : Actor F} {g : Gain F}

theorem of_fresh (hs : s.Fresh) (hbare : s.Bare) (hid : s.transportIdentityHash = some id) :
    s.Sourced id packets where
  bare := hbare
  transportIdentityHash := hid
  holds cause raw hh := absurd hh (hs.holds cause raw)
  sent t ht := by
    rw [hs.transmissions] at ht
    cases ht
  paths destHash path hash hp := by
    rw [hs.paths destHash] at hp
    cases hp
  tunnels destHash path hash hp := absurd hp (hs.tunnels destHash path)
  cache hash raw hc := by
    rw [hs.cache hash] at hc
    cases hc
  held interfaceId entry destHash held he hh := by
    rw [hs.held interfaceId entry he] at hh
    cases hh

theorem mono (h : s.Sourced id packets) (hsub : packets ⊆ packets') : s.Sourced id packets' where
  bare := h.bare
  transportIdentityHash := h.transportIdentityHash
  holds cause raw hh := (h.holds cause raw hh).imp (·.mono hsub) (·.mono hsub)
  sent t ht := (h.sent t ht).imp (·.mono hsub) (·.mono hsub)
  paths destHash path hash hp hhash := (h.paths destHash path hash hp hhash).mono hsub
  tunnels destHash path hash hp hhash := (h.tunnels destHash path hash hp hhash).mono hsub
  cache hash raw hc := by
    obtain ⟨header, offset, hcopy, hhash⟩ := h.cache hash raw hc
    exact ⟨header, offset, hcopy.mono hsub, hhash⟩
  held interfaceId entry destHash held he hh := by
    obtain ⟨header, offset, hcopy⟩ := h.held interfaceId entry destHash held he hh
    exact ⟨header, offset, hcopy.mono hsub⟩

/-- A step that brings in only what stems from received packets. -/
theorem gains (h : s.Sourced id packets) (hgains : Gains g s s') (hg : g.Sourced id packets) :
    s'.Sourced id packets where
  bare := hgains.bare h.bare
  transportIdentityHash := hgains.transportIdentityHash.trans h.transportIdentityHash
  holds cause raw hh := (hgains.holds cause raw hh).elim (h.holds cause raw) (hg.routes cause raw)
  sent t ht := by
    obtain ⟨l, hl, hall⟩ := hgains.sent
    rw [hl] at ht
    rcases mem_append.mp ht with ht | ht
    · exact h.sent t ht
    · exact (hall t ht).elim (h.holds t.cause t.raw) (hg.routes t.cause t.raw)
  paths destHash path hash hp hhash :=
    (hgains.paths destHash path hp).elim (fun hp => h.paths destHash path hash hp hhash)
      fun hp => hg.paths destHash path hash hp hhash
  tunnels destHash path hash hp hhash :=
    (hgains.tunnels destHash path hp).elim (fun hp => h.tunnels destHash path hash hp hhash)
      fun hp => hg.tunnels destHash path hash hp hhash
  cache hash raw hc := (hgains.cache hash raw hc).elim (h.cache hash raw) (hg.cache hash raw)
  held interfaceId entry' destHash held he hh := by
    obtain ⟨entry, hentry, -, hheld⟩ := hgains.interfaces interfaceId entry' he
    exact (hheld destHash held hh).elim (h.held interfaceId entry destHash held hentry) (hg.held held)

end Sourced

end Actor

end

/-! ### Received packets -/

namespace Actor

section

variable {id : Octets 16} {packets : List Bytes} {s : Actor F} {m : Moment F} {raw : Bytes}
  {header : PacketHeader} {offset interfaceId : ℕ}

/-- The node counts the hop that a packet has come. -/
theorem Bare.arrived_hops (hs : s.Bare) (hlimit : header.hops < pathfinderM) :
    (s.arrived header interfaceId).hops.toNat = header.hops.toNat + 1 := by
  have hlt : header.hops.toNat < 128 := hlimit
  have hne : header.hops ≠ 255 := by
    rintro h
    rw [h] at hlt
    exact absurd hlt (by decide)
  have hfits : header.hops.toNat + 1 < 2 ^ 8 := by omega
  rw [arrived, hs.adjustedInboundHops_eq, if_neg hne]
  exact (UInt8.toNat_add _ _).trans (Nat.mod_eq_of_lt hfits)

theorem transportAnnounceFromRaw_eq (hid : s.transportIdentityHash = some id)
    (hu : unpack raw = .ok (header, offset)) (destHash : Octets 16) (hops : UInt8)
    (context : PacketContext) :
    s.transportAnnounceFromRaw raw destHash hops context =
      (relayHeader header.flags.contextFlag hops id destHash context).pack ++ raw.drop offset := by
  rw [transportAnnounceFromRaw, hu, hid]

theorem pathResponseFromCachedAnnounce_eq (hid : s.transportIdentityHash = some id)
    (hu : unpack raw = .ok (header, offset)) {response : Bytes}
    (h : s.pathResponseFromCachedAnnounce raw destHash hops = some response) :
    response = (relayHeader header.flags.contextFlag hops id destHash .pathResponse).pack ++
      raw.drop offset := by
  rw [pathResponseFromCachedAnnounce, hu, hid] at h
  dsimp only at h
  split_ifs at h
  exact (some.inj h).symm

/-- A packet that is sent on with other hops is no announce if it was none. -/
theorem Sourced.rehopped (hu : unpack raw = .ok (header, offset))
    (htype : header.flags.packetType ≠ .announce) {sent : Bytes} {arrived : PacketHeader}
    (h : s.Rehopped raw arrived interfaceId sent) : RouteThrough id packets sent := by
  obtain ⟨exempt, rfl⟩ := h
  obtain ⟨k, hk, -⟩ := Carries.of_unpack hu
  exact .of_carries hk (carries_set_hops hk _) rfl hu htype

variable [Sha256] {path : RouteEntry F}

section

variable (h : s.Sourced id packets)

include h

/-- A path restored from a tunnel is the one it was. -/
theorem Sourced.restored (hp : s.Restored destHash path)
    (hhash : path.packetHash = some hash) : Announced packets destHash hash path.hops := by
  obtain ⟨known, hknown, hhops, hpacket⟩ := hp
  rw [hhops]
  exact h.tunnels destHash known hash hknown (hpacket.symm.trans hhash)

/-- A path response has the payload of the copy that its path stems from: the cached announce has the
hash of that copy. -/
theorem Sourced.pathResponse (hcf : NoCollision packets) {cause : Cause} {response : Bytes}
    (hresponse : s.PathResponse cause response) : RouteThrough id packets response := by
  obtain ⟨-, destHash, path, hash, cachedRaw, hpath, hhash, hcached, hresponse⟩ := hresponse
  obtain ⟨header, offset, hcached, hcachedHash⟩ := h.cache hash cachedRaw hcached
  obtain ⟨raw, header', offset', hcopy, rfl, hcopyHash, hhops⟩ :=
    h.paths destHash path hash hpath hhash
  rw [pathResponseFromCachedAnnounce_eq h.transportIdentityHash hcached.unpack hresponse]
  exact .of_copy hcopy _ hhops _ (hcf.payload_eq hcached hcopy (hcachedHash.trans hcopyHash.symm))

/-- A new list of seen packets. -/
theorem Sourced.set_packetHashlist (packetHashlist : PacketHashlist) :
    Actor.Sourced id packets { s with packetHashlist } :=
  { h with bare := ⟨h.bare.role, h.bare.localHopsDelta, h.bare.isSharedInstance⟩ }

/-- Work that learns nothing, with requests of the node brought in. -/
theorem Sourced.calm {Q : Cause → Bytes → Prop} {s' : Actor F} (hcalm : Calm Q s s')
    (hQ : ∀ cause raw, Q cause raw → PathRequest cause raw) : s'.Sourced id packets := by
  refine h.gains (hcalm.gains (g := { packets := PathRequest }) hQ) ⟨fun cause raw hr => ?_,
    fun _ _ _ hp => hp.elim, fun _ _ _ hp => hp.elim, fun _ _ hc => hc.elim, fun _ hh => hh.elim⟩
  exact .inl (.of_pathRequest hr)

end

variable [Binary64 F]

/-- A used path is the one it was. -/
theorem Sourced.touched (h : s.Sourced id packets) (hp : s.Touched m destHash path)
    (hhash : path.packetHash = some hash) : Announced packets destHash hash path.hops := by
  obtain ⟨before, hget, rfl⟩ := hp
  exact h.paths destHash before hash hget hhash

/-- What a link request brings in: the request as it is sent on, and a used path. -/
theorem Sourced.requestGain (h : s.Sourced id packets)
    (hu : unpack raw = .ok (header, offset))
    (htype : header.flags.packetType = .linkRequest) :
    (s.requestGain m raw (s.arrived header interfaceId) interfaceId).Sourced id packets where
  routes cause sent hsent := by
    obtain ⟨-, plan, hplan, rfl⟩ := hsent
    obtain ⟨k, hk, -⟩ := Carries.of_unpack hu
    obtain ⟨-, _, _, payload, -, -, -, hk', -⟩ := planLinkRequest_attenuates hk hu hplan
    refine .inl (.of_carries hk hk' rfl hu ?_)
    rw [htype]
    nofun
  paths destHash path hash hp hhash := h.touched hp hhash
  tunnels _ _ _ hp := hp.elim
  cache _ _ hc := hc.elim
  held _ hh := hh.elim

/-- The part of a tick behind them. -/
theorem Sourced.tickCaches (h : s.Sourced id packets) : (s.tickCaches m).Sourced id packets :=
  h.gains (tickCaches_gains {}) ⟨fun _ _ hr => hr.elim, fun _ _ _ hp => hp.elim,
    fun _ _ _ hp => hp.elim, fun _ _ hc => hc.elim, fun _ hh => hh.elim⟩

variable [Ed25519]

/-- What an announce brings in stems from it. -/
theorem Sourced.announceGain (h : s.Sourced id packets) (hcopy : Copy packets raw header offset)
    (hlimit : header.hops < pathfinderM) :
    (s.announceGain m raw (s.arrived header interfaceId) offset interfaceId).Sourced id packets := by
  have hhops : (s.arrived header interfaceId).hops.toNat = header.hops.toNat + 1 :=
    h.bare.arrived_hops hlimit
  have hid := h.transportIdentityHash
  refine ⟨fun cause sent hsent => ?_, fun destHash path hash hp hhash => ?_,
    fun destHash path hash hp hhash => ?_, fun hash cachedRaw hc => ?_, fun held hheld => ?_⟩
  · obtain ⟨-, -, -, rfl | hresponse⟩ := hsent
    · rw [transportAnnounceFromRaw_eq hid hcopy.unpack]
      exact .inl (.of_copy hcopy _ hhops _ rfl)
    · rw [pathResponseFromCachedAnnounce_eq hid hcopy.unpack hresponse]
      exact .inl (.of_copy hcopy _ hhops _ rfl)
  · obtain ⟨rfl, -, announce, identity, -, -, rfl⟩ := hp
    exact ⟨raw, header, offset, hcopy, rfl, hhash, hhops⟩
  · obtain ⟨rfl, -, hpath, hpacket⟩ := hp
    exact ⟨raw, header, offset, hcopy, rfl, hpacket.symm.trans hhash, hpath ▸ hhops⟩
  · obtain ⟨hhash, rfl⟩ := hc
    exact ⟨header, offset, hcopy, hhash⟩
  · exact ⟨header, offset, hheld.1 ▸ hcopy⟩

omit [Binary64 F] in
/-- What a proof brings in: the proof as it is sent on. -/
theorem Sourced.proofGain (hu : unpack raw = .ok (header, offset))
    (htype : header.flags.packetType = .proof) :
    (s.proofGain m raw (s.arrived header interfaceId) interfaceId).Sourced id packets where
  routes cause sent hsent := .inl (rehopped hu (by rw [htype]; nofun) hsent.2)
  paths _ _ _ hp := hp.elim
  tunnels _ _ _ hp := hp.elim
  cache _ _ hc := hc.elim
  held _ hh := hh.elim

variable [Hkdf] [DecidableEq F]

namespace Sourced

omit [Ed25519] [Hkdf] [DecidableEq F] in
/-- What a data packet brings in. Announces from the cache are received ones that it asks for. -/
theorem dataGain (h : s.Sourced id packets) (hcf : NoCollision packets) (hmem : raw ∈ packets)
    (hu : unpack raw = .ok (header, offset)) (htype : header.flags.packetType = .data) :
    (s.dataGain m raw (s.arrived header interfaceId) interfaceId).Sourced id packets where
  routes cause sent hsent := by
    have htype' : header.flags.packetType ≠ .announce := by
      rw [htype]
      nofun
    rcases hsent with ⟨-, hrelayed⟩ | ⟨-, _, _, _, target, hcandidate⟩ | hresponse | hrequest |
      ⟨hcontext, -, hash, hpayload, hcached⟩
    · exact .inl (rehopped hu htype' hrelayed)
    · obtain ⟨k, hk, -⟩ := Carries.of_unpack hu
      exact .inl (.of_carries hk (carries_forwardCandidate _ hk hu hcandidate) rfl hu htype')
    · exact .inl (h.pathResponse hcf hresponse)
    · exact .inl (.of_pathRequest hrequest)
    · obtain ⟨received, offset', hcopy, hhash⟩ := h.cache hash sent hcached
      exact .inr ⟨received, offset', hash, hcopy, hhash, raw, hmem, header, offset, hu, htype,
        hcontext, hpayload⟩
  paths destHash path hash hp hhash := hp.elim (h.touched · hhash) (h.restored · hhash)
  tunnels _ _ _ hp := hp.elim
  cache _ _ hc := hc.elim
  held _ hh := hh.elim

/-- One packet. -/
theorem dispatch (h : s.Sourced id packets) (hcf : NoCollision packets) (hmem : raw ∈ packets)
    (hu : unpack raw = .ok (header, offset)) (hlimit : header.hops < pathfinderM) :
    (s.dispatch m raw (s.arrived header interfaceId) offset interfaceId).Sourced id packets := by
  unfold Actor.dispatch
  split
  next htype => exact h.gains processAnnounce_brings.gains (h.announceGain ⟨hmem, hu, htype⟩ hlimit)
  next htype => exact h.gains processLinkRequest_brings.gains (h.requestGain hu htype)
  next htype => exact h.gains processProof_brings.gains (proofGain hu htype)
  next htype => exact h.gains (processData_gains h.bare) (h.dataGain hcf hmem hu htype)

end Sourced

section

variable (h : s.Sourced id packets)

include h

/-- A received packet without its access code. -/
theorem Sourced.onClear (hcf : NoCollision packets) (hmem : raw ∈ packets) :
    (s.onClear m raw interfaceId).Sourced id packets := by
  obtain hdrop | ⟨header, offset, packetHashlist, hu, hfilter, -, hdispatch⟩ :=
    onClear_cases s m raw interfaceId
  · rwa [hdrop]
  have hlimit : header.hops < pathfinderM := by
    by_contra hfar
    simp [filtersPacket, UInt8.not_lt.mp hfar] at hfilter
  rw [hdispatch]
  exact (h.set_packetHashlist packetHashlist).dispatch hcf hmem hu hlimit

/-! ### Ticks -/

/-- The part of a tick before the announces that were held back. -/
theorem Sourced.tickAnnounces : (s.tickAnnounces m).Sourced id packets := by
  refine h.gains (tickAnnounces_brings (g := { paths := s.Kept }) fun _ _ hp => hp).gains
    ⟨fun _ _ hr => hr.elim, fun destHash path hash hp hhash => ?_, fun _ _ _ hp => hp.elim,
      fun _ _ hc => hc.elim, fun _ hh => hh.elim⟩
  obtain ⟨before, hget, hhops, hpacket⟩ := hp
  rw [hhops]
  exact h.paths destHash before hash hget (hpacket.symm.trans hhash)

/-- An announce that was held back is handled like a received one. -/
theorem Sourced.processHeldAnnounce (hcf : NoCollision packets) :
    (s.processHeldAnnounce m interfaceId).Sourced id packets := by
  unfold Actor.processHeldAnnounce
  split
  · exact h
  next announce entry' hreleased =>
    obtain ⟨entry, hentry, hreleased⟩ := bind_eq_some_iff.mp hreleased
    unfold Interface.tryReleaseHeld at hreleased
    split at hreleased
    · obtain ⟨⟨hash, held⟩, hleast, hpair⟩ := map_eq_some_iff.mp hreleased
      obtain ⟨rfl, rfl⟩ := Prod.mk.inj hpair
      have hheld : entry.heldAnnounces.get hash = some held :=
        Table.mem_toList.mp (argmin_mem hleast)
      obtain ⟨header, offset, hcopy⟩ := h.held interfaceId entry hash held hentry hheld
      have hleft : Actor.Sourced id packets { s with
          interfaces := s.interfaces.insert interfaceId
            { entry with heldAnnounces := entry.heldAnnounces.erase hash } } :=
        h.calm ((Calm.refl (fun _ _ => False) s).update_interface hentry Table.get_insert_eq_update
          ⟨rfl, Table.Sub.erase _ _⟩ fun _ hq => .inl hq) fun _ _ hr => hr.elim
      unfold onReleasedAnnounce onInboundInner
      split
      · exact hleft
      next clear hclear =>
        obtain rfl : clear = held.raw := by
          simp only [clearPacket, Interface.clear, reduceCtorEq, if_false, ne_eq,
            not_false_eq_true, if_true, bind_eq_bind, bind_eq_some_iff] at hclear
          obtain ⟨_, -, hclear⟩ := hclear
          split at hclear
          · cases hclear
          · obtain ⟨_, -, hclear⟩ := bind_eq_some_iff.mp hclear
            exact (some.inj (filter_eq_some_iff.mp hclear).1).symm
        exact hleft.onClear hcf hcopy.mem
    · cases hreleased

/-- A tick. -/
theorem Sourced.onTick (hcf : NoCollision packets) : (s.onTick m).Sourced id packets := by
  have hheld (s' : Actor F) (h' : s'.Sourced id packets) :
      (s'.checkHeldAnnounces m).Sourced id packets := by
    have hfold (ids : List ℕ) (s' : Actor F) (h' : s'.Sourced id packets) :
        (ids.foldl (fun s id => s.processHeldAnnounce m id) s').Sourced id packets := by
      induction ids generalizing s' with
      | nil => exact h'
      | cons i ids ih => exact ih _ (h'.processHeldAnnounce hcf)
    unfold checkHeldAnnounces
    split
    · exact (hfold _ s' h').calm ((Quiet.refl (fun _ _ => False) _).set_timers _).calm
        fun _ _ hr => hr.elim
    · exact h'
  exact (hheld _ h.tickAnnounces).tickCaches.calm tickQueues_calm fun _ _ hr => hr

end

end

end Actor

/-! ### Runs -/

/-- What happens to a node: an interface receives a packet, or the timer ticks. -/
inductive NodeEvent (F : Type)
  | inbound (e : Inbound F)
  | tick (m : Moment F)

namespace Actor

section

variable [Sha256] [Ed25519] [Hkdf] [DecidableEq F] [Binary64 F]

/-- The state after an event. -/
def advance (s : Actor F) : NodeEvent F → Actor F
  | .inbound e => s.receive e
  | .tick m => s.onTick m

/-- The packet of an event, without its access code. -/
def hears (s : Actor F) : NodeEvent F → List Bytes
  | .inbound e => (s.clearPacket .wire e.interfaceId e.raw).toList
  | .tick _ => []

/-- The packets of a run. -/
def heard : Actor F → List (NodeEvent F) → List Bytes
  | _, [] => []
  | s, e :: es => s.hears e ++ (s.advance e).heard es

variable {id : Octets 16} {packets : List Bytes} {s : Actor F}

/-- One event. -/
theorem Sourced.advance {e : NodeEvent F} (h : s.Sourced id packets)
    (hcf : NoCollision (packets ++ s.hears e)) :
    (s.advance e).Sourced id (packets ++ s.hears e) := by
  have h' := h.mono (subset_append_left packets (s.hears e))
  cases e with
  | tick m => exact h'.onTick hcf
  | inbound e =>
    change (s.onInboundInner e.moment .wire e.raw e.interfaceId).Sourced id _
    unfold onInboundInner
    split
    · exact h'
    next clear hclear => exact h'.onClear hcf (by simp [hears, hclear])

/-- Every run. -/
theorem Sourced.run (h : s.Sourced id packets) (es : List (NodeEvent F))
    (hcf : NoCollision (packets ++ s.heard es)) :
    (es.foldl Actor.advance s).Sourced id (packets ++ s.heard es) := by
  induction es generalizing s packets with
  | nil => exact h.mono (subset_append_left _ _)
  | cons e es ih =>
    rw [heard, ← append_assoc] at hcf ⊢
    exact ih (h.advance (hcf.mono (subset_append_left _ _))) hcf

/-- Over every run of received packets and ticks, every announce that the node keeps to send it, in
the queue of an interface or elsewhere, and every announce that it has handed to an interface is a
route through the node, made of a copy that it received, or is a received announce as it is, for
which a received packet asked by its hash. -/
theorem announces_leave_as_routes (s : Actor F) (id : Octets 16) (past : List Bytes)
    (hs : s.Sourced id past) (es : List (NodeEvent F)) (hcf : NoCollision (past ++ s.heard es))
    (raw : Bytes)
    (hraw : (es.foldl advance s).Holds .announce raw ∨
      ∃ t ∈ (es.foldl advance s).transmissions, t.raw = raw) :
    RouteThrough id (past ++ s.heard es) raw ∨ Replayed (past ++ s.heard es) raw := by
  have h := hs.run es hcf
  rcases hraw with hholds | ⟨t, ht, rfl⟩
  · exact h.holds .announce raw hholds
  · exact h.sent t ht

end

end Actor

/-! ### A session with a request for a cached announce -/

namespace Session

theorem node_fresh : node.Fresh where
  holds cause raw hh := by
    match cause, hh with
    | .announce, .inl ⟨_, _, he, _⟩ => cases he
    | .announce, .inr (.inl ⟨_, _, he, _⟩) => cases he
    | .announce, .inr (.inr (.inl ⟨_, entry, he, q, hq, _⟩)) =>
      obtain ⟨owner, room, rfl⟩ := node_interfaces he
      cases hq
    | .announce, .inr (.inr (.inr (.inl ⟨_, hp, _⟩))) => cases hp
    | .announce, .inr (.inr (.inr (.inr ⟨_, _, ho, _⟩))) => cases ho
    | .pathRequest, ⟨_, hp, _⟩ => cases hp
  transmissions := rfl
  paths _ := rfl
  tunnels _ _ hp := by
    obtain ⟨_, _, he, _⟩ := hp
    cases he
  cache _ := rfl
  held interfaceId entry he := by
    obtain ⟨owner, room, rfl⟩ := node_interfaces he
    rfl

/-- The announce as it leaves the node. -/
def routedAnnounce : Bytes := [0x51, 1] ++ transportId.1 ++ destination.1 ++ [0] ++ announce.drop 19

/-- A tick after the announce. -/
def ticked : NodeEvent ℚ := .tick (moment 1700000002)

/-- The hash of the announce. -/
def announceHash : Octets 32 :=
  .ofNat 0x8ff43d4680c3277760cdfe0cc999de5d3c753932586347fec249e7adbc2bf638

/-- A request for the announce. -/
def cacheRequest : Bytes := [0, 0] ++ destination.1 ++ [0x08] ++ announceHash.1

def cacheRequested : Inbound ℚ := ⟨moment 1700000002, cacheRequest, 2⟩

/-- SHA-256, also on the request. -/
@[reducible] def replaySha : Sha256 where
  digest input :=
    if input.length = 50 then
      .ofNat 0x308940d2f0f9caf895c5833b5cdc192646c9832fb16af0ee7332a2f5eb7544da
    else (sha).digest input

/-- The announce parses as one of the first header type. -/
theorem unpack_announce : unpack announce =
    .ok (⟨.unpack 0x01, 0, none, destination, .none⟩, 19) := by
  decide +kernel

theorem unpack_cacheRequest : unpack cacheRequest =
    .ok (⟨.unpack 0x00, 0, none, destination, .cacheRequest⟩, 19) := by
  decide +kernel

end Session

open Transport.Session Actor in
/-- In the session the node sends the announce on with the next tick, as a route through itself. -/
theorem announce_leaves_as_route :
    ⟨.announce, 2, routedAnnounce⟩ ∈
        ([.inbound announced, ticked].foldl advance node).transmissions ∧
      RouteThrough transportId (node.heard [.inbound announced, ticked]) routedAnnounce := by
  have hsent : ⟨.announce, 2, routedAnnounce⟩ ∈
      ([.inbound announced, ticked].foldl advance node).transmissions := by decide +kernel
  have hheard : node.heard [.inbound announced, ticked] = [announce] := by decide +kernel
  have hcf : NoCollision ([] ++ node.heard [.inbound announced, ticked]) := by
    rw [hheard]
    intro raw hraw raw' hraw' header offset header' offset' hu hu' _
    obtain rfl := mem_singleton.mp hraw
    obtain rfl := mem_singleton.mp hraw'
    obtain ⟨rfl, rfl⟩ := Prod.mk.inj (Except.ok.inj (hu.symm.trans hu'))
    rfl
  have hunasked : ¬ Replayed [announce] routedAnnounce := by
    rintro ⟨_, _, _, hcopy, -⟩
    exact absurd (mem_singleton.mp hcopy.mem) (by decide +kernel)
  have hroute := announces_leave_as_routes node transportId []
    (.of_fresh node_fresh node_bare rfl) [.inbound announced, ticked] hcf routedAnnounce
    (.inr ⟨⟨.announce, 2, routedAnnounce⟩, hsent, rfl⟩)
  rw [nil_append, hheard] at hroute
  rw [hheard]
  exact ⟨hsent, hroute.resolve_right hunasked⟩

open Transport.Session Actor in
/-- A new node receives an announce on one interface and a request for it on another. The announce
then stands in the queues of both interfaces as it was received: its header names no node, and it has
no hop more than the copy. -/
theorem replayed_announce_not_route :
    letI := replaySha
    let s := [.inbound announced, .inbound cacheRequested].foldl advance node
    node.Sourced transportId [] ∧ node.isTransportEnabled = true ∧ destination ∉ s.localDestinations ∧
      node.heard [.inbound announced, .inbound cacheRequested] = [announce, cacheRequest] ∧
      NoCollision [announce, cacheRequest] ∧
      (s.interfaces.get 1).map (fun entry => entry.announceQueue.map (·.raw)) = some [announce] ∧
      (s.interfaces.get 2).map (fun entry => entry.announceQueue.map (·.raw)) = some [announce] ∧
      ¬ RouteThrough transportId [announce, cacheRequest] announce := by
  let _ := replaySha
  refine ⟨.of_fresh node_fresh node_bare rfl, rfl, by decide +kernel, by decide +kernel, ?_,
    by decide +kernel, by decide +kernel, fun h => ?_⟩
  · have hunpack (raw : Bytes) (hraw : raw ∈ [announce, cacheRequest]) (header : PacketHeader)
        (offset : ℕ) (hu : unpack raw = .ok (header, offset)) :
        header.flags.headerType = .header1 := by
      rcases mem_pair.mp hraw with rfl | rfl
      · obtain ⟨rfl, -⟩ := Prod.mk.inj (Except.ok.inj (unpack_announce.symm.trans hu))
        rfl
      · obtain ⟨rfl, -⟩ := Prod.mk.inj (Except.ok.inj (unpack_cacheRequest.symm.trans hu))
        rfl
    have hdiffer : packetHash announce .header1 ≠ packetHash cacheRequest .header1 := by
      decide +kernel
    intro raw hraw raw' hraw' header offset header' offset' hu hu' hhash
    rw [hunpack raw hraw _ _ hu, hunpack raw' hraw' _ _ hu'] at hhash ⊢
    rcases mem_pair.mp hraw with rfl | rfl <;> rcases mem_pair.mp hraw' with rfl | rfl
    · rfl
    · exact absurd hhash hdiffer
    · exact absurd hhash.symm hdiffer
    · rfl
  · obtain ⟨hheader, -⟩ := h _ _ unpack_announce rfl
    cases hheader

end Reticulum.Transport
