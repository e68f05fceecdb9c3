import Reticulum.Transport.TransitLinks

/-!
# Chains of forwarded packets

However the tables of the nodes of a network stand, a packet cannot be forwarded for ever: every
forward raises its hop byte by one, and a node drops what has come too far. A node that has seen a
packet drops its next copy before it looks for a route, or leaves the decision to the link that the
packet belongs to, which then does not relay it.

## Main definitions

* `Actor.Forwards` — a node sends a packet on as the forward of another.
* `ForwardChain` — copies of a packet, each the forward of the one before.
* `Actor.Seen` — a data packet or a proof that the hash list holds.

## Main results

* `forwarding_terminates` — the hop byte counts the forwards, at most 128, and copies that a node has
  seen are not forwarded again.
-/

namespace Reticulum.Transport

open Wire Option List

variable {F : Type}

/-! ### The hop byte of a forwarded packet -/

variable {header : PacketHeader} {raw : Bytes}

theorem hops_of_unpack {offset : ℕ}
    (hu : PacketHeader.unpack raw = .ok (header, offset)) : raw[1]? = some header.hops := by
  obtain ⟨b0, c, payload, rfl, -⟩ := PacketHeader.exists_frame hu
  rfl

theorem size_pos (header : PacketHeader) : 1 < header.size := by
  unfold PacketHeader.size
  split_ifs <;> decide

variable {raw sent : Bytes} {actor : TransportActor}

theorem hops_rewriteForwarded {path : PathEntry} {toLocalClient : Bool} (hlen : 1 < raw.length)
    (h : actor.rewriteForwardedTransportPacket raw header path toLocalClient = some sent) :
    sent[1]? = some header.hops := by
  simp only [TransportActor.rewriteForwardedTransportPacket] at h
  split_ifs at h
  · obtain ⟨nextHop, -, h⟩ := bind_eq_some_iff.mp h
    obtain rfl := some.inj h
    rfl
  · obtain rfl := some.inj h
    rfl
  · obtain rfl := some.inj h
    simp [hlen]

theorem hops_forwardCandidate
    {fromLocalClient forLocalClient toLocalClient : Bool} {target : ℕ} (hlen : 1 < raw.length)
    (hdelta : actor.localHopsDelta = 0)
    (h : actor.transportForwardCandidate raw header fromLocalClient forLocalClient toLocalClient =
      some (target, sent)) : sent[1]? = some header.hops := by
  obtain ⟨path, -, h⟩ := bind_eq_some_iff.mp h
  simp only [hdelta, ne_eq, not_true_eq_false, false_and, if_false] at h
  split_ifs at h
  obtain ⟨forwarded, hf, h⟩ := bind_eq_some_iff.mp h
  obtain ⟨-, rfl⟩ := Prod.mk.inj (some.inj h)
  exact hops_rewriteForwarded hlen hf

namespace Actor

section

variable [Sha256] [Ed25519] [Hkdf] [DecidableEq F] [Binary64 F] {s : Actor F}

/-- A node sends a packet on as the forward of another. -/
def Forwards (s : Actor F) (e : Inbound F) (raw sent : Bytes) : Prop :=
  s.clearPacket .wire e.interfaceId e.raw = some raw ∧
  ∃ t ∈ (s.receive e).transmissions.drop s.transmissions.length,
    (t.cause = .forward ∨ t.cause = .relay) ∧ t.raw = sent

variable {m : Moment F} {interfaceId : ℕ}

omit [Ed25519] [Hkdf] [DecidableEq F] in
theorem hops_planLinkRequest {plan : LinkPlan F} (hlen : 1 < raw.length) (hs : s.Bare)
    (h : s.planLinkRequest m raw header interfaceId = some plan) :
    plan.forwarded[1]? = some header.hops := by
  simp only [planLinkRequest, bind_eq_bind, bind_eq_some_iff] at h
  obtain ⟨⟨target, forwarded⟩, hcandidate, path, -, linkId, -, h⟩ := h
  split_ifs at h
  simp only [bind_eq_some_iff] at h
  obtain ⟨_, -, _, -, _, -, ⟨forwardedHeader, offset⟩, -, h⟩ := h
  obtain rfl := some.inj h
  have hhops := hops_forwardCandidate hlen hs.localHopsDelta hcandidate
  obtain ⟨hlen', -⟩ := List.getElem?_eq_some_iff.mp hhops
  have htake : 1 < (forwarded.take forwardedHeader.size).length := by
    rw [length_take]
    exact Nat.lt_min.mpr ⟨size_pos forwardedHeader, hlen'⟩
  rw [← hhops, getElem?_append_left htake, getElem?_take_of_lt (size_pos forwardedHeader)]

omit [Sha256] [Ed25519] [Hkdf] [DecidableEq F] [Binary64 F] in
/-- A forward in the transmissions of a step is one that the step brings in. -/
theorem Gains.forward {g : Gain F} {s' : Actor F} (h : Gains g s s') {t : Transmission}
    (ht : t ∈ s'.transmissions.drop s.transmissions.length)
    (hcause : t.cause = .forward ∨ t.cause = .relay) : g.packets t.cause t.raw := by
  obtain ⟨l, hl, hall⟩ := h.sent
  rw [hl, drop_left] at ht
  refine (hall t ht).resolve_left fun hholds => ?_
  rcases hcause with hcause | hcause <;> rw [hcause] at hholds <;> exact hholds

/-- Packets bring no local clients. -/
theorem Bare.receive (hs : s.Bare) (e : Inbound F) : (s.receive e).Bare := by
  obtain hdrop | ⟨raw, header, dataOffset, packetHashlist, -, -, -, -, hdispatch⟩ := receive_cases s e
  · rwa [hdrop]
  have hs' : Actor.Bare { s with packetHashlist } := ⟨hs.role, hs.localHopsDelta, hs.isSharedInstance⟩
  rw [hdispatch]
  unfold dispatch
  split
  · exact processAnnounce_brings.gains.bare hs'
  · exact processLinkRequest_brings.gains.bare hs'
  · exact processProof_brings.gains.bare hs'
  · exact (processData_gains hs').bare hs'

omit [Ed25519] [Hkdf] [DecidableEq F] in
/-- A data packet is sent on along its path with the hops of its header. -/
theorem UnclaimedPacket.hops {cause : Cause} (hlen : 1 < raw.length)
    (hs : s.Bare) (hcause : cause = .forward ∨ cause = .relay)
    (h : s.UnclaimedPacket m raw header cause sent) : sent[1]? = some header.hops := by
  rcases h with ⟨-, _, _, _, _, hcandidate⟩ | ⟨hannounce, -⟩ | ⟨hrequest, -⟩ | ⟨-, hannounce, -⟩
  · exact hops_forwardCandidate hlen hs.localHopsDelta hcandidate
  · rcases hcause with rfl | rfl <;> cases hannounce
  · rcases hcause with rfl | rfl <;> cases hrequest
  · rcases hcause with rfl | rfl <;> cases hannounce

/-- A dispatched packet is sent on with the hops of its header. -/
theorem hops_dispatch
    {dataOffset interfaceId : ℕ} {t : Transmission} (hlen : 1 < raw.length) (hs : s.Bare)
    (ht : t ∈ (s.dispatch m raw header dataOffset interfaceId).transmissions.drop
      s.transmissions.length) (hcause : t.cause = .forward ∨ t.cause = .relay) :
    t.raw[1]? = some header.hops := by
  have hrehopped {sent : Bytes} (h : s.Rehopped raw header interfaceId sent) :
      sent[1]? = some header.hops := by
    obtain ⟨exempt, rfl⟩ := h
    rw [hs.relayedHops_eq]
    simp [hlen]
  unfold dispatch at ht
  split at ht
  · obtain ⟨hannounce, -⟩ := processAnnounce_brings.gains.forward ht hcause
    rcases hcause with hcause | hcause <;> cases hcause.symm.trans hannounce
  · obtain ⟨-, plan, hplan, hsent⟩ := processLinkRequest_brings.gains.forward ht hcause
    rw [hsent]
    exact hops_planLinkRequest hlen hs hplan
  · exact hrehopped (processProof_brings.gains.forward ht hcause).2
  · rcases (processData_gains hs).forward ht hcause with ⟨-, h⟩ | h
    · exact hrehopped h
    · exact h.hops hlen hs hcause

/-- Every forward raises the hop byte by one, and a packet that has come too far is not forwarded. -/
theorem Forwards.hops_succ {e : Inbound F} (hs : s.Bare) (h : s.Forwards e raw sent) :
    ∃ hops : UInt8, raw[1]? = some hops ∧ hops < pathfinderM ∧ sent[1]? = some (hops + 1) := by
  obtain ⟨hclear, t, ht, hcause, rfl⟩ := h
  obtain hdrop | ⟨raw', header, dataOffset, packetHashlist, hclear', hu, hfilter, -, hdispatch⟩ :=
    receive_cases s e
  · rw [hdrop, drop_length] at ht
    cases ht
  obtain rfl := some.inj (hclear.symm.trans hclear')
  have hlimit : header.hops < pathfinderM := by
    by_contra hfar
    simp [filtersPacket, UInt8.not_lt.mp hfar] at hfilter
  have hhops := hops_of_unpack hu
  obtain ⟨hlen, -⟩ := List.getElem?_eq_some_iff.mp hhops
  have hs' : Actor.Bare { s with packetHashlist } := ⟨hs.role, hs.localHopsDelta, hs.isSharedInstance⟩
  rw [hdispatch] at ht
  refine ⟨header.hops, hhops, hlimit, ?_⟩
  rw [hops_dispatch hlen hs' ht hcause]
  have hne : header.hops ≠ 255 := by
    rintro h255
    rw [h255] at hlimit
    exact absurd hlimit (by decide)
  rw [arrived, hs.adjustedInboundHops_eq, if_neg hne]

/-! ### Copies that a node has seen -/

/-- The hash list does not hold the packet, or its context exempts it. -/
def unseen (s : Actor F) (raw : Bytes) (header : PacketHeader) : Bool :=
  skipsHashlist header.context ||
    (packetHash raw header.flags.headerType).any fun hash => !s.packetHashlist.contains hash

/-- A data packet or a proof whose context does not exempt it from the hash list, which holds it. -/
structure Seen (s : Actor F) (e : Inbound F) (raw : Bytes) (header : PacketHeader) : Prop where
  clear : s.clearPacket .wire e.interfaceId e.raw = some raw
  unpack : ∃ dataOffset, PacketHeader.unpack raw = .ok (header, dataOffset)
  packetType : header.flags.packetType = .data ∨ header.flags.packetType = .proof
  context : skipsHashlist header.context = false
  hash : ∃ hash, packetHash raw header.flags.headerType = some hash ∧
    s.packetHashlist.contains hash = true

variable {raw : Bytes} {header : PacketHeader} {e : Inbound F}

/-- The check for duplicates drops a packet that the node has seen, unless it is deferred. -/
theorem Seen.receive_eq (h : s.Seen e raw header) (hdefers : s.defersHashlist header = false) :
    s.receive e = s := by
  obtain ⟨dataOffset, hu⟩ := h.unpack
  obtain ⟨hash, hhash, hcontains⟩ := h.hash
  have hannounce : header.flags.packetType ≠ .announce := by
    rcases h.packetType with htype | htype <;> simp [htype]
  have hadmitted : s.admitHash raw header = none := by
    simp [admitHash, h.context, hdefers, hhash, PacketHashlist.insert_of_contains hcontains,
      hannounce]
  simp [receive, onInbound, onInboundInner, h.clear, onClear, hu, hadmitted]

variable {hash : Octets 32}

/-- A link does not relay a packet that the node has seen. -/
theorem routeLinkPacket_seen (hcontext : skipsHashlist header.context = false)
    (hhash : packetHash raw header.flags.headerType = some hash)
    (hcontains : s.packetHashlist.contains hash = true) :
    (s.routeLinkPacketViaLinkTable m raw header interfaceId).2 = s := by
  have hrelay (target : ℕ) (hops : UInt8) : s.relayLinkPacket m raw header target hops = s := by
    simp [relayLinkPacket, hcontext, hhash, PacketHashlist.insert_of_contains hcontains]
  unfold routeLinkPacketViaLinkTable
  dsimp only
  repeat' split
  all_goals first
    | rfl
    | exact hrelay _ _

omit [Sha256] [Ed25519] [Hkdf] [DecidableEq F] [Binary64 F] in
@[simp] theorem deliver_transmissions {destHash : Octets 16} {event : DestinationEvent} :
    (s.deliver destHash event).2.transmissions = s.transmissions := by
  unfold deliver
  split
  · rfl
  · split <;> rfl

/-- A link proof that the node has seen is not sent on. -/
theorem processLinkProof_seen (hhash : packetHash raw header.flags.headerType = some hash)
    (hcontains : s.packetHashlist.contains hash = true) :
    (s.processLinkProof m raw header interfaceId).transmissions = s.transmissions := by
  unfold processLinkProof
  split
  · split
    · exact deliver_transmissions
    · rfl
  split
  · rfl
  next plan hplan =>
    obtain ⟨-, -, -, -, hhash', -⟩ := of_claimLinkProof hplan
    obtain rfl := some.inj (hhash.symm.trans hhash')
    simp [relayLinkProof, PacketHashlist.insert_of_contains hcontains]
  · have hdelivered : (s.deliver header.destinationHash
        (s.inboundEvent raw interfaceId)).2.transmissions = s.transmissions := deliver_transmissions
    split
    next heq =>
      rw [heq] at hdelivered
      unfold listHash
      split
      · exact hdelivered
      · exact hdelivered
    next heq =>
      rw [heq] at hdelivered
      exact hdelivered

/-- What a packet that the node has seen may bring in: nothing along a link. -/
def seenGain : Gain F where
  packets cause _ := cause ≠ .relay
  paths _ _ := True

theorem processProof_seen (hproof : header.context ≠ .lrproof)
    (hcontext : skipsHashlist header.context = false)
    (hhash : packetHash raw header.flags.headerType = some hash)
    (hcontains : s.packetHashlist.contains hash = true) :
    Gains seenGain s (s.processProof m raw header interfaceId) := by
  refine processProof_induction (.refl _ s) (fun h => absurd h hproof)
    (processReceiptProof_brings _).gains ?_ (Brings.gains (routeProof_brings fun _ _ => nofun))
    fun s' key event h => h.trans ((deliver_calm fun _ _ => False).gains fun _ _ h => h.elim)
  intro _ _
  rw [routeLinkPacket_seen hcontext hhash hcontains]
  exact .refl _ s

theorem processData_seen (hcontext : skipsHashlist header.context = false)
    (hhash : packetHash raw header.flags.headerType = some hash)
    (hcontains : s.packetHashlist.contains hash = true) :
    Gains seenGain s (s.processData m raw header interfaceId) := by
  have hshared : Calm (fun c _ => c = .forward) s (s.shareBroadcast raw header interfaceId) :=
    shareBroadcast_quiet.calm
  have hstart : Gains seenGain s (s.shareBroadcast raw header interfaceId) :=
    hshared.gains fun cause _ h => by rintro rfl; cases h
  rw [← hshared.packetHashlist] at hcontains
  refine hstart.trans (routeData_gains_of ?_ (fun _ => ?_) (fun _ _ _ _ _ _ => nofun)
    (fun cause sent h => ?_) fun _ _ _ => trivial)
  · rw [routeLinkPacket_seen hcontext hhash hcontains]
    exact .refl _ _
  · refine handleCacheRequest_quiet.calm.gains fun cause sent h => ?_
    obtain ⟨rfl, -⟩ := h
    nofun
  · rcases h with ⟨rfl, -⟩ | ⟨rfl, -⟩ <;> nofun

section

variable (h : s.Seen e raw header)

include h

/-- Where the check for duplicates is deferred, a packet is dropped or dispatched as it is. -/
theorem Seen.receive_deferred (hdefers : s.defersHashlist header = true) :
    s.receive e = s ∨ ∃ dataOffset, s.receive e = s.dispatch e.moment raw
      (s.arrived header e.interfaceId) dataOffset e.interfaceId := by
  obtain ⟨dataOffset, hu⟩ := h.unpack
  rw [Actor.receive_deferred h.clear hu hdefers]
  split
  · exact .inl rfl
  · exact .inr ⟨dataOffset, rfl⟩

/-- A link proof that the node has seen is not sent on. -/
theorem Seen.link_proof_transmissions (htype : header.flags.packetType = .proof)
    (hcontext : header.context = .lrproof) : (s.receive e).transmissions = s.transmissions := by
  obtain ⟨hash, hhash, hcontains⟩ := h.hash
  obtain hdrop | ⟨dataOffset, hdispatch⟩ := h.receive_deferred (by simp [defersHashlist, hcontext])
  · rw [hdrop]
  have htype' : (s.arrived header e.interfaceId).flags.packetType = .proof := htype
  have hcontext' : (s.arrived header e.interfaceId).context = .lrproof := hcontext
  simp only [hdispatch, dispatch, htype', processProof, hcontext', if_true]
  exact processLinkProof_seen hhash hcontains

/-- A copy of a packet that the node has seen is not relayed along a link. -/
theorem Seen.not_relayed
    (hlinked : s.linkTable.contains header.destinationHash = true) (t : Transmission)
    (ht : t ∈ (s.receive e).transmissions.drop s.transmissions.length) : t.cause ≠ .relay := by
  obtain ⟨hash, hhash, hcontains⟩ := h.hash
  have hquiet {s' : Actor F} (hgains : Gains seenGain s s')
      (ht : t ∈ s'.transmissions.drop s.transmissions.length) : t.cause ≠ .relay := by
    intro hcause
    exact hgains.forward ht (.inr hcause) hcause
  obtain hdrop | ⟨dataOffset, hdispatch⟩ := h.receive_deferred (by simp [defersHashlist, hlinked])
  · rw [hdrop] at ht
    exact hquiet (Gains.refl _ s) ht
  rcases h.packetType with htype | htype
  · have htype' : (s.arrived header e.interfaceId).flags.packetType = .data := htype
    have hgains : Gains seenGain s (s.processData e.moment raw (s.arrived header e.interfaceId)
      e.interfaceId) := processData_seen h.context hhash hcontains
    simp only [hdispatch, dispatch, htype'] at ht
    exact hquiet hgains ht
  · by_cases hcontext : header.context = .lrproof
    · rw [h.link_proof_transmissions htype hcontext, drop_length] at ht
      cases ht
    · have htype' : (s.arrived header e.interfaceId).flags.packetType = .proof := htype
      have hgains : Gains seenGain s (s.processProof e.moment raw (s.arrived header e.interfaceId)
        e.interfaceId) := processProof_seen hcontext h.context hhash hcontains
      simp only [hdispatch, dispatch, htype'] at ht
      exact hquiet hgains ht

/-- Where its destination is no link it is not sent at all, unless it is a data packet with the
context of link proofs. -/
theorem Seen.transmissions_eq (hunlinked : s.linkTable.contains header.destinationHash = false)
    (hdata : ¬(header.flags.packetType = .data ∧ header.context = .lrproof)) :
    (s.receive e).transmissions = s.transmissions := by
  by_cases hcontext : header.context = .lrproof
  · have htype : header.flags.packetType = .proof :=
      h.packetType.resolve_left fun htype => hdata ⟨htype, hcontext⟩
    exact h.link_proof_transmissions htype hcontext
  · have htype : header.flags.packetType ≠ .linkRequest := by
      rcases h.packetType with htype | htype <;> simp [htype]
    rw [h.receive_eq (by simp [defersHashlist, hunlinked, htype, hcontext])]

end

end

end Actor

/-- A node of a chain and what it received. -/
structure ForwardHop (F : Type) where
  actor : Actor F
  event : Inbound F

section

variable [Sha256] [Ed25519] [Hkdf] [DecidableEq F] [Binary64 F]

/-- Copies of a packet, each sent by a node as the forward of the one before. The nodes have no local
clients, shared peers and hop delta; their tables are arbitrary. -/
inductive ForwardChain : Bytes → List (ForwardHop F) → Bytes → Prop
  | nil (raw : Bytes) : ForwardChain raw [] raw
  | cons {raw sent final : Bytes} {hop : ForwardHop F} {hops : List (ForwardHop F)}
      (bare : hop.actor.Bare) (forwards : hop.actor.Forwards hop.event raw sent)
      (chain : ForwardChain sent hops final) : ForwardChain raw (hop :: hops) final

/-- The hop byte counts the forwards of a chain. -/
theorem ForwardChain.hops_add {raw final : Bytes} {hops : List (ForwardHop F)}
    (hchain : ForwardChain raw hops final) {first : UInt8} (hfirst : raw[1]? = some first) :
    ∃ last : UInt8, final[1]? = some last ∧ last.toNat = first.toNat + hops.length ∧
      (hops ≠ [] → last.toNat ≤ 128) := by
  induction hchain generalizing first with
  | nil raw => exact ⟨first, hfirst, rfl, fun h => absurd rfl h⟩
  | @cons raw sent final hop hops hbare hforwards hchain ih =>
    obtain ⟨byte, hbyte, hlimit, hsent⟩ := hforwards.hops_succ hbare
    obtain rfl := some.inj (hfirst.symm.trans hbyte)
    obtain ⟨last, hlast, hcount, hbound⟩ := ih hsent
    have hlimit' : first.toNat < 128 := UInt8.lt_iff_toNat_lt.mp hlimit
    have hnext : (first + 1).toNat = first.toNat + 1 := by
      rw [UInt8.toNat_add]
      exact Nat.mod_eq_of_lt (Nat.lt_of_le_of_lt hlimit' (by decide))
    refine ⟨last, hlast, ?_, fun _ => ?_⟩
    · rw [hcount, hnext, length_cons]
      omega
    · cases hops with
      | nil => rw [hcount, hnext, length_nil]; omega
      | cons => exact hbound (cons_ne_nil _ _)

/-- **Forwarding terminates.** In every chain of copies of a packet, each the forward of the one
before, the hop byte grows by one with every forward, and there are at most 128. A copy of a data
packet or a proof that a node has seen, and whose context may not repeat, is not relayed along a link
of that node; where its destination is no link the node sends nothing, unless it is a data packet with
the context of link proofs. -/
theorem forwarding_terminates :
    (∀ (raw final : Bytes) (hops : List (ForwardHop F)), ForwardChain raw hops final →
      hops.length ≤ 128 ∧ ∀ first : UInt8, raw[1]? = some first →
        ∃ last : UInt8, final[1]? = some last ∧ last.toNat = first.toNat + hops.length) ∧
    ∀ (s : Actor F) (e : Inbound F) (raw : Bytes) (header : PacketHeader), s.Seen e raw header →
      (s.linkTable.contains header.destinationHash = false →
        ¬(header.flags.packetType = .data ∧ header.context = .lrproof) →
        (s.receive e).transmissions = s.transmissions) ∧
      (s.linkTable.contains header.destinationHash = true →
        ∀ t ∈ (s.receive e).transmissions.drop s.transmissions.length, t.cause ≠ .relay) := by
  refine ⟨fun raw final hops hchain => ⟨?_, fun first hfirst => ?_⟩,
    fun s e raw header hseen => ⟨hseen.transmissions_eq, hseen.not_relayed⟩⟩
  · cases hchain with
    | nil => exact Nat.zero_le _
    | cons hbare hforwards hchain =>
      obtain ⟨first, hfirst, -⟩ := hforwards.hops_succ hbare
      obtain ⟨last, -, hcount, hbound⟩ := (ForwardChain.cons hbare hforwards hchain).hops_add hfirst
      have := hbound (cons_ne_nil _ _)
      omega
  · obtain ⟨last, hlast, hcount, -⟩ := hchain.hops_add hfirst
    exact ⟨last, hlast, hcount⟩

end

theorem Session.node_interfaces {id : ℕ} {entry : Interface ℚ}
    (h : node.interfaces.get id = some entry) : ∃ owner room, entry = interface owner room := by
  obtain ⟨-, rfl⟩ | h := Table.of_get_insert h
  · exact ⟨2, 8, rfl⟩
  obtain ⟨-, rfl⟩ | h := Table.of_get_insert h
  · exact ⟨1, 8, rfl⟩
  · cases h

theorem Session.node_bare : node.Bare where
  role id entry h := by
    obtain ⟨owner, room, rfl⟩ := node_interfaces h
    exact ⟨nofun, nofun⟩
  localHopsDelta := rfl
  isSharedInstance := rfl

open Transport.Session in
/-- In the session the request is forwarded once, and a second copy of the proof is not sent on. -/
theorem forwarding_terminates_session :
    (∃ last : UInt8, relayedRequest[1]? = some last ∧ last.toNat = (0 : UInt8).toNat + 1) ∧
      ∀ t ∈ (([announced, requested, proved].foldl Actor.receive node).receive
          proved).transmissions.drop
        ([announced, requested, proved].foldl Actor.receive node).transmissions.length,
        t.cause ≠ .relay := by
  constructor
  · have hbare : (node.receive announced).Bare := node_bare.receive announced
    have hforwards : (node.receive announced).Forwards requested request relayedRequest :=
      ⟨by decide +kernel, ⟨.forward, 1, relayedRequest⟩, by decide +kernel, .inl rfl, rfl⟩
    have hchain (s : Actor ℚ) (hbare : s.Bare) (h : s.Forwards requested request relayedRequest) :
        ForwardChain request [⟨s, requested⟩] relayedRequest := .cons hbare h (.nil _)
    exact (forwarding_terminates.1 request relayedRequest _ (hchain _ hbare hforwards)).2 0
      (by decide +kernel)
  · have hseen : ([announced, requested, proved].foldl Actor.receive node).Seen proved proof
        ⟨.unpack 0x0F, 0, none, linkId, .lrproof⟩ :=
      { clear := by decide +kernel
        unpack := ⟨19, by decide +kernel⟩
        packetType := .inr (by decide)
        context := by decide
        hash := ⟨(sha).digest ([0x0F] ++ proof.drop 2), by decide +kernel, by decide +kernel⟩ }
    exact (forwarding_terminates.2 _ _ _ _ hseen).2 (by decide +kernel)

namespace Session

/-- A data packet for the destination with the context of link proofs. -/
def strayData : Bytes := [0x50, 0] ++ transportId.1 ++ destination.1 ++ [0xFF] ++ [1, 2, 3, 4, 5]

end Session

open Transport.Session in
/-- A node that has seen a data packet with the context of link proofs forwards it once more: the
check for duplicates is deferred by the context alone, and no later check is made for a packet that
goes along a path. -/
theorem seen_stray_data_forwarded :
    let s := { node.receive announced with
      packetHashlist := ⟨[(sha).digest ([0x00] ++ strayData.drop 18)], [], 1000⟩ }
    s.Seen ⟨moment 1700000002, strayData, 2⟩ strayData
        ⟨.unpack 0x50, 0, some transportId, destination, .lrproof⟩ ∧
      s.linkTable.contains destination = false ∧
      (Actor.receive s ⟨moment 1700000002, strayData, 2⟩).transmissions =
        s.transmissions ++ [⟨.forward, 1, [0x00, 1] ++ destination.1 ++ [0xFF] ++ [1, 2, 3, 4, 5]⟩] := by
  exact ⟨
    { clear := by decide +kernel
      unpack := ⟨35, by decide +kernel⟩
      packetType := .inl (by decide)
      context := by decide
      hash := ⟨(sha).digest ([0x00] ++ strayData.drop 18), by decide +kernel, by decide +kernel⟩ },
    by decide +kernel, by decide +kernel⟩

end Reticulum.Transport
