import Reticulum.Transport.ForwardChain

/-!
# The path of a link

A link that crosses a node has two ends there: the interface its request left by, which its
destination is `remainingHops` away from, and the interface the request came from, `takenHops` away
from its initiator. Packets of the link are meant to pass from one end to the other.

## Main definitions

* `LinkEntry.Leads` — where a packet of a link may go on.
* `LinkEntry.Stray`, `Actor.RelaysStray` — a packet from outside of a link whose two ends are one
  interface, and when the node relays it.
* `Actor.RelaysTo` — a step relays along links to some interfaces only.

## Main results

* `Actor.receive_relaysTo` — where a received packet is relayed to.
* `Actor.RelaysStray.receive` — a stray packet is relayed.
* `Actor.link_path_iff` — packets keep to the path of their link exactly where none is stray.
-/

namespace Reticulum.Transport

open Wire
open Option hiding or_assoc or_self

variable {F : Type}

/-- Where a packet of a link goes on: from the side of the destination to that of the initiator, or
the other way, with the hops of the side it comes from. -/
def LinkEntry.Leads (entry : LinkEntry F) (hops : UInt8) (ingress egress : ℕ) : Prop :=
  ingress = entry.interfaceId ∧ hops = entry.remainingHops ∧ egress = entry.receivingInterface ∨
  ingress = entry.receivingInterface ∧ hops = entry.takenHops ∧ egress = entry.interfaceId

/-- A packet from elsewhere, for a link whose two ends are one interface, with the hops of one of its
sides. -/
def LinkEntry.Stray (entry : LinkEntry F) (hops : UInt8) (ingress : ℕ) : Prop :=
  entry.interfaceId = entry.receivingInterface ∧ ingress ≠ entry.interfaceId ∧
    (hops = entry.remainingHops ∨ hops = entry.takenHops)

theorem LinkEntry.Stray.not_leads {entry : LinkEntry F} {hops : UInt8} {ingress egress : ℕ}
    (h : entry.Stray hops ingress) : ¬ entry.Leads hops ingress egress := by
  rintro (⟨hingress, -⟩ | ⟨hingress, -⟩)
  · exact h.2.1 hingress
  · exact h.2.1 (hingress.trans h.1.symm)

namespace Actor

/-- All that a step relays along links goes to interfaces in `P`. -/
def RelaysTo (P : ℕ → Prop) (s s' : Actor F) : Prop :=
  ∃ l, s'.transmissions = s.transmissions ++ l ∧ ∀ t ∈ l, t.cause = .relay → P t.interfaceId

namespace RelaysTo

variable {P : ℕ → Prop} {s s' s'' : Actor F}

theorem of_transmissions_eq (h : s'.transmissions = s.transmissions) : RelaysTo P s s' :=
  ⟨[], by rw [h, List.append_nil], nofun⟩

theorem trans (h : RelaysTo P s s') (h' : RelaysTo P s' s'') : RelaysTo P s s'' := by
  obtain ⟨l, hl, hall⟩ := h
  obtain ⟨l', hl', hall'⟩ := h'
  refine ⟨l ++ l', by rw [hl', hl, List.append_assoc], fun t ht => ?_⟩
  rcases List.mem_append.mp ht with ht | ht
  · exact hall t ht
  · exact hall' t ht

/-- A step that brings in no packets to relay relays none. -/
theorem of_gains {g : Gain F} (h : Gains g s s') (hg : ∀ raw, ¬ g.packets .relay raw) :
    RelaysTo P s s' := by
  obtain ⟨l, hl, hall⟩ := h.sent
  refine ⟨l, hl, fun t ht hcause => ?_⟩
  have hsent := hall t ht
  rw [hcause] at hsent
  exact hsent.elim False.elim fun hrelay => absurd hrelay (hg t.raw)

theorem of_calm {Q : Cause → Bytes → Prop} (h : Calm Q s s') (hQ : ∀ raw, ¬ Q .relay raw) :
    RelaysTo P s s' :=
  of_gains (h.gains fun _ _ hq => hq) (g := { packets := Q }) hQ

theorem mem_drop (h : RelaysTo P s s') {t : Transmission}
    (ht : t ∈ s'.transmissions.drop s.transmissions.length) (hcause : t.cause = .relay) :
    P t.interfaceId := by
  obtain ⟨l, hl, hall⟩ := h
  rw [hl, List.drop_left] at ht
  exact hall t ht hcause

end RelaysTo

variable [Sha256] [Ed25519] [Hkdf] [DecidableEq F] [Binary64 F]

/-- What the node asks of a packet before it relays it along a link to `target`, wherever the packet
comes from: the link crosses the node and both of its ends are as they were registered, the packet
fits, the link is proved or may still be, the node relays for others or for a local client, the
packet has not been seen, and the interface takes it. -/
structure Relayable (s : Actor F) (m : Moment F) (entry : LinkEntry F) (raw : Bytes)
    (header : PacketHeader) (interfaceId target : ℕ) : Prop where
  destinationType : header.flags.destinationType = .link
  remote : header.destinationHash ∉ s.localDestinations
  registration : s.linkRegistrationIsCurrent entry = true
  length : raw.length ≤ entry.acceptedMtuCeiling
  proof : entry.validated = true ∨ entry.proofExpired m.now = false
  transport : s.isTransportEnabled = true ∨ s.isLocalClientInterface interfaceId = true ∨
    s.isLocalClientInterface entry.receivingInterface = true ∨
    s.isLocalClientInterface entry.interfaceId = true
  unseen : s.unseen raw header = true
  egress : s.Takes target (raw.set 1 (s.relayedHops header interfaceId (s.isInstanceLocal entry)))

/-- What the node routes along a link: data, and a proof that is neither one of a link nor one for a
receipt of the node. -/
def Routes (s : Actor F) (header : PacketHeader) : Prop :=
  header.flags.packetType = .data ∨ header.flags.packetType = .proof ∧
    header.context ≠ .lrproof ∧ s.receipts.receiptTable.contains header.destinationHash = false

/-- The node relays a stray packet that passes the filter. -/
structure RelaysStray (s : Actor F) (entry : LinkEntry F) (e : Inbound F) (raw : Bytes)
    (header : PacketHeader) (dataOffset : ℕ) : Prop where
  stray : entry.Stray (s.arrived header e.interfaceId).hops e.interfaceId
  filter : s.filtersPacket header (raw.drop dataOffset) e.interfaceId = false
  routes : s.Routes header
  relayable : s.Relayable e.moment entry raw (s.arrived header e.interfaceId) e.interfaceId
    entry.interfaceId

variable {s : Actor F} {P : ℕ → Prop} {m : Moment F} {raw : Bytes} {header : PacketHeader}
  {interfaceId : ℕ}

theorem sendToInterface_relaysTo {cause : Cause} {id : ℕ} (hid : s.Takes id raw → P id) :
    RelaysTo P s (s.sendToInterface cause id raw).2 := by
  rcases h : s.trySendToInterface cause id raw with ⟨outcome, s'⟩
  rcases trySendToInterface_cases h with ⟨rfl, -, hsent⟩ | ⟨-, rfl⟩
  · refine ⟨[⟨cause, id, raw⟩], ?_, fun t ht _ => ?_⟩
    · simpa only [sendToInterface, h] using hsent
    · obtain rfl := List.mem_singleton.mp ht
      exact hid (.of_sent h)
  · have hgone : RelaysTo P s' (s'.deregisterInterface id) :=
      .of_calm (deregisterInterface_calm (fun _ _ => False) _ _) fun _ h => h
    simp only [sendToInterface, h]
    cases outcome
    all_goals first
      | exact .of_transmissions_eq rfl
      | exact hgone

theorem relayLinkPacket_relaysTo {target : ℕ} {hops : UInt8}
    (htarget : s.unseen raw header = true → s.Takes target (raw.set 1 hops) → P target) :
    RelaysTo P s (s.relayLinkPacket m raw header target hops) := by
  unfold relayLinkPacket
  dsimp only
  split
  next hskips => exact sendToInterface_relaysTo (htarget (by simp [unseen, hskips]))
  split
  · exact .of_transmissions_eq rfl
  next hash hhash =>
    split
    next hinsert =>
      have hnew := PacketHashlist.insert_fst.symm.trans (congrArg Prod.fst hinsert)
      exact sendToInterface_relaysTo (htarget (by simp [unseen, hhash, hnew]))
    · exact .of_transmissions_eq rfl

theorem relayLinkPacket_transmissions {target : ℕ} {hops : UInt8}
    (hunseen : s.unseen raw header = true) (htakes : s.Takes target (raw.set 1 hops)) :
    (s.relayLinkPacket m raw header target hops).transmissions =
      s.transmissions ++ [⟨.relay, target, raw.set 1 hops⟩] := by
  have hsent (linkTable : Table (Octets 16) (LinkEntry F)) (packetHashlist : PacketHashlist) :
      (Actor.sendToInterface { s with linkTable, packetHashlist } .relay target
        (raw.set 1 hops)).2.transmissions =
      s.transmissions ++ [⟨.relay, target, raw.set 1 hops⟩] :=
    (Takes.sendToInterface (s := { s with linkTable, packetHashlist }) .relay htakes).1
  unfold relayLinkPacket
  dsimp only
  split
  · exact hsent _ s.packetHashlist
  next hskips =>
    obtain ⟨hash, hhash, hnew⟩ := (any_eq_true _ _).mp
      (((Bool.or_eq_true _ _).mp hunseen).resolve_left hskips)
    rw [hhash]
    dsimp only
    split
    · exact hsent _ _
    next hinsert =>
      rw [← PacketHashlist.insert_fst, hinsert] at hnew
      cases hnew

variable {entry : LinkEntry F}

section

variable (hentry : s.linkTable.get header.destinationHash = some entry)

include hentry

/-- A packet of a link goes where its entry says. -/
theorem routeLinkPacket_relaysTo
    (htarget : ∀ target, linkTarget entry header interfaceId = some (some target) →
      s.Relayable m entry raw header interfaceId target → P target) :
    RelaysTo P s (s.routeLinkPacketViaLinkTable m raw header interfaceId).2 := by
  have hstays : RelaysTo P s s := .of_transmissions_eq rfl
  unfold routeLinkPacketViaLinkTable
  split
  · exact hstays
  next hlink =>
  rw [hentry]
  dsimp only
  split
  · exact hstays
  next hcurrent =>
  split
  · exact hstays
  next hproof =>
  split
  · exact hstays
  next htransport =>
  split
  · exact hstays
  · exact hstays
  next target hto =>
    simp only [not_or, not_not] at hlink
    simp only [Bool.or_eq_true, Bool.not_eq_true', decide_eq_true_eq, not_or, Bool.not_eq_false,
      not_lt] at hcurrent
    simp only [Bool.and_eq_true, Bool.not_eq_true', not_and_or, Bool.not_eq_false,
      Bool.not_eq_true] at hproof
    simp only [Bool.and_eq_true, Bool.not_eq_true', not_and_or, Bool.not_eq_false, Bool.or_eq_true,
      or_assoc] at htransport
    exact relayLinkPacket_relaysTo fun hunseen htakes => htarget target hto
      ⟨hlink.1, hlink.2, hcurrent.1, hcurrent.2, hproof, htransport, hunseen, htakes⟩

/-- A link proof goes from the side of the destination to that of the initiator. -/
theorem processLinkProof_relaysTo
    (htarget : header.hops = entry.remainingHops → interfaceId = entry.interfaceId →
      P entry.receivingInterface) :
    RelaysTo P s (s.processLinkProof m raw header interfaceId) := by
  unfold processLinkProof
  split
  · split
    · exact .of_transmissions_eq deliver_transmissions
    · exact .of_transmissions_eq rfl
  split
  · exact .of_transmissions_eq rfl
  next plan hplan =>
    obtain ⟨hget, hhops, hingress, -⟩ := of_claimLinkProof hplan
    obtain rfl := some.inj (hentry.symm.trans hget)
    unfold relayLinkProof
    split
    · exact .of_transmissions_eq rfl
    next packetHashlist _ =>
      have hsent : RelaysTo P s (Actor.sendToInterface { s with packetHashlist } .relay
          plan.entry.receivingInterface plan.forwarded).2 :=
        sendToInterface_relaysTo fun _ => htarget hhops hingress
      split
      next s' hsend =>
        rw [hsend] at hsent
        exact hsent
      next s' hsend =>
        rw [hsend] at hsent
        refine hsent.trans (.of_transmissions_eq ?_)
        dsimp only
        split
        · rfl
        · rfl
  · have hdelivered : RelaysTo P s (s.deliver header.destinationHash
        (s.inboundEvent raw interfaceId)).2 := .of_transmissions_eq deliver_transmissions
    split
    next s' hdeliver =>
      rw [hdeliver] at hdelivered
      refine hdelivered.trans (.of_transmissions_eq ?_)
      unfold listHash
      split
      · rfl
      · rfl
    next s' hdeliver =>
      rw [hdeliver] at hdelivered
      exact hdelivered

/-- Where a proof addressed to a link is relayed to. -/
theorem processProof_relaysTo
    (hproof : header.hops = entry.remainingHops → interfaceId = entry.interfaceId →
      P entry.receivingInterface)
    (htarget : header.context ≠ .lrproof →
      s.receipts.receiptTable.contains header.destinationHash = false →
      ∀ target, linkTarget entry header interfaceId = some (some target) →
        s.Relayable m entry raw header interfaceId target → P target) :
    RelaysTo P s (s.processProof m raw header interfaceId) := by
  refine processProof_induction (.of_transmissions_eq rfl)
    (fun _ => processLinkProof_relaysTo hentry hproof) ?_
    (fun hcontext hreceipt => routeLinkPacket_relaysTo hentry (htarget hcontext hreceipt)) ?_
    fun s' key event h => h.trans (.of_transmissions_eq deliver_transmissions)
  · exact .of_gains (processReceiptProof_brings {}).gains nofun
  · exact .of_gains (g := { packets := fun cause _ => cause = .forward })
      (routeProof_brings fun _ _ => rfl).gains nofun

/-- Where a data packet addressed to a link is relayed to. -/
theorem processData_relaysTo
    (htarget : ∀ target, linkTarget entry header interfaceId = some (some target) →
      s.Relayable m entry raw header interfaceId target → P target) :
    RelaysTo P s (s.processData m raw header interfaceId) := by
  have hunclaimed (s' : Actor F) (fromLocalClient forLocalClient toLocalClient : Bool)
      (h : (s'.routeLinkPacketViaLinkTable m raw header interfaceId).1 = false) :
      RelaysTo P s' (s'.routeData m raw header interfaceId fromLocalClient forLocalClient
        toLocalClient) := by
    refine .of_gains (g := { packets := fun cause _ => cause ≠ .relay, paths := fun _ _ => True })
      (routeData_gains_of ?_ (fun _ => ?_) (fun _ _ _ _ _ _ => by simp) (fun cause sent h => ?_)
        fun _ _ _ => trivial) fun _ h => h rfl
    · rcases hroute : s'.routeLinkPacketViaLinkTable m raw header interfaceId with ⟨claimed, s''⟩
      rw [hroute] at h
      obtain rfl : claimed = false := h
      obtain rfl := routeLinkPacket_unclaimed hroute
      exact .refl _ _
    · refine handleCacheRequest_quiet.calm.gains fun cause sent h => ?_
      obtain ⟨rfl, -⟩ := h
      simp
    · rcases h with ⟨rfl, -⟩ | ⟨rfl, -⟩ <;> simp
  rw [processData]
  by_cases hlink : header.flags.destinationType = .link
  · -- nothing addressed to a link is shared with local clients
    have hshared : s.shareBroadcast raw header interfaceId = s := by
      simp [shareBroadcast, hlink]
    rw [hshared]
    cases hclaimed : (s.routeLinkPacketViaLinkTable m raw header interfaceId).1 with
    | false => exact hunclaimed s _ _ _ hclaimed
    | true =>
      have hrouted : RelaysTo P s (s.routeLinkPacketViaLinkTable m raw header interfaceId).2 :=
        routeLinkPacket_relaysTo hentry htarget
      rcases hroute : s.routeLinkPacketViaLinkTable m raw header interfaceId with ⟨claimed, s'⟩
      rw [hroute] at hrouted hclaimed
      obtain rfl : claimed = true := hclaimed
      simpa only [routeData, hroute] using hrouted
  · refine (RelaysTo.of_calm shareBroadcast_quiet.calm (by simp)).trans (hunclaimed _ _ _ _ ?_)
    simp [routeLinkPacketViaLinkTable, hlink]

/-- A packet that may be relayed, with a target, is. -/
theorem Relayable.routeLinkPacket {target : ℕ}
    (htarget : linkTarget entry header interfaceId = some (some target))
    (h : s.Relayable m entry raw header interfaceId target) :
    ∃ s', s.routeLinkPacketViaLinkTable m raw header interfaceId = (true, s') ∧
      s'.transmissions = s.transmissions ++ [⟨.relay, target,
        raw.set 1 (s.relayedHops header interfaceId (s.isInstanceLocal entry))⟩] := by
  have hcurrent : (!s.linkRegistrationIsCurrent entry ||
      decide (entry.acceptedMtuCeiling < raw.length)) = false := by
    simp [h.registration, h.length]
  have hproof : (!entry.validated && entry.proofExpired m.now) = false := by
    rcases h.proof with h | h <;> simp [h]
  have htransport : (!s.isTransportEnabled && !(s.isLocalClientInterface interfaceId ||
      s.isLocalClientInterface entry.receivingInterface ||
      s.isLocalClientInterface entry.interfaceId)) = false := by
    rcases h.transport with h | h | h | h <;> simp [h]
  have hroute : s.routeLinkPacketViaLinkTable m raw header interfaceId =
      (true, s.relayLinkPacket m raw header target
        (s.relayedHops header interfaceId (s.isInstanceLocal entry))) := by
    simp only [routeLinkPacketViaLinkTable, h.destinationType, h.remote, hentry, hcurrent, hproof,
      htransport, htarget, ne_eq, not_true_eq_false, or_self, Bool.false_eq_true, if_false]
  exact ⟨_, hroute, relayLinkPacket_transmissions h.unseen h.egress⟩

theorem Relayable.dispatch {target dataOffset : ℕ} (hroutes : s.Routes header)
    (htarget : linkTarget entry header interfaceId = some (some target))
    (h : s.Relayable m entry raw header interfaceId target) :
    ∃ hops, (s.dispatch m raw header dataOffset interfaceId).transmissions =
      s.transmissions ++ [⟨.relay, target, raw.set 1 hops⟩] := by
  obtain ⟨s', hroute, hsent⟩ := h.routeLinkPacket hentry htarget
  have hdispatch : s.dispatch m raw header dataOffset interfaceId = s' := by
    rcases hroutes with hdata | ⟨hproof, hcontext, hreceipt⟩
    · have hshared : s.shareBroadcast raw header interfaceId = s := by
        simp [shareBroadcast, h.destinationType]
      simp only [Actor.dispatch, hdata, processData, hshared, routeData, hroute]
    · simp only [Actor.dispatch, hproof, processProof, if_neg hcontext, hreceipt, hroute,
        Bool.false_eq_true, if_false]
  rw [hdispatch]
  exact ⟨_, hsent⟩

end

omit [Sha256] [Ed25519] [Hkdf] [DecidableEq F] [Binary64 F] in
/-- The entry sends a packet along its path, or it takes a stray one. -/
theorem leads_of_linkTarget {target : ℕ}
    (h : linkTarget entry header interfaceId = some (some target)) :
    entry.Leads header.hops interfaceId target ∨
      entry.Stray header.hops interfaceId ∧ target = entry.interfaceId := by
  unfold linkTarget at h
  by_cases hsame : entry.interfaceId = entry.receivingInterface
  · rw [if_pos hsame] at h
    split_ifs at h with hhops
    · obtain rfl := some.inj (some.inj h)
      by_cases hingress : interfaceId = entry.interfaceId
      · rcases hhops with hremaining | htaken
        · exact .inl (.inl ⟨hingress, hremaining, hsame⟩)
        · exact .inl (.inr ⟨hingress.trans hsame, htaken, rfl⟩)
      · exact .inr ⟨⟨hsame, hingress, hhops⟩, rfl⟩
    · cases some.inj h
  · rw [if_neg hsame] at h
    split_ifs at h with hreceiving htaken houtbound hremaining
    · obtain rfl := some.inj (some.inj h)
      exact .inl (.inr ⟨hreceiving, htaken, rfl⟩)
    · cases some.inj h
    · obtain rfl := some.inj (some.inj h)
      exact .inl (.inl ⟨houtbound, hremaining, rfl⟩)
    · cases some.inj h

section

variable {e : Inbound F} {dataOffset : ℕ}
  (hclear : s.clearPacket .wire e.interfaceId e.raw = some raw)
  (hu : PacketHeader.unpack raw = .ok (header, dataOffset))
  (hentry : s.linkTable.get header.destinationHash = some entry)

include hclear hu hentry

/-- The check for duplicates of a packet addressed to a link is left to the link. -/
theorem receive_of_link :
    s.receive e = if s.filtersPacket header (raw.drop dataOffset) e.interfaceId then s else
      s.dispatch e.moment raw (s.arrived header e.interfaceId) dataOffset e.interfaceId :=
  have hknown : s.linkTable.contains header.destinationHash = true :=
    Table.contains_iff.mpr ⟨entry, hentry⟩
  receive_deferred hclear hu (by rw [defersHashlist, hknown]; rfl)

/-- Where a received packet addressed to a link is relayed to. -/
theorem receive_relaysTo :
    RelaysTo (fun target =>
        entry.Leads (s.arrived header e.interfaceId).hops e.interfaceId target ∨
          s.RelaysStray entry e raw header dataOffset)
      s (s.receive e) := by
  rw [receive_of_link hclear hu hentry]
  split
  · exact .of_transmissions_eq rfl
  next hfilter =>
    have htarget (hroutes : s.Routes header) (target : ℕ)
        (hto : linkTarget entry (s.arrived header e.interfaceId) e.interfaceId = some (some target))
        (hrelayable : s.Relayable e.moment entry raw (s.arrived header e.interfaceId) e.interfaceId
          target) :
        entry.Leads (s.arrived header e.interfaceId).hops e.interfaceId target ∨
          s.RelaysStray entry e raw header dataOffset := by
      refine (leads_of_linkTarget hto).imp_right ?_
      rintro ⟨hstray, rfl⟩
      exact ⟨hstray, Bool.eq_false_iff.mpr hfilter, hroutes, hrelayable⟩
    unfold dispatch
    split
    · exact .of_gains processAnnounce_brings.gains nofun
    · exact .of_gains processLinkRequest_brings.gains nofun
    next hproof =>
      refine processProof_relaysTo hentry (fun hhops hingress => ?_) fun hcontext hreceipt =>
        htarget (.inr ⟨hproof, hcontext, hreceipt⟩)
      exact .inl (.inl ⟨hingress, hhops, rfl⟩)
    next hdata => exact processData_relaysTo hentry (htarget (.inl hdata))

/-- A stray packet is relayed to the one interface of its link. -/
theorem RelaysStray.receive (h : s.RelaysStray entry e raw header dataOffset) :
    ∃ hops, (s.receive e).transmissions =
      s.transmissions ++ [⟨.relay, entry.interfaceId, raw.set 1 hops⟩] := by
  obtain ⟨hsame, -, hhops⟩ := h.stray
  rw [receive_of_link hclear hu hentry, h.filter, if_neg Bool.false_ne_true]
  refine Relayable.dispatch ?_ ?_ ?_ h.relayable
  · exact hentry
  · exact h.routes
  · rw [linkTarget, if_pos hsame, if_pos hhops]

end

/-- Packets addressed to a link that crosses the node are relayed along its path, and one that
arrives anywhere else is not, unless the two ends of the link are one interface and the packet comes
from another one with the hops of one of the sides, and nothing else keeps the node from relaying
it. -/
theorem link_path_iff (s : Actor F) (e : Inbound F) (raw : Bytes) (header : PacketHeader)
    (dataOffset : ℕ) (entry : LinkEntry F)
    (hclear : s.clearPacket .wire e.interfaceId e.raw = some raw)
    (hu : PacketHeader.unpack raw = .ok (header, dataOffset))
    (hentry : s.linkTable.get header.destinationHash = some entry) :
    (∀ t ∈ (s.receive e).transmissions.drop s.transmissions.length, t.cause = .relay →
      entry.Leads (s.arrived header e.interfaceId).hops e.interfaceId t.interfaceId) ↔
    ¬ s.RelaysStray entry e raw header dataOffset := by
  constructor
  · intro hpath h
    obtain ⟨hops, hsent⟩ := h.receive hclear hu hentry
    rw [hsent, List.drop_left] at hpath
    exact h.stray.not_leads (hpath _ (List.mem_singleton_self _) rfl)
  · intro hnone t ht hcause
    exact ((receive_relaysTo hclear hu hentry).mem_drop ht hcause).resolve_right hnone

end Actor

namespace Session

/-- The request for the link on the interface that leads to its destination. -/
def requestedBack : Inbound ℚ := ⟨moment 1700000002, request, 1⟩

/-- A keepalive for the link. -/
def keepalive : Bytes := [0x0C, 0] ++ linkId.1 ++ [0xFA, 0xFF]

/-- The keepalive arrives on an interface. -/
def kept (interfaceId : ℕ) : Inbound ℚ := ⟨moment 1700000003, keepalive, interfaceId⟩

/-- The header of the keepalive. -/
def keepaliveHeader : PacketHeader := ⟨.unpack 0x0C, 0, none, linkId, .keepalive⟩

end Session

open Transport.Session Actor in
/-- In the session, a keepalive from the side of the destination goes to that of the initiator. -/
theorem link_path_session :
    let s := [announced, requested].foldl receive node
    (s.receive (kept 1)).transmissions =
        s.transmissions ++ [⟨.relay, 2, [0x0C, 1] ++ linkId.1 ++ [0xFA, 0xFF]⟩] ∧
      ∃ entry, s.linkTable.get linkId = some entry ∧ entry.Leads 1 1 2 := by
  have hsent : (([announced, requested].foldl receive node).receive (kept 1)).transmissions =
      ([announced, requested].foldl receive node).transmissions ++
        [⟨.relay, 2, [0x0C, 1] ++ linkId.1 ++ [0xFA, 0xFF]⟩] := by decide +kernel
  have hget : (([announced, requested].foldl receive node).linkTable.get linkId).isSome := by
    decide +kernel
  obtain ⟨entry, hentry⟩ := isSome_iff_exists.mp hget
  have hends : (([announced, requested].foldl receive node).linkTable.get linkId).map
      (fun entry => (entry.interfaceId, entry.receivingInterface)) = some (1, 2) := by decide +kernel
  have hunstray (hops : UInt8) : ¬ entry.Stray hops 1 := by
    rw [hentry] at hends
    obtain ⟨hout, hback⟩ := Prod.mk.inj (some.inj hends)
    rintro ⟨-, hne, -⟩
    exact hne hout.symm
  have hpath := (link_path_iff ([announced, requested].foldl receive node) (kept 1) keepalive
    keepaliveHeader 19 entry (by decide +kernel) (by decide +kernel) hentry).mpr
      fun h => hunstray _ h.stray
  have hhops : (([announced, requested].foldl receive node).arrived keepaliveHeader 1).hops = 1 := by
    decide +kernel
  refine ⟨hsent, entry, hentry, ?_⟩
  rw [hsent, List.drop_left] at hpath
  have hleads := hpath _ (List.mem_singleton_self _) rfl
  rw [← hhops]
  exact hleads

open Transport.Session Actor in
/-- A link that came in and went out on interface 1 takes a keepalive from interface 2. -/
theorem stray_keepalive_relayed :
    let s := [announced, requestedBack].foldl receive node
    ((s.linkTable.get linkId).map fun entry => (entry.interfaceId, entry.receivingInterface)) =
        some (1, 1) ∧
      (s.receive (kept 2)).transmissions =
        s.transmissions ++ [⟨.relay, 1, [0x0C, 1] ++ linkId.1 ++ [0xFA, 0xFF]⟩] := by
  exact ⟨by decide +kernel, by decide +kernel⟩

end Reticulum.Transport
