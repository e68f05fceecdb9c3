import Reticulum.Transport.ForwardChain

/-!
# Proofs on their way back

A node that forwards a data packet remembers in its reverse table where the packet came from and
where it went. The proof of its delivery comes back from there and is to be returned to where the
packet came from. A proof that arrives from elsewhere is not returned, and the genuine one still is
where the node drops those from elsewhere before it processes them.

## Main definitions

* `Actor.ProofFor`, `Actor.Misdirected` — proofs for a reverse entry, and those from elsewhere.
* `Actor.Returnable`, `Actor.ReturnsProof` — a proof that a node can return, and that it does so.
* `Actor.Drops` — a packet that the filter drops, or that has been seen.
* `Actor.Interferes` — all that misdirected proofs can change.

## Main results

* `Actor.receive_misdirected`, `Actor.foldl_misdirected` — one misdirected proof, and a run of them.
* `Actor.misdirected_proofs` — what they leave of the return of the genuine proof.
-/

namespace Reticulum.Transport

open Wire PacketHeader List

variable {F : Type}

namespace Actor

section

variable [Sha256] [Ed25519] [Hkdf]

/-- The node receives a proof of delivery under `key`: a proof that is not one of a link. -/
structure ProofFor (s : Actor F) (key : Octets 16) (e : Inbound F) (raw : Bytes)
    (header : PacketHeader) (dataOffset : ℕ) : Prop where
  clear : s.clearPacket .wire e.interfaceId e.raw = some raw
  unpack : unpack raw = .ok (header, dataOffset)
  packetType : header.flags.packetType = .proof
  context : header.context ≠ .lrproof
  destinationHash : header.destinationHash = key

/-- A proof under `key` that does not arrive where the packet went. -/
def Misdirected (s : Actor F) (key : Octets 16) (outbound : ℕ) (e : Inbound F) : Prop :=
  e.interfaceId ≠ outbound ∧ ∃ raw header dataOffset, s.ProofFor key e raw header dataOffset

/-- Whether proofs from an interface are looked up in the reverse table. -/
def looksUp (s : Actor F) (key : Octets 16) (interfaceId : ℕ) : Bool :=
  s.isTransportEnabled || s.isLocalClientInterface interfaceId || s.isProofForLocalClient key

/-- A proof as it is returned. -/
def returned (s : Actor F) (key : Octets 16) (raw : Bytes) (header : PacketHeader)
    (interfaceId : ℕ) : Bytes :=
  raw.set 1 (s.relayedHops (s.arrived header interfaceId) interfaceId (s.isProofForLocalClient key))

/-- The genuine proof of a reverse entry: it arrives where the packet went, the packet filter lets
it pass, no receipt of the node and no link has its hash, the reverse table is looked up, and the
interface that the packet came from takes it. Whether it has been seen is left open. -/
structure Returnable (s : Actor F) (key : Octets 16) (entry : ReverseEntry F) (e : Inbound F)
    (raw : Bytes) (header : PacketHeader) (dataOffset : ℕ) : Prop where
  recorded : s.reverseTable.get key = some entry
  proof : s.ProofFor key e raw header dataOffset
  ingress : entry.outboundInterface = some e.interfaceId
  filter : s.filtersPacket header (raw.drop dataOffset) e.interfaceId = false
  receipt : s.receipts.receiptTable.contains key = false
  link : s.linkTable.get key = none
  looksUp : s.looksUp key e.interfaceId = true
  egress : s.Takes entry.receivingInterface (s.returned key raw header e.interfaceId)

/-- The node drops a packet before it processes it: the filter does, or the packet has been seen. -/
def Drops (s : Actor F) (e : Inbound F) : Prop :=
  ∃ raw header dataOffset, s.clearPacket .wire e.interfaceId e.raw = some raw ∧
    PacketHeader.unpack raw = .ok (header, dataOffset) ∧
    (s.filtersPacket header (raw.drop dataOffset) e.interfaceId = true ∨ s.unseen raw header = false)

variable [DecidableEq F] [Binary64 F]

/-- The node sends one packet, to the interface that the data packet came from, and forgets the
entry. -/
def ReturnsProof (s : Actor F) (key : Octets 16) (entry : ReverseEntry F) (e : Inbound F) : Prop :=
  (∃ sent, (s.receive e).transmissions =
    s.transmissions ++ [⟨.forward, entry.receivingInterface, sent⟩]) ∧
  (s.receive e).reverseTable.get key = none

end

/-! ### What misdirected proofs change -/

/-- All that misdirected proofs under `key` can change: the list of seen packets, their reverse
entry, and what local destinations are given. -/
def Interferes (key : Octets 16) (s s' : Actor F) : Prop :=
  ∃ packetHashlist reverseTable destinationChannels deliveries,
    s' = { s with packetHashlist, reverseTable, destinationChannels, deliveries } ∧
      (reverseTable.get key = s.reverseTable.get key ∨ reverseTable.get key = none)

namespace Interferes

variable {key : Octets 16} {s s' s'' : Actor F}

theorem refl (key : Octets 16) (s : Actor F) : Interferes key s s :=
  ⟨_, _, _, _, rfl, .inl rfl⟩

theorem trans (h : Interferes key s s') (h' : Interferes key s' s'') : Interferes key s s'' := by
  obtain ⟨_, _, _, _, rfl, hkept⟩ := h
  obtain ⟨_, _, _, _, rfl, hkept'⟩ := h'
  refine ⟨_, _, _, _, rfl, ?_⟩
  rcases hkept' with hkept' | hgone
  · exact hkept.imp hkept'.trans hkept'.trans
  · exact .inr hgone

end Interferes

theorem deliver_eq (s : Actor F) (destHash : Octets 16) (event : DestinationEvent) :
    ∃ destinationChannels deliveries,
      (s.deliver destHash event).2 = { s with destinationChannels, deliveries } := by
  unfold deliver
  split
  · exact ⟨_, _, rfl⟩
  split
  · exact ⟨_, _, rfl⟩
  · exact ⟨_, _, rfl⟩

/-- The reverse entry under `key`, while it is there, waits for a proof from one interface, and
nothing else of the node takes proofs under `key`. -/
structure Awaits (s : Actor F) (key : Octets 16) (outbound : ℕ) : Prop where
  receipt : s.receipts.receiptTable.contains key = false
  link : s.linkTable.get key = none
  outboundInterface : ∀ entry, s.reverseTable.get key = some entry →
    entry.outboundInterface = some outbound

theorem Awaits.of_interferes {s s' : Actor F} {key : Octets 16} {outbound : ℕ}
    (ha : s.Awaits key outbound) (h : Interferes key s s') :
    s'.Awaits key outbound := by
  obtain ⟨_, _, _, _, rfl, hkept⟩ := h
  refine ⟨ha.receipt, ha.link, fun entry hentry => ?_⟩
  rcases hkept with hkept | hgone
  · exact ha.outboundInterface entry (hkept.symm.trans hentry)
  · cases hgone.symm.trans hentry

variable [Sha256] [Ed25519] [Hkdf] [DecidableEq F] [Binary64 F] {s s' : Actor F} {key : Octets 16}
  {entry : ReverseEntry F} {e : Inbound F} {raw : Bytes} {header : PacketHeader}
  {dataOffset interfaceId outbound : ℕ}

/-- A proof that neither a receipt nor a link takes, once admitted: the reverse table routes it, or a
local destination is given it. -/
def routeOrDeliver (s : Actor F) (key : Octets 16) (raw : Bytes) (header : PacketHeader)
    (interfaceId : ℕ) : Actor F :=
  match s.routeProof raw header interfaceId with
  | (true, s) => s
  | (false, s) => (s.deliver key (s.inboundEvent raw interfaceId)).2

theorem routeOrDeliver_of_unrouted (key : Octets 16)
    (h : s.routeProof raw header interfaceId = (false, s')) :
    ∃ destinationChannels deliveries,
      s.routeOrDeliver key raw header interfaceId = { s' with destinationChannels, deliveries } := by
  rw [routeOrDeliver, h]
  exact deliver_eq s' key _

theorem processProof_unclaimed {m : Moment F} (hcontext : header.context ≠ .lrproof)
    (hreceipt : s.receipts.receiptTable.contains header.destinationHash = false)
    (hlink : s.linkTable.get header.destinationHash = none) :
    s.processProof m raw header interfaceId =
      s.routeOrDeliver header.destinationHash raw header interfaceId := by
  have hroute : s.routeLinkPacketViaLinkTable m raw header interfaceId = (false, s) := by
    simp [routeLinkPacketViaLinkTable, hlink]
  unfold processProof
  rw [if_neg hcontext, hreceipt, if_neg Bool.false_ne_true, hroute]
  rfl

omit [DecidableEq F] [Binary64 F] in
theorem ProofFor.drops_iff (hp : s.ProofFor key e raw header dataOffset) :
    s.Drops e ↔ s.filtersPacket header (raw.drop dataOffset) e.interfaceId = true ∨
      s.unseen raw header = false := by
  refine ⟨?_, fun h => ⟨raw, header, dataOffset, hp.clear, hp.unpack, h⟩⟩
  rintro ⟨_, _, _, hclear, hu, h⟩
  obtain rfl := Option.some.inj (hp.clear.symm.trans hclear)
  obtain ⟨rfl, rfl⟩ := Prod.mk.inj (Except.ok.inj (hp.unpack.symm.trans hu))
  exact h

omit [Ed25519] [Hkdf] [DecidableEq F] [Binary64 F] in
/-- The check for duplicates admits a proof of delivery that has not been seen. -/
theorem admitHash_isSome (htype : header.flags.packetType = .proof)
    (hcontext : header.context ≠ .lrproof)
    (hlink : s.linkTable.get header.destinationHash = none) :
    (s.admitHash raw header).isSome = s.unseen raw header := by
  have hunknown : s.linkTable.contains header.destinationHash = false :=
    congrArg Option.isSome hlink
  have hdefers : s.defersHashlist header = false := by
    simp [defersHashlist, hunknown, htype, hcontext]
  rw [admitHash, unseen, hdefers, Bool.or_false]
  cases skipsHashlist header.context with
  | true => rfl
  | false =>
    rw [if_neg Bool.false_ne_true]
    cases packetHash raw header.flags.headerType with
    | none => rfl
    | some hash => cases h : s.packetHashlist.contains hash <;> simp [PacketHashlist.insert, h, htype]

/-- A proof of delivery is dropped by the filter or as a duplicate, or it is routed or delivered. -/
theorem ProofFor.receive_cases (hp : s.ProofFor key e raw header dataOffset)
    (hreceipt : s.receipts.receiptTable.contains key = false) (hlink : s.linkTable.get key = none) :
    s.receive e = s ∧ s.Drops e ∨ ¬ s.Drops e ∧ ∃ packetHashlist, s.receive e =
      routeOrDeliver { s with packetHashlist } key raw (s.arrived header e.interfaceId)
        e.interfaceId := by
  rw [hp.drops_iff]
  obtain rfl := hp.destinationHash
  unfold receive onInbound onInboundInner onClear
  rw [hp.clear]
  simp only [hp.unpack]
  by_cases hfilter : s.filtersPacket header (raw.drop dataOffset) e.interfaceId = true
  · exact .inl ⟨if_pos hfilter, .inl hfilter⟩
  rw [if_neg hfilter, ← admitHash_isSome hp.packetType hp.context hlink]
  cases hadmitted : s.admitHash raw header with
  | none => exact .inl ⟨rfl, .inr rfl⟩
  | some admitted =>
    obtain ⟨packetHashlist, rfl⟩ := admitHash_eq hadmitted
    refine .inr ⟨by simpa using hfilter, packetHashlist, ?_⟩
    simp only [dispatch, hp.packetType]
    exact processProof_unclaimed hp.context hreceipt hlink

omit [DecidableEq F] [Binary64 F] in
theorem ProofFor.of_interferes (hp : s.ProofFor key e raw header dataOffset)
    (h : Interferes key s s') : s'.ProofFor key e raw header dataOffset := by
  obtain ⟨_, _, _, _, rfl, -⟩ := h
  exact ⟨hp.clear, hp.unpack, hp.packetType, hp.context, hp.destinationHash⟩

omit [DecidableEq F] [Binary64 F] in
theorem Misdirected.of_interferes (he : s.Misdirected key outbound e) (h : Interferes key s s') :
    s'.Misdirected key outbound e := by
  obtain ⟨hingress, raw, header, dataOffset, hp⟩ := he
  exact ⟨hingress, raw, header, dataOffset, hp.of_interferes h⟩

/-- The reverse table is looked up for the proof, or left alone. -/
theorem routeProof_eq (raw : Bytes) (header : PacketHeader) (interfaceId : ℕ) :
    s.routeProof raw header interfaceId =
      if s.looksUp header.destinationHash interfaceId then
        match s.reverseTable.get header.destinationHash with
        | none => (false, s)
        | some entry =>
          let removed := { s with reverseTable := s.reverseTable.erase header.destinationHash }
          if entry.outboundInterface.any (· ≠ interfaceId) then (false, removed)
          else
            (true, (removed.sendToInterface .forward entry.receivingInterface
              (raw.set 1 (s.relayedHops header interfaceId
                (s.isProofForLocalClient header.destinationHash)))).2)
      else (false, s) := by
  unfold routeProof looksUp
  dsimp only
  cases s.isTransportEnabled || s.isLocalClientInterface interfaceId ||
    s.isProofForLocalClient header.destinationHash <;> rfl

/-- A proof from elsewhere is not returned. Looked up, it costs the reverse entry. -/
theorem routeProof_misdirected (raw : Bytes) (ha : s.Awaits header.destinationHash outbound)
    (hingress : interfaceId ≠ outbound) :
    s.looksUp header.destinationHash interfaceId = false ∧
        s.routeProof raw header interfaceId = (false, s) ∨
      s.routeProof raw header interfaceId =
        (false, { s with reverseTable := s.reverseTable.erase header.destinationHash }) := by
  rw [routeProof_eq]
  cases s.looksUp header.destinationHash interfaceId with
  | false => exact .inl ⟨rfl, rfl⟩
  | true =>
    right
    cases hentry : s.reverseTable.get header.destinationHash with
    | none => simp [Table.erase_of_get_eq_none hentry]
    | some entry =>
      have hother : entry.outboundInterface.any (· ≠ interfaceId) = true := by
        simp [ha.outboundInterface entry hentry, hingress.symm]
      simp only [hother, if_true]

section

variable (ha : s.Awaits key outbound)

include ha

/-- A misdirected proof is dropped, or it changes no more than misdirected proofs can, and takes
the reverse entry away if it is looked up. -/
theorem receive_misdirected (he : s.Misdirected key outbound e) :
    s.receive e = s ∧ s.Drops e ∨ ¬ s.Drops e ∧ Interferes key s (s.receive e) ∧
      (s.looksUp key e.interfaceId = true → (s.receive e).reverseTable.get key = none) := by
  obtain ⟨hingress, raw, header, dataOffset, hp⟩ := he
  obtain hdropped | ⟨hadmitted, packetHashlist, hreceive⟩ := hp.receive_cases ha.receipt ha.link
  · exact .inl hdropped
  obtain rfl := hp.destinationHash
  refine .inr ⟨hadmitted, ?_⟩
  have ha' : Awaits { s with packetHashlist } (s.arrived header e.interfaceId).destinationHash
      outbound := ⟨ha.receipt, ha.link, ha.outboundInterface⟩
  rw [hreceive]
  obtain ⟨hlookup, hroute⟩ | hroute := routeProof_misdirected raw ha' hingress
  · obtain ⟨_, _, hdeliver⟩ := routeOrDeliver_of_unrouted header.destinationHash hroute
    refine ⟨⟨_, _, _, _, hdeliver, .inl rfl⟩, fun hlooked => ?_⟩
    cases hlookup.symm.trans hlooked
  · obtain ⟨_, _, hdeliver⟩ := routeOrDeliver_of_unrouted header.destinationHash hroute
    have hgone : (s.reverseTable.erase header.destinationHash).get header.destinationHash = none := by
      simp [Table.get_erase]
    rw [hdeliver]
    exact ⟨⟨_, _, _, _, rfl, .inr hgone⟩, fun _ => hgone⟩

theorem interferes_receive (he : s.Misdirected key outbound e) :
    Interferes key s (s.receive e) := by
  rcases receive_misdirected ha he with ⟨hdropped, -⟩ | ⟨-, hinterferes, -⟩
  · rw [hdropped]
    exact .refl key s
  · exact hinterferes

variable {es : List (Inbound F)}

/-- What a run of misdirected proofs changes. -/
theorem foldl_misdirected
    (hes : ∀ e ∈ es, s.Misdirected key outbound e) : Interferes key s (es.foldl receive s) := by
  induction es generalizing s with
  | nil => exact .refl key s
  | cons e es ih =>
    have hstep := interferes_receive ha (hes e mem_cons_self)
    refine hstep.trans (ih (ha.of_interferes hstep) fun e' he' => ?_)
    exact (hes e' (mem_cons_of_mem _ he')).of_interferes hstep

omit ha in
theorem foldl_receive_of_dropped (h : ∀ e ∈ es, s.receive e = s) : es.foldl receive s = s := by
  induction es with
  | nil => rfl
  | cons e es ih =>
    rw [foldl_cons, h e mem_cons_self]
    exact ih fun e' he' => h e' (mem_cons_of_mem _ he')

end

/-! ### The genuine proof -/

/-- The genuine proof is returned exactly when it has not been seen. -/
theorem Returnable.returnsProof_iff (hr : s.Returnable key entry e raw header dataOffset) :
    s.ReturnsProof key entry e ↔ s.unseen raw header = true := by
  have hp := hr.proof
  have hdrops : s.Drops e ↔ s.unseen raw header = false :=
    hp.drops_iff.trans (or_iff_right (Bool.eq_false_iff.mp hr.filter))
  obtain ⟨hdropped, hseen⟩ | ⟨hunseen, packetHashlist, hreceive⟩ :=
    hp.receive_cases hr.receipt hr.link
  · simp [ReturnsProof, hdropped, hdrops.mp hseen]
  obtain rfl := hp.destinationHash
  refine iff_of_true ?_ (Bool.of_not_eq_false (hdrops.not.mp hunseen))
  let removed : Actor F :=
    { s with packetHashlist, reverseTable := s.reverseTable.erase header.destinationHash }
  have hroute : s.receive e = (removed.sendToInterface .forward entry.receivingInterface
      (s.returned header.destinationHash raw header e.interfaceId)).2 := by
    have hingress : entry.outboundInterface.any (· ≠ e.interfaceId) = false := by simp [hr.ingress]
    rw [hreceive, routeOrDeliver, routeProof_eq]
    rw [show Actor.looksUp { s with packetHashlist } (s.arrived header e.interfaceId).destinationHash
      e.interfaceId = true from hr.looksUp]
    rw [show s.reverseTable.get (s.arrived header e.interfaceId).destinationHash = some entry from
      hr.recorded]
    simp only [hingress, if_true, Bool.false_eq_true, if_false]
    rfl
  obtain ⟨hout, hreverse⟩ := Takes.sendToInterface (s := removed) .forward hr.egress
  rw [ReturnsProof, hroute, hreverse]
  exact ⟨⟨_, hout⟩, by simp [removed, Table.get_erase]⟩

/-- Without its entry, the genuine proof is not returned. -/
theorem Awaits.not_returnsProof (ha : s.Awaits key outbound)
    (hp : s.ProofFor key e raw header dataOffset) (hnone : s.reverseTable.get key = none) :
    ¬ s.ReturnsProof key entry e := by
  have hquiet : (s.receive e).transmissions = s.transmissions := by
    obtain ⟨hdropped, -⟩ | ⟨-, packetHashlist, hreceive⟩ := hp.receive_cases ha.receipt ha.link
    · rw [hdropped]
    obtain rfl := hp.destinationHash
    have hroute : routeProof { s with packetHashlist } raw (s.arrived header e.interfaceId)
        e.interfaceId = (false, { s with packetHashlist }) := by
      rw [routeProof_eq]
      rw [show s.reverseTable.get (s.arrived header e.interfaceId).destinationHash = none from hnone]
      exact ite_self _
    obtain ⟨_, _, hdeliver⟩ := routeOrDeliver_of_unrouted header.destinationHash hroute
    rw [hreceive, hdeliver]
  rintro ⟨⟨sent, hsent⟩, -⟩
  simp [hquiet] at hsent

/-- Where misdirected proofs are looked up and the genuine one is still returned, they are dropped. -/
theorem Awaits.drops_of_returnsProof (ha : s.Awaits key outbound)
    (hp : s.ProofFor key e raw header dataOffset) {es : List (Inbound F)}
    (hes : ∀ e' ∈ es, s.Misdirected key outbound e')
    (hlooks : ∀ e' ∈ es, s.looksUp key e'.interfaceId = true)
    (h : (es.foldl receive s).ReturnsProof key entry e) : ∀ e' ∈ es, s.Drops e' := by
  induction es with
  | nil => exact forall_mem_nil _
  | cons e' es ih =>
    rw [forall_mem_cons] at hes hlooks
    rw [foldl_cons] at h
    rcases receive_misdirected ha hes.1 with ⟨hdropped, hdrops⟩ | ⟨-, hstep, hgone⟩
    · rw [hdropped] at h
      exact forall_mem_cons.mpr ⟨hdrops, ih hes.2 hlooks.2 h⟩
    · -- The entry is gone, and no later proof brings it back.
      have ha' := ha.of_interferes hstep
      have hrest := foldl_misdirected ha' fun e'' he'' => (hes.2 e'' he'').of_interferes hstep
      refine absurd h ((ha'.of_interferes hrest).not_returnsProof
        (hp.of_interferes (hstep.trans hrest)) ?_)
      obtain ⟨_, _, _, _, hafter, hkept⟩ := hrest
      rw [hafter]
      exact hkept.elim (·.trans (hgone hlooks.1)) id

end Actor

namespace Session

/-- A data packet for the destination, for the node to send on. -/
def data : Bytes := [0x50, 0] ++ transportId.1 ++ destination.1 ++ [0] ++ [1, 2, 3, 4, 5, 6]

/-- The hash that the proof of its delivery carries. -/
def dataHash : Octets 16 := .ofNat 0xe2a1a6a02be40ec7e507d03cb6e85ae3

/-- SHA-256 on what the packets have hashed: the data packet, the two proofs, and those before. -/
@[reducible] def returnSha : Sha256 where
  digest input :=
    if input.length = 24 then
      .ofNat 0xe2a1a6a02be40ec7e507d03cb6e85ae340058b4232323835c2a992aac67aed34
    else if input.length = 82 then
      if input.getLast? = some 7 then
        .ofNat 0x1d98a1e6e95dc31ad21b71866e3621bbd95dd87b36c1de457dedf356c96cdb43
      else
        .ofNat 0x4ce7520c0a49e1f36cae930710f2da8bbc220b55f64a7b7f74ceeebba33471eb
    else sha.digest input

/-- The data packet arrives from the second interface, and goes to the first. -/
def sent : Inbound ℚ := ⟨moment 1700000002, data, 2⟩

/-- A proof of delivery with a signature. -/
def deliveryProof (signature : Octets 64) : Bytes := [0x03, 0] ++ dataHash.1 ++ [0] ++ signature.1

/-- The header of a proof of delivery. -/
def deliveryProofHeader : PacketHeader := ⟨.unpack 0x03, 0, none, dataHash, .none⟩

/-- The genuine proof comes back from the first interface. -/
def delivered : Inbound ℚ := ⟨moment 1700000004, deliveryProof proofSignature, 1⟩

/-- Another one comes from the second. -/
def misdelivered : Inbound ℚ := ⟨moment 1700000003, deliveryProof announceSignature, 2⟩

/-- What the node remembers of the data packet. -/
def reverseEntry : ReverseEntry ℚ where
  timestamp := 1700000002
  receivingInterface := 2
  remainingHops := 1
  outboundInterface := some 1

end Session

end Reticulum.Transport
