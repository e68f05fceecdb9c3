import Reticulum.Transport.TransitLinks

/-!
# Link requests along a chain of relays

Every relay of a link request attenuates the MTU that it offers to the ceilings of the two
interfaces that the request crosses, and stores the MTU that is left. At the end of a chain of
relays the least of all ceilings and of the first offer is left, and key block, mode and link id
are those of the first request.
-/

namespace Reticulum.Transport

open Wire PacketHeader Option

variable {F : Type} {k : Content}

namespace Actor

section

variable [Sha256] [Ed25519] [Hkdf] [DecidableEq F] [Binary64 F] {s : Actor F}

/-- The link ceiling of an interface of the node, if it has one. -/
def linkCeiling (s : Actor F) (id : ℕ) : Option ℕ :=
  (s.interfaces.get id).bind fun entry => (entry.linkCeiling id).toOption

/-- A node sends the link request in a packet on, and opens an entry for its link. -/
def RelaysRequest (s : Actor F) (e : Inbound F) (raw sent : Bytes) (entry : LinkEntry F) : Prop :=
  s.clearPacket .wire e.interfaceId e.raw = some raw ∧
  (∃ header dataOffset, unpack raw = .ok (header, dataOffset) ∧
    header.flags.packetType = .linkRequest) ∧
  (∃ linkId, s.linkTable.get linkId = none ∧ (s.receive e).linkTable.get linkId = some entry) ∧
  ⟨.forward, entry.interfaceId, sent⟩ ∈ (s.receive e).transmissions.drop s.transmissions.length

omit [Ed25519] [Hkdf] [DecidableEq F] in
/-- The plan for a link request attenuates it and stores the MTU that is left. -/
theorem planLinkRequest_attenuates {m : Moment F} {raw : Bytes} {header : PacketHeader}
    {offset interfaceId : ℕ} {plan : LinkPlan F} (hk : Carries k raw)
    (hu : unpack raw = .ok (header, offset))
    (h : s.planLinkRequest m raw (s.arrived header interfaceId) interfaceId = some plan) :
    plan.entry.interfaceId = plan.target ∧
    ∃ incoming outgoing payload, s.linkCeiling interfaceId = some incoming ∧
      s.linkCeiling plan.target = some outgoing ∧
      Attenuates (incoming, outgoing) k.payload payload ∧
      Carries { k with payload } plan.forwarded ∧
      ∃ signal, parseRequestSignalling payload = .ok signal ∧
        plan.entry.acceptedMtuCeiling = signal.mtu.get := by
  simp only [planLinkRequest, bind_eq_bind, bind_eq_some_iff] at h
  obtain ⟨⟨target, forwarded⟩, hcandidate, path, -, linkId, -, h⟩ := h
  split_ifs at h
  simp only [bind_eq_some_iff] at h
  obtain ⟨ingress, hingress, egress, hegress, ⟨payload, mode, ceiling⟩, hattenuate,
    ⟨forwardedHeader, offset'⟩, hu', h⟩ := h
  obtain rfl := some.inj h
  have hk' := carries_forwardCandidate _ hk hu hcandidate
  have hdrop : raw.drop (s.arrived header interfaceId).size = k.payload := (hk.payload_eq hu).2
  rw [hdrop] at hattenuate
  obtain ⟨incoming, outgoing, hincoming, houtgoing, hattenuates, signal, hsignal, -, hceiling⟩ :=
    attenuateRequest_attenuates (toOption_eq_some.mp hattenuate)
  obtain ⟨signal₀, signal', hsignal₀, hsignal', hmtu, -⟩ := hattenuates.parses
  obtain rfl := Except.ok.inj (hsignal.symm.trans hsignal₀)
  refine ⟨rfl, incoming, outgoing, payload, ?_, ?_, hattenuates,
    carries_take_append hk' (toOption_eq_some.mp hu') payload, signal', hsignal',
    hceiling.trans hmtu.symm⟩
  · exact bind_eq_some_iff.mpr ⟨ingress, hingress, toOption_eq_some.mpr hincoming⟩
  · exact bind_eq_some_iff.mpr ⟨egress, hegress, toOption_eq_some.mpr houtgoing⟩

/-- A relay of a link request attenuates it and stores the MTU that is left. -/
theorem RelaysRequest.attenuates {e : Inbound F} {raw sent : Bytes} {entry : LinkEntry F}
    (hk : Carries k raw) (h : s.RelaysRequest e raw sent entry) :
    ∃ incoming outgoing payload, s.linkCeiling e.interfaceId = some incoming ∧
      s.linkCeiling entry.interfaceId = some outgoing ∧
      Attenuates (incoming, outgoing) k.payload payload ∧ Carries { k with payload } sent ∧
      ∃ signal, parseRequestSignalling payload = .ok signal ∧
        entry.acceptedMtuCeiling = signal.mtu.get := by
  obtain ⟨hclear, ⟨header, dataOffset, hu, htype⟩, ⟨linkId, hnone, hentry⟩, hsent⟩ := h
  obtain hdrop | ⟨packetHashlist, -, hdispatch⟩ := receive_cases_of hclear hu
  · rw [hdrop, hnone] at hentry
    cases hentry
  have htype' : (s.arrived header e.interfaceId).flags.packetType = .linkRequest := htype
  have hgains : Gains (s.requestGain e.moment raw (s.arrived header e.interfaceId) e.interfaceId)
      { s with packetHashlist } (s.receive e) := by
    simp only [hdispatch, dispatch, htype']
    exact Brings.gains <| processLinkRequest_brings (s := { s with packetHashlist })
  obtain ⟨plan, hplan, -, rfl⟩ : ∃ plan, s.planLinkRequest e.moment raw
      (s.arrived header e.interfaceId) e.interfaceId = some plan ∧ linkId = plan.linkId ∧
        entry = plan.entry := by
    rcases hgains.links _ _ hentry with hold | hnew
    · cases hnone.symm.trans hold
    · exact hnew
  obtain ⟨l, hl, hall⟩ := hgains.sent
  rw [hl, List.drop_left] at hsent
  obtain ⟨-, plan', hplan', rfl⟩ := (hall _ hsent).resolve_left id
  obtain rfl := some.inj (hplan.symm.trans hplan')
  obtain ⟨htarget, hattenuates⟩ := planLinkRequest_attenuates hk hu hplan
  rw [htarget]
  exact hattenuates

end

end Actor

/-- A relay of a chain: the node, what it received and the entry that it opened. -/
structure RequestHop (F : Type) where
  actor : Actor F
  event : Inbound F
  entry : LinkEntry F

section

variable [Sha256] [Ed25519] [Hkdf] [DecidableEq F] [Binary64 F]

/-- The ceilings of the interfaces that a request crosses at a relay. -/
def RequestHop.Ceilings (hop : RequestHop F) (ceilings : ℕ × ℕ) : Prop :=
  hop.actor.linkCeiling hop.event.interfaceId = some ceilings.1 ∧
    hop.actor.linkCeiling hop.entry.interfaceId = some ceilings.2

omit [Sha256] [Ed25519] [Hkdf] [DecidableEq F] [Binary64 F] in
theorem foldl_min_le (ceilings : List (ℕ × ℕ)) (mtu : ℕ) :
    ceilings.foldl (fun mtu c => min (min mtu c.1) c.2) mtu ≤ mtu := by
  induction ceilings generalizing mtu with
  | nil => exact le_rfl
  | cons c ceilings ih =>
    exact (ih _).trans ((Nat.min_le_left _ _).trans (Nat.min_le_left _ _))

/-- A link request goes through a chain of relays. -/
inductive RequestChain : Bytes → List (RequestHop F) → Bytes → Prop
  | nil (raw : Bytes) : RequestChain raw [] raw
  | cons {raw sent final : Bytes} {hop : RequestHop F} {hops : List (RequestHop F)}
      (hop_relays : hop.actor.RelaysRequest hop.event raw sent hop.entry)
      (chain : RequestChain sent hops final) : RequestChain raw (hop :: hops) final

/-- What a chain of relays leaves of the content of a link request. -/
theorem RequestChain.attenuates {raw final : Bytes} {hops : List (RequestHop F)}
    (hchain : RequestChain raw hops final) (hk : Carries k raw) {signal : LinkSignalling}
    (hsignal : parseRequestSignalling k.payload = .ok signal) :
    ∃ payload signal' ceilings, Carries { k with payload } final ∧
      parseRequestSignalling payload = .ok signal' ∧
      List.Forall₂ RequestHop.Ceilings hops ceilings ∧
      signal'.mtu.get = ceilings.foldl (fun mtu c => min (min mtu c.1) c.2) signal.mtu.get ∧
      payload.take 64 = k.payload.take 64 ∧ signal'.mode = signal.mode ∧
      (signal.mode ≠ defaultLinkMode → payload = k.payload) ∧
      ∀ hop ∈ hops, signal'.mtu.get ≤ hop.entry.acceptedMtuCeiling := by
  induction hchain generalizing k signal with
  | nil raw => exact ⟨k.payload, signal, [], hk, hsignal, .nil, rfl, rfl, rfl, fun _ => rfl, by simp⟩
  | @cons raw sent final hop hops hrelays hchain ih =>
    obtain ⟨incoming, outgoing, payload, hincoming, houtgoing, hattenuates, hk', signal₁, hsignal₁,
      hceiling⟩ := hrelays.attenuates hk
    obtain ⟨signal₀, signal₁', hsignal₀, hsignal₁', hmtu, hmode, hverbatim⟩ := hattenuates.parses
    obtain rfl := Except.ok.inj (hsignal.symm.trans hsignal₀)
    obtain rfl := Except.ok.inj (hsignal₁.symm.trans hsignal₁')
    obtain ⟨payload', signal', ceilings, hfinal, hsignal', hceilings, hmtu', hblock, hmode', hverbatim',
      hstored⟩ := ih hk' hsignal₁
    refine ⟨payload', signal', (incoming, outgoing) :: ceilings, hfinal, hsignal',
      .cons ⟨hincoming, houtgoing⟩ hceilings, ?_, hblock.trans hattenuates.keyBlock,
      hmode'.trans hmode, fun h => ?_, fun hop' hmem => ?_⟩
    · rw [List.foldl_cons, ← hmtu, hmtu']
    · exact (hverbatim' (hmode ▸ h)).trans (hverbatim h)
    · rcases List.mem_cons.mp hmem with rfl | hmem
      · rw [hceiling, hmtu']
        exact foldl_min_le ceilings _
      · exact hstored hop' hmem

/-- **MTU attenuation.** At the end of every chain of relays that accept a link request, the key block
and the link id are those of the first request. The MTU is the least of the first offer and all link
ceilings of the chain, and no relay has stored a lower one. A request with another mode than the
default has not changed. -/
theorem mtu_attenuation {raw final : Bytes} {hops : List (RequestHop F)} {header : PacketHeader}
    {offset : ℕ} {signal : LinkSignalling} (hu : unpack raw = .ok (header, offset))
    (hsignal : parseRequestSignalling (raw.drop offset) = .ok signal)
    (hchain : RequestChain raw hops final) :
    ∃ header' offset' signal' ceilings, unpack final = .ok (header', offset') ∧
      parseRequestSignalling (final.drop offset') = .ok signal' ∧
      List.Forall₂ RequestHop.Ceilings hops ceilings ∧
      signal'.mtu.get = ceilings.foldl (fun mtu c => min (min mtu c.1) c.2) signal.mtu.get ∧
      (final.drop offset').take 64 = (raw.drop offset).take 64 ∧
      linkIdFromRaw final header'.flags.headerType = linkIdFromRaw raw header.flags.headerType ∧
      signal'.mode = signal.mode ∧
      (signal.mode ≠ defaultLinkMode → final.drop offset' = raw.drop offset) ∧
      ∀ hop ∈ hops, signal'.mtu.get ≤ hop.entry.acceptedMtuCeiling := by
  obtain ⟨k, hk, -, -, hpayload, -⟩ := Carries.of_unpack hu
  rw [← hpayload] at hsignal ⊢
  obtain ⟨payload, signal', ceilings, hk', hsignal', hceilings, hmtu, hblock, hmode, hverbatim,
    hstored⟩ := hchain.attenuates hk hsignal
  obtain ⟨header', offset', hu', -, hdrop⟩ := hk'.unpack
  replace hdrop : final.drop offset' = payload := hdrop
  rw [← hdrop] at hsignal' hblock hverbatim
  refine ⟨header', offset', signal', ceilings, hu', hsignal', hceilings, hmtu, hblock, ?_, hmode,
    hverbatim, hstored⟩
  rw [hk'.linkIdFromRaw_eq hu', hk.linkIdFromRaw_eq hu, Content.linkHashable, Content.linkHashable,
    ← hdrop, hblock]

end

namespace Session

/-- A second relay, between the node and the destination. -/
def secondId : Octets 16 := Octets.replicate 16 0x77

/-- The announce of the destination as the second relay sends it on. -/
def relayedAnnounce : Bytes := [0x51, 1] ++ secondId.1 ++ announce.drop 2

/-- A relay with interfaces of some capacity on both sides. -/
def relay (transportId : Octets 16) (egress ingress : ℕ) : Actor ℚ :=
  { node with
    transportIdentityHash := some transportId
    interfaces := (Table.insert ∅ 1
      { interface 1 8 with packetCapacity := ⟨egress, egress, true⟩ }).insert 2
      { interface 2 8 with packetCapacity := ⟨ingress, ingress, true⟩ } }

/-- The request of the session, with an offer or what the relays leave of it. -/
def offer (header : Bytes) (mtu : ℕ) : Bytes :=
  header ++ destination.1 ++ [0] ++ initiatorKeys.1 ++ SignallingData.pack ⟨1, mtu⟩

/-- The first, second and third of these requests. -/
def firstOffer : Bytes := offer ([0x52, 0] ++ transportId.1) 8192

def secondOffer : Bytes := offer ([0x52, 1] ++ secondId.1) 2000

def thirdOffer : Bytes := offer [0x02, 2] 1500

def offered (raw : Bytes) : Inbound ℚ := ⟨moment 1700000002, raw, 2⟩

end Session

section

variable [Sha256] [Ed25519] [Hkdf] [DecidableEq F] [Binary64 F]

private theorem exists_relaysRequest {s : Actor F} {e : Inbound F} {raw sent : Bytes}
    (linkId : Octets 16) (target : ℕ) (hclear : s.clearPacket .wire e.interfaceId e.raw = some raw)
    (htype : (unpack raw).toOption.map (·.1.flags.packetType) = some .linkRequest)
    (hnone : (s.linkTable.get linkId).isNone)
    (hentry : ((s.receive e).linkTable.get linkId).map (·.interfaceId) = some target)
    (hsent : ⟨.forward, target, sent⟩ ∈
      (s.receive e).transmissions.drop s.transmissions.length) :
    ∃ entry, s.RelaysRequest e raw sent entry := by
  obtain ⟨⟨header, dataOffset⟩, hu, htype⟩ := map_eq_some_iff.mp htype
  obtain ⟨entry, hget, rfl⟩ := map_eq_some_iff.mp hentry
  exact ⟨entry, hclear, ⟨header, dataOffset, toOption_eq_some.mp hu, htype⟩,
    ⟨linkId, isNone_iff_eq_none.mp hnone, hget⟩, hsent⟩

end

open Transport.Session in
/-- An offer of 8192 bytes goes through two relays, whose interfaces take 5000 and 2000, and 1500 and
3000 bytes. -/
theorem mtu_attenuation_two_relays :
    let first := (relay transportId 2000 5000).receive ⟨moment 1700000001, relayedAnnounce, 1⟩
    let second := (relay secondId 3000 1500).receive announced
    ∃ entry entry', RequestChain firstOffer
      [⟨first, offered firstOffer, entry⟩, ⟨second, offered secondOffer, entry'⟩] thirdOffer ∧
      1500 ≤ entry.acceptedMtuCeiling ∧ 1500 ≤ entry'.acceptedMtuCeiling := by
  intro first second
  obtain ⟨entry, hrelays⟩ : ∃ entry,
      first.RelaysRequest (offered firstOffer) firstOffer secondOffer entry :=
    exists_relaysRequest linkId 1 (by decide +kernel) (by decide +kernel) (by decide +kernel)
      (by decide +kernel) (by decide +kernel)
  obtain ⟨entry', hrelays'⟩ : ∃ entry',
      second.RelaysRequest (offered secondOffer) secondOffer thirdOffer entry' :=
    exists_relaysRequest linkId 1 (by decide +kernel) (by decide +kernel) (by decide +kernel)
      (by decide +kernel) (by decide +kernel)
  clear_value first second
  have hchain : RequestChain firstOffer
      [⟨first, offered firstOffer, entry⟩, ⟨second, offered secondOffer, entry'⟩] thirdOffer :=
    .cons hrelays (.cons hrelays' (.nil thirdOffer))
  have hoffered : unpack firstOffer =
      .ok (⟨.unpack 0x52, 0, some transportId, destination, .none⟩, 35) := by decide +kernel
  have hleft : unpack thirdOffer =
      .ok (⟨.unpack 0x02, 2, none, destination, .none⟩, 19) := by decide +kernel
  have hsignal : parseRequestSignalling (firstOffer.drop 35) =
      .ok ⟨1, ⟨8192, by decide, by decide⟩, true⟩ := by decide +kernel
  have hmtu : parseRequestSignalling (thirdOffer.drop 19) =
      .ok ⟨1, ⟨1500, by decide, by decide⟩, true⟩ := by decide +kernel
  obtain ⟨header', offset', signal', -, hu', hsignal', -, -, -, -, -, -, hstored⟩ :=
    mtu_attenuation hoffered hsignal hchain
  obtain ⟨-, rfl⟩ := Prod.mk.inj (Except.ok.inj (hleft.symm.trans hu'))
  obtain rfl := Except.ok.inj (hmtu.symm.trans hsignal')
  exact ⟨entry, entry', hchain, hstored _ List.mem_cons_self,
    hstored _ (List.mem_cons_of_mem _ List.mem_cons_self)⟩

end Reticulum.Transport
