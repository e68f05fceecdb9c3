import Reticulum.Transport.Effects

/-!
# Links that cross a node

An entry of the link table is made by a link request that the node sends on. As long as it stays,
packets of others can only tighten it: a valid link proof validates it once and may lower its MTU,
all else but the time of its last use is fixed. A request that the next interface refuses leaves no
trace; a refused link proof does, its hash stays listed.

## Main definitions

* `Inbound`, `Actor.receive` — a received packet as an event.
* `LinkEntry.Tightens` — what may change in an entry.
* `Heard` — the key of a destination is that of a validated announce among some packets.
* `Actor.ValidatedBy` — a link proof accounts for the validation of an entry.
* `Actor.Retryable` — an attempt leaves no trace.

## Main results

* `Actor.transit_links_tighten` — entries of the link table only tighten, over every run.
* `Actor.refused_relay_retryable_iff` — a refused relay can be tried again just if it is a request.
-/

namespace Reticulum.Transport

open Wire PacketHeader Octets Option

variable {F : Type}

/-- A packet that an interface receives. -/
structure Inbound (F : Type) where
  moment : Moment F
  raw : Bytes
  interfaceId : ℕ

/-- What may change in the entry of a link: the time of its last use, once its validation, and with
that its MTU ceiling, which does not rise. -/
structure LinkEntry.Tightens (entry entry' : LinkEntry F) : Prop where
  nextHop : entry'.nextHop = entry.nextHop := by rfl
  destinationHash : entry'.destinationHash = entry.destinationHash := by rfl
  interfaceId : entry'.interfaceId = entry.interfaceId := by rfl
  receivingInterface : entry'.receivingInterface = entry.receivingInterface := by rfl
  interfaceOwner : entry'.interfaceOwner = entry.interfaceOwner := by rfl
  receivingOwner : entry'.receivingOwner = entry.receivingOwner := by rfl
  remainingHops : entry'.remainingHops = entry.remainingHops := by rfl
  takenHops : entry'.takenHops = entry.takenHops := by rfl
  requestedMode : entry'.requestedMode = entry.requestedMode := by rfl
  proofTimeout : entry'.proofTimeout = entry.proofTimeout := by rfl
  acceptedMtuCeiling : entry'.acceptedMtuCeiling ≤ entry.acceptedMtuCeiling := by rfl
  validated : entry.validated = true → entry'.validated = true ∧
    entry'.acceptedMtuCeiling = entry.acceptedMtuCeiling := by exact fun h => ⟨h, rfl⟩

namespace LinkEntry.Tightens

variable {entry entry' entry'' : LinkEntry F}

theorem refl (entry : LinkEntry F) : entry.Tightens entry where

theorem trans (h : entry.Tightens entry') (h' : entry'.Tightens entry'') :
    entry.Tightens entry'' where
  nextHop := h'.nextHop.trans h.nextHop
  destinationHash := h'.destinationHash.trans h.destinationHash
  interfaceId := h'.interfaceId.trans h.interfaceId
  receivingInterface := h'.receivingInterface.trans h.receivingInterface
  interfaceOwner := h'.interfaceOwner.trans h.interfaceOwner
  receivingOwner := h'.receivingOwner.trans h.receivingOwner
  remainingHops := h'.remainingHops.trans h.remainingHops
  takenHops := h'.takenHops.trans h.takenHops
  requestedMode := h'.requestedMode.trans h.requestedMode
  proofTimeout := h'.proofTimeout.trans h.proofTimeout
  acceptedMtuCeiling := h'.acceptedMtuCeiling.trans h.acceptedMtuCeiling
  validated hv := by
    obtain ⟨hv', hceiling⟩ := h.validated hv
    obtain ⟨hv'', hceiling'⟩ := h'.validated hv'
    exact ⟨hv'', hceiling'.trans hceiling⟩

end LinkEntry.Tightens

variable {destHash : Octets 16}

section

variable [Sha256] [Ed25519]

/-- A key of a destination comes from a validated announce among some packets. -/
def Heard (packets : List Bytes) (destHash : Octets 16) (key : Octets 64) : Prop :=
  ∃ raw ∈ packets, ∃ header dataOffset announce identity,
    unpack raw = .ok (header, dataOffset) ∧ header.flags.packetType = .announce ∧
    header.destinationHash = destHash ∧
    AnnounceData.unpack (raw.drop dataOffset) header.flags.contextFlag = .ok announce ∧
    announce.validate destHash = .ok identity ∧ identity.getPublicKey = key

theorem Heard.mono {packets packets' : List Bytes} {key : Octets 64}
    (h : Heard packets destHash key) (hsub : packets ⊆ packets') : Heard packets' destHash key := by
  obtain ⟨raw, hraw, h⟩ := h
  exact ⟨raw, hsub hraw, h⟩

end

variable {header : PacketHeader} {e : Inbound F} {raw : Bytes} {m : Moment F}

namespace Actor

section

variable {s : Actor F}

@[simp] theorem deliver_linkTable {event : DestinationEvent} :
    (s.deliver destHash event).2.linkTable = s.linkTable := by
  unfold deliver
  split
  · rfl
  · split <;> rfl

/-! ### What a valid link proof shows -/

variable [Ed25519] {entry : LinkEntry F}

theorem of_validateTransitLrproof (h : s.validateTransitLrproof raw header entry = .valid) :
    proofMtu raw header ≤ entry.acceptedMtuCeiling ∧
      (entry.validated = true → proofMtu raw header = entry.acceptedMtuCeiling) ∧
      ∃ key, s.knownKey entry.destinationHash = some key ∧
        Ed25519.verify (read 32 (key.1.drop 32))
          (lrproofSignedData header.destinationHash (raw.drop header.size)
            (read 32 (key.1.drop 32))) (read 64 (raw.drop header.size)) = true := by
  unfold validateTransitLrproof at h
  dsimp only at h
  split at h
  · cases h
  split at h
  · cases h
  next signal hsignal =>
    have hmtu : proofMtu raw header = signal.mtu.get := by simp [proofMtu, hsignal, Except.toOption]
    split at h
    · cases h
    next haccepted =>
      push Not at haccepted
      obtain ⟨-, hceiling, hvalidated, -⟩ := haccepted
      split at h
      · cases h
      next key hkey =>
        split at h
        · cases h
        split at h
        next hverify => exact ⟨hmtu ▸ hceiling, fun hv => hmtu ▸ hvalidated hv, key, hkey, hverify⟩
        · cases h

variable {linkId : Octets 16} {entry entry' : LinkEntry F} {interfaceId : ℕ}

/-- A validation tightens an entry. -/
theorem Validated.tightens (hentry : s.linkTable.get linkId = some entry)
    (h : s.Validated raw header interfaceId linkId entry') : entry.Tightens entry' := by
  obtain ⟨-, -, before, hbefore, -, -, hvalid, rfl⟩ := h
  obtain rfl := some.inj (hentry.symm.trans hbefore)
  obtain ⟨hceiling, hvalidated, -⟩ := of_validateTransitLrproof hvalid
  exact { acceptedMtuCeiling := hceiling, validated := fun hv => ⟨rfl, hvalidated hv⟩ }

/-! ### Received packets -/

variable [Sha256] [Hkdf] [DecidableEq F] [Binary64 F]

/-- The state after a received packet. -/
def receive (s : Actor F) (e : Inbound F) : Actor F := s.onInbound e.moment e.raw e.interfaceId

/-- The packets of a run, without their access codes. -/
def received : Actor F → List (Inbound F) → List Bytes
  | _, [] => []
  | s, e :: es => (s.clearPacket .wire e.interfaceId e.raw).toList ++ (s.receive e).received es

/-- A link stays in the table over a run. -/
def StaysLinked (linkId : Octets 16) : Actor F → List (Inbound F) → Prop
  | s, [] => s.linkTable.contains linkId
  | s, e :: es => s.linkTable.contains linkId ∧ (s.receive e).StaysLinked linkId es

/-- A packet is a link proof that came over the outbound interface of a link with the recorded
hops, signed by the destination over link id, responder key and signalling. -/
def ValidatedBy (s : Actor F) (packets : List Bytes) (e : Inbound F) (linkId : Octets 16)
    (entry : LinkEntry F) : Prop :=
  e.interfaceId = entry.interfaceId ∧ ∃ raw header dataOffset,
    s.clearPacket .wire e.interfaceId e.raw = some raw ∧
    unpack raw = .ok (header, dataOffset) ∧ header.flags.packetType = .proof ∧
    header.context = .lrproof ∧ header.destinationHash = linkId ∧
    s.adjustedInboundHops header.hops e.interfaceId = entry.remainingHops ∧
    ∃ key, Heard packets entry.destinationHash key ∧
      Ed25519.verify (read 32 (key.1.drop 32))
        (lrproofSignedData linkId (raw.drop header.size) (read 32 (key.1.drop 32)))
        (read 64 (raw.drop header.size)) = true

/-- A packet is a request for a link. -/
def RequestsLink (s : Actor F) (e : Inbound F) (linkId : Octets 16) : Prop :=
  ∃ raw header dataOffset, s.clearPacket .wire e.interfaceId e.raw = some raw ∧
    unpack raw = .ok (header, dataOffset) ∧
    header.flags.packetType = .linkRequest ∧
    linkIdFromRaw raw header.flags.headerType = some linkId

/-! ### One packet -/

omit [Ed25519] [Hkdf] [DecidableEq F] in
/-- A link request that is sent on opens a link that is not in the table. -/
theorem of_planLinkRequest {plan : LinkPlan F}
    (h : s.planLinkRequest m raw header interfaceId = some plan) :
    s.linkTable.get plan.linkId = none ∧
      linkIdFromRaw raw header.flags.headerType = some plan.linkId := by
  simp only [planLinkRequest, bind_eq_bind, bind_eq_some_iff] at h
  obtain ⟨_, -, _, -, linkId, hlinkId, h⟩ := h
  split_ifs at h with hcontains
  simp only [bind_eq_some_iff] at h
  obtain ⟨_, -, _, -, _, -, _, -, h⟩ := h
  obtain rfl := some.inj h
  exact ⟨not_isSome_iff_eq_none.mp hcontains, hlinkId⟩

/-- A received packet is dropped, or it is dispatched without its access code. -/
theorem receive_cases (s : Actor F) (e : Inbound F) :
    s.receive e = s ∨ ∃ raw header dataOffset packetHashlist,
      s.clearPacket .wire e.interfaceId e.raw = some raw ∧
      unpack raw = .ok (header, dataOffset) ∧
      s.filtersPacket header (raw.drop dataOffset) e.interfaceId = false ∧
      s.admitHash raw header = some { s with packetHashlist } ∧
      s.receive e = Actor.dispatch { s with packetHashlist } e.moment raw
        (s.arrived header e.interfaceId) dataOffset e.interfaceId := by
  unfold receive onInbound onInboundInner
  split
  · exact .inl rfl
  next raw hclear =>
    obtain h | ⟨header, dataOffset, packetHashlist, h⟩ := onClear_cases s e.moment raw e.interfaceId
    · exact .inl h
    · exact .inr ⟨raw, header, dataOffset, packetHashlist, hclear, h⟩

/-- A received packet that can be read is dropped, or it is dispatched. -/
theorem receive_cases_of {dataOffset : ℕ}
    (hclear : s.clearPacket .wire e.interfaceId e.raw = some raw)
    (hunpack : unpack raw = .ok (header, dataOffset)) :
    s.receive e = s ∨ ∃ packetHashlist, s.admitHash raw header = some { s with packetHashlist } ∧
      s.receive e = Actor.dispatch { s with packetHashlist } e.moment raw
        (s.arrived header e.interfaceId) dataOffset e.interfaceId := by
  obtain hdrop | ⟨_, _, _, packetHashlist, hclear', hunpack', -, hadmitted, hdispatch⟩ :=
    receive_cases s e
  · exact .inl hdrop
  obtain rfl := some.inj (hclear.symm.trans hclear')
  obtain ⟨rfl, rfl⟩ := Prod.mk.inj (Except.ok.inj (hunpack.symm.trans hunpack'))
  exact .inr ⟨packetHashlist, hadmitted, hdispatch⟩

/-- Where the check for duplicates is deferred, a packet that passes the filter is dispatched. -/
theorem receive_deferred {dataOffset : ℕ}
    (hclear : s.clearPacket .wire e.interfaceId e.raw = some raw)
    (hunpack : unpack raw = .ok (header, dataOffset)) (hdefers : s.defersHashlist header = true) :
    s.receive e = if s.filtersPacket header (raw.drop dataOffset) e.interfaceId then s else
      s.dispatch e.moment raw (s.arrived header e.interfaceId) dataOffset e.interfaceId := by
  simp [receive, onInbound, onInboundInner, hclear, onClear, hunpack, admitHash, hdefers, arrived]

/-- The entries of links after a packet: old ones, used ones, validated ones and new ones. -/
theorem receive_links (h : (s.receive e).linkTable.get linkId = some entry) :
    s.linkTable.get linkId = some entry ∨ s.Used e.moment linkId entry ∨
      s.linkTable.get linkId = none ∨
      ∃ raw header dataOffset, s.clearPacket .wire e.interfaceId e.raw = some raw ∧
        unpack raw = .ok (header, dataOffset) ∧ header.flags.packetType = .proof ∧
        s.Validated raw (s.arrived header e.interfaceId) e.interfaceId linkId entry := by
  obtain hdrop | ⟨raw, header, dataOffset, packetHashlist, hclear, hunpack, -, -, hdispatch⟩ :=
    receive_cases s e
  · exact .inl (hdrop ▸ h)
  rw [hdispatch] at h
  unfold dispatch at h
  split at h
  · exact (processAnnounce_brings.gains.links _ _ h).imp_right fun h => h.elim
  · refine (processLinkRequest_brings.gains.links _ _ h).imp_right fun ⟨plan, hplan, hid, _⟩ => ?_
    exact .inr (.inl (hid ▸ (of_planLinkRequest hplan).1))
  next hproof =>
    refine (processProof_brings.gains.links _ _ h).imp_right (Or.imp_right fun hvalidated => ?_)
    exact .inr ⟨raw, header, dataOffset, hclear, hunpack, hproof, hvalidated⟩
  · obtain ⟨shared, hshared, hgains⟩ := processData_shares { s with packetHashlist } e.moment raw
      (s.arrived header e.interfaceId) e.interfaceId
    rcases hgains.links _ _ h with hold | ⟨before, hold, hused⟩
    · exact .inl (hshared.links hold)
    · exact .inr (.inl ⟨before, hshared.links hold, hused⟩)

omit [Hkdf] [DecidableEq F] in
/-- An announce that the node accepts is parsed from its payload and signed. -/
theorem of_verifiedAnnounce {dataOffset : ℕ} {announce : AnnounceData} {identity : Identity}
    (h : s.verifiedAnnounce m raw header dataOffset = some (announce, identity)) :
    AnnounceData.unpack (raw.drop dataOffset) header.flags.contextFlag = .ok announce ∧
      announce.verifySignature header.destinationHash = .ok identity := by
  unfold verifiedAnnounce at h
  split at h
  · cases h
  obtain ⟨parsed, hparsed, h⟩ := bind_eq_some_iff.mp h
  obtain ⟨signer, hsigner, hpair⟩ := map_eq_some_iff.mp h
  obtain ⟨rfl, rfl⟩ := Prod.mk.inj hpair
  exact ⟨toOption_eq_some.mp hparsed, toOption_eq_some.mp (filter_eq_some_iff.mp hsigner).1⟩

/-- The keys known after a packet are those known before and that of a validated announce. -/
theorem receive_keys {key : Octets 64} (h : (s.receive e).knownKey destHash = some key) :
    s.knownKey destHash = some key ∨
      Heard (s.clearPacket .wire e.interfaceId e.raw).toList destHash key := by
  obtain hdrop | ⟨raw, header, dataOffset, packetHashlist, hclear, hunpack, -, -, hdispatch⟩ :=
    receive_cases s e
  · exact .inl (hdrop ▸ h)
  rw [hdispatch] at h
  unfold dispatch at h
  split at h
  next htype =>
    refine (processAnnounce_brings.gains.keys _ _ h).imp_right fun ⟨hdest, announce, identity, hverified,
      hbinding, hkey⟩ => ?_
    refine ⟨raw, by simp [hclear], header, dataOffset, announce, identity, hunpack, htype,
      hdest.symm, ?_⟩
    obtain ⟨hparsed, hsigned⟩ := of_verifiedAnnounce hverified
    exact ⟨hparsed, AnnounceData.validate_of_binding (hdest ▸ hsigned) hbinding, hkey.symm⟩
  · exact (processLinkRequest_brings.gains.keys _ _ h).imp_right fun h => h.elim
  · exact (processProof_brings.gains.keys _ _ h).imp_right fun h => h.elim
  · obtain ⟨shared, hshared, hgains⟩ := processData_shares { s with packetHashlist } e.moment raw
      (s.arrived header e.interfaceId) e.interfaceId
    refine (hgains.keys _ _ h).imp (fun hold => ?_) fun h => h.elim
    rwa [knownKey, hshared.recentAnnounces] at hold

/-- A request for a link in the table does nothing to the table. -/
theorem receive_request (hrequest : s.RequestsLink e linkId)
    (hcontains : s.linkTable.contains linkId) : (s.receive e).linkTable = s.linkTable := by
  obtain ⟨raw, header, dataOffset, hclear, hunpack, htype, hlinkId⟩ := hrequest
  obtain hdrop | ⟨packetHashlist, -, hdispatch⟩ := receive_cases_of hclear hunpack
  · rw [hdrop]
  have htype' : (s.arrived header e.interfaceId).flags.packetType = .linkRequest := htype
  simp only [hdispatch, dispatch, htype', processLinkRequest]
  split
  · exact deliver_linkTable
  split
  · rfl
  next plan hplan =>
    -- no plan is made for a link in the table
    obtain ⟨hfresh, hid⟩ := of_planLinkRequest hplan
    obtain rfl := some.inj (hlinkId.symm.trans hid)
    exact absurd hcontains (not_isSome_iff_eq_none.mpr hfresh)

/-- One packet tightens an entry that stays. -/
theorem receive_tightens (hentry : s.linkTable.get linkId = some entry)
    (hentry' : (s.receive e).linkTable.get linkId = some entry') : entry.Tightens entry' := by
  rcases receive_links hentry' with hold | ⟨before, hbefore, rfl⟩ | hnew | ⟨_, _, _, _, _, _, hvalid⟩
  · exact some.inj (hentry.symm.trans hold) ▸ .refl entry
  · exact some.inj (hentry.symm.trans hbefore) ▸ {}
  · cases hentry.symm.trans hnew
  · exact hvalid.tightens hentry

/-- One packet validates an entry only as a link proof of its destination. -/
theorem receive_validates {packets : List Bytes}
    (hkeys : ∀ destHash key, s.knownKey destHash = some key → Heard packets destHash key)
    (hentry : s.linkTable.get linkId = some entry) (hpending : entry.validated = false)
    (hentry' : (s.receive e).linkTable.get linkId = some entry')
    (hvalidated : entry'.validated = true) : s.ValidatedBy packets e linkId entry := by
  rcases receive_links hentry' with hold | ⟨before, hbefore, rfl⟩ | hnew |
    ⟨raw, header, dataOffset, hclear, hunpack, hproof, hcontext, rfl, before, hbefore, hhops,
      hinterface, hvalid, rfl⟩
  · obtain rfl := some.inj (hentry.symm.trans hold)
    exact absurd hvalidated (Bool.eq_false_iff.mp hpending)
  · obtain rfl := some.inj (hentry.symm.trans hbefore)
    exact absurd hvalidated (Bool.eq_false_iff.mp hpending)
  · cases hentry.symm.trans hnew
  · obtain rfl := some.inj (hentry.symm.trans hbefore)
    obtain ⟨-, -, key, hkey, hverify⟩ := of_validateTransitLrproof hvalid
    exact ⟨hinterface, raw, header, dataOffset, hclear, hunpack, hproof, hcontext, rfl, hhops, key,
      hkeys _ _ hkey, hverify⟩

/-! ### Runs -/

/-- The known keys of a run are those of validated announces. -/
theorem known_heard {past : List Bytes}
    (hpast : ∀ destHash key, s.knownKey destHash = some key → Heard past destHash key)
    (es : List (Inbound F)) (destHash : Octets 16) (key : Octets 64)
    (h : (es.foldl receive s).knownKey destHash = some key) :
    Heard (past ++ s.received es) destHash key := by
  induction es generalizing s past with
  | nil => exact (hpast destHash key h).mono (List.subset_append_left _ _)
  | cons e es ih =>
    rw [received, ← List.append_assoc]
    refine ih (fun destHash key hkey => ?_) h
    rcases receive_keys hkey with hold | hnew
    · exact (hpast destHash key hold).mono (List.subset_append_left _ _)
    · exact hnew.mono (List.subset_append_right _ _)

/-- A run tightens an entry that stays. -/
theorem run_tightens (hentry : s.linkTable.get linkId = some entry) (es : List (Inbound F))
    (hstays : s.StaysLinked linkId es) :
    ∃ entry', (es.foldl receive s).linkTable.get linkId = some entry' ∧ entry.Tightens entry' := by
  induction es generalizing s entry with
  | nil => exact ⟨entry, hentry, .refl entry⟩
  | cons e es ih =>
    have hnext : (s.receive e).linkTable.contains linkId := by
      cases es with
      | nil => exact hstays.2
      | cons => exact hstays.2.1
    obtain ⟨next, hnext⟩ := isSome_iff_exists.mp hnext
    obtain ⟨entry', hentry', htightens⟩ := ih hnext hstays.2
    exact ⟨entry', hentry', (receive_tightens hentry hnext).trans htightens⟩

/-- Over every run, an entry of the link table that stays there only tightens. The next packet
validates it only as a link proof that came over its outbound interface with its recorded hops and
was signed under the key that an announce gave to the destination, and no request for its link
changes it. -/
theorem transit_links_tighten (s : Actor F) (past : List Bytes)
    (hpast : ∀ destHash key, s.knownKey destHash = some key → Heard past destHash key)
    (before after : List (Inbound F)) (linkId : Octets 16) (entry : LinkEntry F)
    (hentry : (before.foldl receive s).linkTable.get linkId = some entry)
    (hstays : (before.foldl receive s).StaysLinked linkId after) :
    ∃ entry', ((before ++ after).foldl receive s).linkTable.get linkId = some entry' ∧
      entry.Tightens entry' ∧
      ∀ e, (((before ++ after).foldl receive s).RequestsLink e linkId →
          (((before ++ after).foldl receive s).receive e).linkTable.get linkId = some entry') ∧
        ∀ entry'', (((before ++ after).foldl receive s).receive e).linkTable.get linkId = some entry'' →
          entry'.validated = false → entry''.validated = true →
          ((before ++ after).foldl receive s).ValidatedBy (past ++ s.received (before ++ after)) e
            linkId entry' := by
  obtain ⟨entry', hentry', htightens⟩ := run_tightens hentry after hstays
  rw [← List.foldl_append] at hentry'
  refine ⟨entry', hentry', htightens, fun e => ⟨fun hrequest => ?_, fun entry'' hnext hpending
    hvalidated => ?_⟩⟩
  · rw [receive_request hrequest (isSome_iff_exists.mpr ⟨entry', hentry'⟩), hentry']
  · exact receive_validates (known_heard hpast _) hentry' hpending hnext hvalidated

end

end Actor

/-! ### A session

A destination announces itself over interface 1 of a node, a client behind interface 2 asks for a
link to it, and the destination proves the link. Keys, digests and signatures are those of the real
functions. -/

namespace Session

/-- The destination, with its key and the hash of its name. -/
def destination : Octets 16 := .ofNat 0x29c95009811d4e8029f012db52088740

def destinationKey : Octets 64 :=
  .ofNat (2 ^ 256 * 0x04f5f29162c31a8defa18e6e742224ee806fc1718a278be859ba5620402b8f3a
    + 0x5e212c0980e4b39fc09721134aa02109374edfd260c0d3d03cb501c8d65457a9)

def nameHash : Octets 10 :=
  ⟨[110, 198, 11, 195, 24, 226, 192, 240, 217, 8], rfl⟩

/-- The identity of the node. -/
def transportId : Octets 16 := .ofNat 0x101112131415161718191a1b1c1d1e1f

/-- The keys of the initiator and the responder of the link. -/
def initiatorKeys : Octets 64 :=
  .ofNat (2 ^ 256 * 0x7a1a4e709bf085ac494aba0469b9b1eda0ab1f78b16aabb79ffeda90623e8522
    + 0x2152f8d19b791d24453242e15f2eab6cb7cffa7b6a5ed30097960e069881db12)

def responderKey : Octets 32 :=
  .ofNat 0xad908a8a708aca07588cda7c4ed3e44d4966a80a9abb2f1e4bbac53c67414e34

def linkId : Octets 16 := .ofNat 0xf19ea1c4220fa2dd88dbef2c81eb03e7

def announceSignature : Octets 64 :=
  .ofNat (2 ^ 256 * 0xfbc63fc99d614148395ce04c55b11f117716c443654fa1c64ed11abfa1719ee5
    + 0x4bf5e291724938bb156c0325b0feeb2fcc539991854f50942698672b9296820e)

def proofSignature : Octets 64 :=
  .ofNat (2 ^ 256 * 0x45fc86f0c165859d544231c93296baddb7be39189ab9c02aaae991ad3151f793
    + 0xab334c9535568842ada2331b5956c7741e359fbe72aeea9c9a91171ec7472407)

/-- The first announce of the destination. -/
def announce : Bytes :=
  [1, 0] ++ destination.1 ++ [0] ++ destinationKey.1 ++ nameHash.1 ++
    [1, 2, 3, 4, 5, 0, 101, 83, 241, 0] ++ announceSignature.1

/-- The request for the link, for the node to send on. -/
def request : Bytes := [0x52, 0] ++ transportId.1 ++ destination.1 ++ [0] ++ initiatorKeys.1

/-- The proof of the link. -/
def proof : Bytes := [0x0F, 0] ++ linkId.1 ++ [0xFF] ++ proofSignature.1 ++ responderKey.1

/-- SHA-256 on what the packets of the session have hashed, told apart by length. -/
@[reducible, scoped instance] def sha : Sha256 where
  digest input :=
    if input.length = 64 then
      .ofNat 0x10867071063ba476d121cd0b18bf5d300ab42c19d654241abb2840a80729ab95
    else if input.length = 26 then
      .ofNat 0x29c95009811d4e8029f012db52088740f02d83d2ceda4742e56775f34f7f3e68
    else if input.length = 166 then
      .ofNat 0x8ff43d4680c3277760cdfe0cc999de5d3c753932586347fec249e7adbc2bf638
    else if input.length = 25 then
      .ofNat 0x7926bbe7dd7f9aba88b061551600a25d06ef0f7578202730bd2f224200715efe
    else if input.length = 30 then
      .ofNat 0x324e54e934712b5731af787ca9246ff3738b5df14ea86adedca0fa41d623f03e
    else if input.length = 10 then
      if input.head? = some 121 then
        .ofNat 0x6b9f66014d9853faab220fba47d027615ec53a8b35c2d620d1f4e0da65de3008
      else
        .ofNat 0x91bf0910267b59b0e864e0d4c91602cad711d89074b8997db3c730e6f7026978
    else if input.length = 23 then
      .ofNat 0xaffe67de4b0e7156493999592c0585dec56735e78da606d291656334809e4e8a
    else if input.length = 82 then
      .ofNat 0xf19ea1c4220fa2dd88dbef2c81eb03e7af622e9d3e5114c4fff1c8062e2dabd8
    else
      .ofNat 0x7bfa963cc2eff412b3ca76126a7bef7ff2892c188f45c572da9c8e8c2906157c

/-- The destination has signed its announce and the proof. -/
@[reducible, scoped instance] def ed25519 : Ed25519 where
  publicKey _ := read 32 (destinationKey.1.drop 32)
  sign _ message := if message.length = 80 then proofSignature else announceSignature
  verify key message signature :=
    key == read 32 (destinationKey.1.drop 32) &&
      (message == linkId.1 ++ responderKey.1 ++ destinationKey.1.drop 32 &&
          signature == proofSignature ||
        message == destination.1 ++ destinationKey.1 ++ nameHash.1 ++
            [1, 2, 3, 4, 5, 0, 101, 83, 241, 0] && signature == announceSignature)

/-- No interface of the session has an access code. -/
@[reducible, scoped instance] def hkdf : Hkdf where
  expand _ _ _ _ := none

/-- An interface of the node with some room. -/
def interface (owner room : ℕ) : Interface ℚ where
  ownerIsCurrent := true
  packetCapacity := ⟨500, 500, false⟩
  ifacKey := none
  ifacSize := 0
  owner
  mode := .full
  role := .normal
  outbound := true
  bitrate := 62500
  tx := ⟨owner, room, false⟩
  announceCap := 2 / 100
  announceAllowedAt := 0
  announceRateTarget := none
  online := none
  heldAnnounces := ∅
  maxHeld := 256
  announceQueue := []
  recursivePrs := true
  announcesFromInternal := false
  background := false

/-- A new node that relays for others, with two interfaces. -/
def node : Actor ℚ where
  interfaces := (Table.insert ∅ 1 (interface 1 8)).insert 2 (interface 2 8)
  pathTable := ⟨∅, ∅⟩
  linkTable := (∅ : Table _ _)
  announceTable := ∅
  heldAnnounces := ∅
  reverseTable := ∅
  tunnelTable := ⟨∅, ∅⟩
  packetHashlist := ⟨[], [], 1000⟩
  blackholeTable := ∅
  receipts := ⟨∅, ∅, ∅, ∅, 0, [], []⟩
  localDestinations := []
  destinationChannels := ∅
  pendingLocalLinkRequests := ∅
  pathRequests := ∅
  discoveryPathRequests := ∅
  nextDiscovery := 0
  discoveryPrTags := ∅
  pathInterfaceSuppressions := ∅
  pendingLocalPathRequests := ∅
  pendingDiscoveryPrs := []
  pendingPathRequestAdmissions := []
  pendingAnnounceAdmissions := []
  offeredAnnounces := ∅
  recentAnnounces := ∅
  announceCache := some ∅
  isTransportEnabled := true
  transportIdentityHash := some transportId
  localHopsDelta := 0
  isSharedInstance := false
  sharedInstanceClientMode := false
  timers := ⟨true, 0, 0, 0, 0, 0, 0, 0, 0, 0⟩
  transmissions := []
  deliveries := []

/-- A moment of the session, without any limit. -/
def moment (now : ℚ) : Moment ℚ where
  now
  instant := 0
  ingressLimit _ := false
  ingressLimitPr _ := false
  egressLimitPr _ := false
  releasesHeld _ := false
  interfaceRateBlocked _ := false
  randWindow _ := 0
  randomTag _ := transportId
  offerState _ := .waiting
  takesOffer _ := true
  cacheWrites _ := true
  cacheReads _ := true
  sweeps _ := true

def announced : Inbound ℚ := ⟨moment 1700000001, announce, 1⟩

def requested : Inbound ℚ := ⟨moment 1700000002, request, 2⟩

def proved : Inbound ℚ := ⟨moment 1700000003, proof, 1⟩

end Session
open Transport.Session Actor in
/-- In the session, the announce and the request put the link into the table, and the proof validates
it. -/
theorem transit_links_tighten_session :
    ∃ entry entry',
      ([announced, requested].foldl receive node).linkTable.get linkId = some entry ∧
      ([announced, requested].foldl receive node).StaysLinked linkId [proved] ∧
      ([announced, requested, proved].foldl receive node).linkTable.get linkId = some entry' ∧
      entry.Tightens entry' ∧ entry.validated = false ∧ entry'.validated = true := by
  have hentry : (([announced, requested].foldl receive node).linkTable.get linkId).map
      (·.validated) = some false := by decide +kernel
  have hentry' : (([announced, requested, proved].foldl receive node).linkTable.get linkId).map
      (·.validated) = some true := by decide +kernel
  have hstays : ([announced, requested].foldl receive node).StaysLinked linkId [proved] :=
    ⟨by decide +kernel, by unfold StaysLinked; decide +kernel⟩
  obtain ⟨entry, hget, hpending⟩ := map_eq_some_iff.mp hentry
  obtain ⟨last, hlast, hvalidated⟩ := map_eq_some_iff.mp hentry'
  obtain ⟨entry', hget', htightens, -⟩ := transit_links_tighten node [] (fun _ _ h => nomatch h)
    [announced, requested] [proved] linkId entry hget hstays
  obtain rfl := some.inj (hget'.symm.trans hlast)
  exact ⟨entry, entry', hget, hstays, hget', htightens, hpending, hvalidated⟩

/-! ### Refused relays -/

namespace Actor

section

variable [Sha256] [Ed25519] [Hkdf] [DecidableEq F] [Binary64 F]

/-- The relay that the node attempts for a link request or a link proof of others: the interface and
the packet for it. -/
def relayAttempt (s : Actor F) (e : Inbound F) : Option (ℕ × Bytes) :=
  match (s.clearPacket .wire e.interfaceId e.raw).bind fun raw =>
      (unpack raw).toOption.map fun unpacked => (raw, unpacked) with
  | none => none
  | some (raw, header, dataOffset) =>
    let arrived := s.arrived header e.interfaceId
    if s.filtersPacket header (raw.drop dataOffset) e.interfaceId ∨
        header.destinationHash ∈ s.localDestinations then none
    else if header.flags.packetType = .linkRequest then
      (s.planLinkRequest e.moment raw arrived e.interfaceId).map fun plan =>
        (plan.target, plan.forwarded)
    else if header.flags.packetType = .proof ∧ header.context = .lrproof then
      ((s.claimLinkProof e.moment raw arrived e.interfaceId).join.filter fun plan =>
        !s.packetHashlist.contains plan.hash).map fun plan =>
          (plan.entry.receivingInterface, plan.forwarded)
    else none

/-- An interface refuses a packet because its queue is full or the packet is too large. -/
def RefusesRelay (s : Actor F) (target : ℕ) (packet : Bytes) : Prop :=
  ∃ entry, s.interfaces.get target = some entry ∧
    (s.sendRefusal entry target packet = some .full ∨
      s.sendRefusal entry target packet = some .tooLarge)

/-- The packet of an event is a link request. -/
def IsLinkRequest (s : Actor F) (e : Inbound F) : Prop :=
  ∃ raw header dataOffset, s.clearPacket .wire e.interfaceId e.raw = some raw ∧
    unpack raw = .ok (header, dataOffset) ∧ header.flags.packetType = .linkRequest

/-- An attempt leaves the link table and the hash list as they were, and an identical packet that
comes later, with other room in the interfaces, does what the first one would have done then. -/
structure Retryable (s : Actor F) (e : Inbound F) : Prop where
  linkTable : (s.receive e).linkTable = s.linkTable
  packetHashlist : (s.receive e).packetHashlist = s.packetHashlist
  retry : ∀ m interfaces, Actor.receive { s.receive e with interfaces } { e with moment := m } =
    Actor.receive { s with interfaces } { e with moment := m }

variable {s : Actor F} {packet : Bytes} {target : ℕ}

theorem sendToInterface_of_refusesRelay {cause : Cause}
    (h : s.RefusesRelay target packet) : s.sendToInterface cause target packet = (false, s) := by
  obtain ⟨entry, hget, hrefusal | hrefusal⟩ := h
  · simp [sendToInterface, trySendToInterface, hget, hrefusal]
  · simp [sendToInterface, trySendToInterface, hget, hrefusal]

/-- A refused link proof leaves its hash. -/
theorem relayLinkProof_of_refusesRelay {plan : ProofPlan F}
    (hnew : s.packetHashlist.contains plan.hash = false)
    (h : s.RefusesRelay plan.entry.receivingInterface plan.forwarded) :
    s.relayLinkProof m raw header plan =
      { s with packetHashlist := (s.packetHashlist.insert plan.hash).2 } := by
  have hinsert : s.packetHashlist.insert plan.hash =
      (true, (s.packetHashlist.insert plan.hash).2) :=
    Prod.ext (by rw [PacketHashlist.insert_fst, hnew]; rfl) rfl
  have hrefused (packetHashlist : PacketHashlist) :
      Actor.RefusesRelay { s with packetHashlist } plan.entry.receivingInterface plan.forwarded := h
  rw [relayLinkProof, hinsert]
  dsimp only
  rw [sendToInterface_of_refusesRelay (hrefused _)]

/-- A relay is attempted for a link request or for a link proof with a new hash. -/
theorem relayAttempt_cases (h : s.relayAttempt e = some (target, packet)) :
    ∃ raw header dataOffset, s.clearPacket .wire e.interfaceId e.raw = some raw ∧
      unpack raw = .ok (header, dataOffset) ∧
      header.destinationHash ∉ s.localDestinations ∧
      s.receive e = s.dispatch e.moment raw (s.arrived header e.interfaceId) dataOffset
        e.interfaceId ∧
      (header.flags.packetType = .linkRequest ∧
          (∃ plan, s.planLinkRequest e.moment raw (s.arrived header e.interfaceId) e.interfaceId =
            some plan ∧ plan.target = target ∧ plan.forwarded = packet) ∨
        header.flags.packetType = .proof ∧ header.context = .lrproof ∧
          ∃ plan, s.claimLinkProof e.moment raw (s.arrived header e.interfaceId) e.interfaceId =
              some (some plan) ∧ s.packetHashlist.contains plan.hash = false ∧
            plan.entry.receivingInterface = target ∧ plan.forwarded = packet) := by
  unfold relayAttempt at h
  split at h
  · cases h
  next raw header dataOffset hpacket =>
    obtain ⟨raw', hclear, hunpack⟩ := bind_eq_some_iff.mp hpacket
    obtain ⟨unpacked, hunpack, hpair⟩ := map_eq_some_iff.mp hunpack
    obtain ⟨rfl, rfl⟩ := Prod.mk.inj hpair
    have hunpack := toOption_eq_some.mp hunpack
    dsimp only at h
    split at h
    · cases h
    next hpass =>
      push Not at hpass
      obtain ⟨hfilter, hlocal⟩ := hpass
      have hreceive (hdefers : s.defersHashlist header = true) :
          s.receive e = s.dispatch e.moment raw' (s.arrived header e.interfaceId) dataOffset
            e.interfaceId := by
        rw [receive_deferred hclear hunpack hdefers]
        exact if_neg hfilter
      split at h
      next htype =>
        obtain ⟨plan, hplan, hpair⟩ := map_eq_some_iff.mp h
        obtain ⟨htarget, hpacket⟩ := Prod.mk.inj hpair
        exact ⟨raw', header, dataOffset, hclear, hunpack, hlocal,
          hreceive (by simp [defersHashlist, htype]),
          .inl ⟨htype, plan, hplan, htarget, hpacket⟩⟩
      split at h
      next htype =>
        obtain ⟨plan, hplan, hpair⟩ := map_eq_some_iff.mp h
        obtain ⟨hplan, hnew⟩ := filter_eq_some_iff.mp hplan
        obtain ⟨htarget, hpacket⟩ := Prod.mk.inj hpair
        exact ⟨raw', header, dataOffset, hclear, hunpack, hlocal,
          hreceive (by simp [defersHashlist, htype.2]),
          .inr ⟨htype.1, htype.2, plan, join_eq_some_iff.mp hplan, by simpa using hnew, htarget,
            hpacket⟩⟩
      · cases h

/-- A refused relay of a link request or a link proof can be tried again just where it is a link
request: the hash of a link proof is listed before it is sent. -/
theorem refused_relay_retryable_iff (s : Actor F) (e : Inbound F) (target : ℕ) (packet : Bytes)
    (hattempt : s.relayAttempt e = some (target, packet)) (hrefused : s.RefusesRelay target packet) :
    s.Retryable e ↔ s.IsLinkRequest e := by
  obtain ⟨raw, header, dataOffset, hclear, hunpack, hlocal, hreceive, ⟨htype, plan, hplan, rfl, rfl⟩ |
    ⟨htype, hcontext, plan, hplan, hnew, rfl, rfl⟩⟩ := relayAttempt_cases hattempt
  · have hunchanged : s.receive e = s := by
      have htype' : (s.arrived header e.interfaceId).flags.packetType = .linkRequest := htype
      have hlocal' : (s.arrived header e.interfaceId).destinationHash ∉ s.localDestinations := hlocal
      simp [hreceive, dispatch, htype', processLinkRequest, hlocal', hplan,
        sendToInterface_of_refusesRelay hrefused]
    refine iff_of_true ?_ ⟨raw, header, dataOffset, hclear, hunpack, htype⟩
    exact { linkTable := by rw [hunchanged], packetHashlist := by rw [hunchanged],
            retry := fun m interfaces => by rw [hunchanged] }
  · have hlisted : s.receive e =
        { s with packetHashlist := (s.packetHashlist.insert plan.hash).2 } := by
      have htype' : (s.arrived header e.interfaceId).flags.packetType = .proof := htype
      have hcontext' : (s.arrived header e.interfaceId).context = .lrproof := hcontext
      have hlocal' : (s.arrived header e.interfaceId).destinationHash ∉ s.localDestinations := hlocal
      simp [hreceive, dispatch, htype', processProof, hcontext', processLinkProof, hlocal', hplan,
        relayLinkProof_of_refusesRelay hnew hrefused]
    refine iff_of_false (fun h => ?_) fun ⟨raw', header', dataOffset', hclear', hunpack', htype'⟩ => ?_
    · have hsame := h.packetHashlist
      rw [hlisted] at hsame
      exact Bool.false_ne_true (hnew.symm.trans (hsame ▸ PacketHashlist.contains_insert_self))
    · obtain rfl := some.inj (hclear.symm.trans hclear')
      obtain ⟨rfl, rfl⟩ := Prod.mk.inj (Except.ok.inj (hunpack.symm.trans hunpack'))
      cases htype.symm.trans htype'

omit [DecidableEq F] [Binary64 F] in
theorem refusesRelay_of_full
    (h : (s.interfaces.get target).map (s.sendRefusal · target packet) = some (some .full)) :
    s.RefusesRelay target packet := by
  obtain ⟨entry, hget, hrefusal⟩ := map_eq_some_iff.mp h
  exact ⟨entry, hget, .inl hrefusal⟩

end

end Actor

namespace Session

/-- The node, with room for some packets in its interfaces. -/
def nodeWith (room room' : ℕ) : Actor ℚ :=
  { node with interfaces := (Table.insert ∅ 1 (interface 1 room)).insert 2 (interface 2 room') }

/-- The request as it leaves the node, one hop from the destination. -/
def relayedRequest : Bytes := [0x02, 1] ++ destination.1 ++ [0] ++ initiatorKeys.1

/-- The proof as it leaves the node. -/
def relayedProof : Bytes := [0x0F, 1] ++ linkId.1 ++ [0xFF] ++ proofSignature.1 ++ responderKey.1

end Session

open Transport.Session Actor in
/-- In the session with a full interface 1, the request is refused and can be tried again. -/
theorem refused_request_retryable :
    ((nodeWith 0 8).receive announced).relayAttempt requested = some (1, relayedRequest) ∧
      ((nodeWith 0 8).receive announced).RefusesRelay 1 relayedRequest ∧
      ((nodeWith 0 8).receive announced).Retryable requested := by
  have hattempt : ((nodeWith 0 8).receive announced).relayAttempt requested =
      some (1, relayedRequest) := by decide +kernel
  have hrefused : ((nodeWith 0 8).receive announced).RefusesRelay 1 relayedRequest :=
    refusesRelay_of_full (by decide +kernel)
  have hrequest : ((nodeWith 0 8).receive announced).IsLinkRequest requested :=
    ⟨request, _, _, by decide +kernel, rfl, rfl⟩
  exact ⟨hattempt, hrefused,
    (refused_relay_retryable_iff _ requested 1 relayedRequest hattempt hrefused).mpr hrequest⟩

open Transport.Session Actor in
/-- In the session with a full interface 2, the proof is refused. When it comes again with room in
the interface, nothing is sent; without the first attempt, the node would send it. -/
theorem refused_proof_lost :
    let s := [announced, requested].foldl receive (nodeWith 8 0)
    s.relayAttempt proved = some (2, relayedProof) ∧ s.RefusesRelay 2 relayedProof ∧
      (Actor.receive { s.receive proved with interfaces := node.interfaces } proved).transmissions =
        s.transmissions ∧
      (Actor.receive { s with interfaces := node.interfaces } proved).transmissions =
        s.transmissions ++ [⟨.relay, 2, relayedProof⟩] := by
  exact ⟨by decide +kernel, refusesRelay_of_full (by decide +kernel), by decide +kernel,
    by decide +kernel⟩

end Reticulum.Transport
