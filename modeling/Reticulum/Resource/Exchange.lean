import Reticulum.Foundation.Run
import Reticulum.Resource.Frames

/-!
# The two sides of a transfer

One `OutboundTransfer`, the `InboundTransfer` that its advertisement sets up, and the messages
between them. The network may lose, delay, reorder and duplicate messages: every message ever sent
is kept in a log, and any entry of the log may be delivered at any time. The dispatch follows the
handlers of `link_session.rs`.
-/

namespace Reticulum.Resource

open OutboundTransfer Option

/-! ### Setting up the receiver -/

/-- `validate_inbound_advertisement`. -/
def validateInboundAdvertisement (a : ResourceAdvertisement) : Except String Unit :=
  if a.totalSegments = 0 ∨ maxSegments < a.totalSegments ∨ a.segmentIndex = 0 ∨
      a.totalSegments < a.segmentIndex then .error "segment metadata is out of range"
  else if a.totalSegments = 1 ∧ a.segmentIndex ≠ 1 then
    .error "single-segment resource has a non-first segment index"
  else .ok ()

/-- `inbound_transfer_from_advertisement`. -/
def inboundTransferFromAdvertisement {F : Type} [Binary64 F] (a : ResourceAdvertisement)
    (rtt now : ℕ) : Except String (InboundTransfer F) := do
  validateInboundAdvertisement a
  if a.randomHash.length < 4 then .error "resource random hash is truncated"
  else
    let flags := { a.flags with
      hasMetadata := a.flags.hasMetadata && ¬ (1 < a.totalSegments ∧ 1 < a.segmentIndex) }
    (InboundTransfer.fromAdvertisement a.numParts a.transferSize a.dataSize
      (Octets.read 4 a.randomHash) a.resourceHash flags a.getMapHashes rtt now).mapError
        ResourceError.message

/-! ### The exchange -/

/-- The messages of a transfer after its advertisement. -/
inductive Message
  | request (packetHash : Octets 32) (data : Bytes)
  | part (data : Bytes)
  | update (data : Bytes)
  | feedback (data : Bytes)
  | proof (data : Bytes)
  | cancel (type : CancelType)
  deriving DecidableEq, Repr

/-- The message that an action sends; a request is sent in the packet with the given hash. -/
def Message.ofAction (packetHash : Octets 32) : TransferAction → Option Message
  | .sendRequest data => some (.request packetHash data)
  | .sendPart _ data => some (.part data)
  | .sendHmu data => some (.update data)
  | .sendProof data => some (.proof data)
  | .sendCancel type _ => some (.cancel type)
  | .none | .sendAdvertisement _ | .complete | .failed _ => none

/-- The request in an action. -/
def TransferAction.request : TransferAction → Option Bytes
  | .sendRequest data => some data
  | _ => Option.none

/-- The two sides and the log of the messages between them. -/
structure Exchange (F : Type) where
  sender : OutboundTransfer
  receiver : InboundTransfer F
  log : List Message
  /-- The request that the last step emitted. -/
  emitted : Option Bytes
  /-- The largest part of the hash map that a handled request has reported as used up. -/
  reported : ℕ

/-- The advertisement of a resource is well-formed when the numbers of the resource are. -/
theorem OutboundTransfer.wellFormed_advertisement {r : OutboundResource}
    (htotal : r.totalSize ≤ usizeMax) (hdata : r.advertisementDataSize ≤ usizeMax)
    (hparts : r.numParts ≤ usizeMax) (hindex : r.segmentIndex ≤ usizeMax)
    (hsegments : r.totalSegments ≤ usizeMax) (hid : ∀ id ∈ r.requestId, id.length < 2 ^ 32) :
    (advertisement r).WellFormed := by
  have hrandom := r.randomHash.2
  have hmap : ((r.mapHashes.take (hashmapMaxLen Wire.linkMdu)).flatMap (·.1)).length < 2 ^ 32 := by
    rw [length_flatMap_val, List.length_take]
    exact (Nat.mul_le_mul_right 4 (Nat.min_le_left _ _)).trans_lt (by decide)
  have hone : 1 ≤ usizeMax := by decide
  unfold advertisement
  split_ifs
  · exact ⟨htotal, hdata, hparts, hindex, hsegments, hrandom.ge, hrandom.trans_lt (by decide), hid,
      hmap⟩
  · exact ⟨htotal, hdata, hparts, hone, hone, hrandom.ge, hrandom.trans_lt (by decide), hid, hmap⟩

namespace Exchange

variable {F : Type}

/-- What can happen. -/
inductive Event
  /-- The message at an index of the log arrives; what it triggers goes into the given packet. -/
  | deliver (index : ℕ) (packetHash : Octets 32) (now : ℕ)
  | requestNext (packetHash : Octets 32) (now : ℕ)
  | checkTimeout (packetHash : Octets 32) (now : ℕ)
  | tick (now : ℕ)
  | createHmu
  | complete
  | cancelOutbound
  | cancelInbound
  deriving DecidableEq, Repr

/-- The sender has changed and taken actions. -/
def bySender (x : Exchange F) (packetHash : Octets 32)
    (result : OutboundTransfer × List TransferAction) : Exchange F :=
  { x with
    sender := result.1
    log := x.log ++ result.2.filterMap (Message.ofAction packetHash)
    emitted := none }

/-- The receiver has changed and taken an action. -/
def byReceiver (x : Exchange F) (packetHash : Octets 32)
    (result : InboundTransfer F × TransferAction) : Exchange F :=
  { x with
    receiver := result.1
    log := x.log ++ (Message.ofAction packetHash result.2).toList
    emitted := result.2.request }

/-- The part of the hash map that a message reports to the sender as used up, when the sender
handles it. -/
def position (x : Exchange F) : Message → Option ℕ
  | .request packetHash data =>
    if packetHash ∈ x.sender.reqHashlist ∨ x.sender.resource.state.isTerminal then none
    else ((parseRequest x.sender.resource.resourceHash data).bind
      (·.lastMapHash)).map fun mh => x.sender.resource.mapHashes.idxOf mh + 1
  | _ => none

section

variable [Sha256] [Binary64 F]

/-- A message arrives. -/
def deliver (x : Exchange F) (packetHash : Octets 32) (now : ℕ) (m : Message) : Exchange F :=
  match m with
  | .request hash data =>
    { x.bySender packetHash (x.sender.handleRequestPacket hash data now) with
      reported := max x.reported ((x.position m).getD 0) }
  | .part data => x.byReceiver packetHash (x.receiver.receivePart data now)
  | .update data =>
    match parseHashmapUpdate data with
    | .ok (resourceHash, segment, hashmap) =>
      if resourceHash = x.receiver.resource.resourceHash then
        x.byReceiver packetHash (x.receiver.hashmapUpdate segment hashmap now)
      else { x with emitted := none }
    | .error _ => { x with emitted := none }
  | .feedback data => x.bySender packetHash (x.sender.handleHmu F data now, [])
  | .proof data => x.bySender packetHash ((x.sender.handleProof data).1, [])
  | .cancel .icl => x.byReceiver packetHash (x.receiver.handleCancel, .none)
  | .cancel .rcl => x.bySender packetHash
    ({ x.sender with resource := x.sender.resource.handleCancel }, [])

variable [Bzip2]

/-- The receiver completes: it proves the receipt, or cancels when that fails. -/
def completeAction (decryptFn : Option (Bytes → Except ResourceError Bytes))
    (receiver : InboundTransfer F) : InboundTransfer F × TransferAction :=
  match receiver.complete decryptFn with
  | (receiver, .ok (_, proof)) => (receiver, .sendProof proof)
  | (receiver, .error _) => (receiver, .sendCancel .rcl receiver.resource.resourceHash)

/-- One step of an exchange. -/
def step (decryptFn : Option (Bytes → Except ResourceError Bytes)) (x : Exchange F) :
    Event → Option (Exchange F)
  | .deliver index packetHash now => x.log[index]?.map (x.deliver packetHash now)
  | .requestNext packetHash now => some (x.byReceiver packetHash (x.receiver.requestNext now))
  | .checkTimeout packetHash now => some (x.byReceiver packetHash (x.receiver.checkTimeout now))
  | .tick now =>
    let (sender, action) := x.sender.tick now
    some (x.bySender zeroPacket (sender, [action]))
  | .createHmu => some { x with log := x.log ++ [.feedback x.receiver.createHmu], emitted := none }
  | .complete => some (x.byReceiver zeroPacket (completeAction decryptFn x.receiver))
  | .cancelOutbound => some (x.bySender zeroPacket
    (x.sender.handleCancel, [.sendCancel .icl x.sender.resource.resourceHash]))
  | .cancelInbound => some (x.byReceiver zeroPacket x.receiver.cancel)
where
  /-- Actions other than requests do not depend on a packet. -/
  zeroPacket : Octets 32 := Octets.replicate 32 0

end

/-- A transfer begins: the sender advertises its resource, and the receiver accepts. -/
def start [Binary64 F] (resource : OutboundResource) (senderRtt receiverRtt now : ℕ) :
    Option (Exchange F) :=
  match (fromResource resource senderRtt now).tick now with
  | (sender, .sendAdvertisement data) => do
    let advertisement ← (ResourceAdvertisement.unpack data).toOption
    let receiver ← (inboundTransferFromAdvertisement advertisement receiverRtt now).toOption
    return { sender, receiver, log := [], emitted := none, reported := 0 }
  | _ => none

section

variable [Binary64 F]

/-! ### The start of an exchange -/

variable {data : Bytes} {t : OutboundTransfer}

/-- A created advertisement has passed its check. -/
theorem createAdvertisement_eq_ok (h : t.createAdvertisement = .ok data) :
    checkAdvertisement (advertisement t.resource) Wire.mtu = .ok () ∧
      data = (advertisement t.resource).pack := by
  unfold createAdvertisement at h
  cases hid : t.resource.requestId with
  | none =>
    simp only [hid] at h
    obtain ⟨_, hcheck, hdata⟩ := bind_eq_ok.mp h
    exact ⟨hcheck, (pure_eq_ok.mp hdata).symm⟩
  | some id =>
    simp only [hid] at h
    obtain ⟨_, -, h⟩ := bind_eq_ok.mp h
    obtain ⟨_, hcheck, hdata⟩ := bind_eq_ok.mp h
    exact ⟨hcheck, (pure_eq_ok.mp hdata).symm⟩

/-- The advertisement arrives as it was created. -/
theorem unpack_of_createAdvertisement {advertisement : ResourceAdvertisement}
    (hwf : (OutboundTransfer.advertisement t.resource).WellFormed)
    (hcreate : t.createAdvertisement = .ok data)
    (hunpack : ResourceAdvertisement.unpack data = .ok advertisement) :
    advertisement = { OutboundTransfer.advertisement t.resource with metadataSize := 0 } := by
  obtain ⟨hcheck, rfl⟩ := createAdvertisement_eq_ok hcreate
  obtain ⟨len, hlen, hframe⟩ := bind_eq_ok.mp hcheck
  obtain ⟨-, hlen⟩ := ite_error_eq_ok.mp hlen
  obtain rfl := Except.ok.inj hlen
  rw [ResourceAdvertisement.unpack_pack hwf hframe] at hunpack
  exact (Except.ok.inj hunpack).symm

variable {resource : OutboundResource}

/-- The first action of a sender is its advertisement. -/
theorem tick_eq_sendAdvertisement {rtt now : ℕ} {sender : OutboundTransfer}
    (h : (fromResource resource rtt now).tick now = (sender, .sendAdvertisement data)) :
    (fromResource resource rtt now).createAdvertisement = .ok data ∧
      sender = { fromResource resource rtt now with
        advertised := true }.withState .advertised := by
  have hfresh : ¬ (fromResource resource rtt now).advertised = true := by
    simp [fromResource]
  unfold tick at h
  simp only [if_pos hfresh] at h
  repeat' split at h
  all_goals cases h
  all_goals exact ⟨by assumption, rfl⟩

/-- An exchange starts with the resource advertised and the receiver that accepts it. -/
theorem start_eq_some {senderRtt receiverRtt now : ℕ} {x : Exchange F}
    (hwf : (OutboundTransfer.advertisement resource).WellFormed)
    (h : start resource senderRtt receiverRtt now = some x) :
    x.sender = { OutboundTransfer.fromResource resource senderRtt now with
        advertised := true }.withState .advertised ∧
      inboundTransferFromAdvertisement
        { OutboundTransfer.advertisement resource with metadataSize := 0 } receiverRtt now =
          .ok x.receiver ∧
      x.log = [] ∧ x.emitted = none ∧ x.reported = 0 := by
  unfold start at h
  split at h
  · rename_i sender data htick
    obtain ⟨advertisement, hunpack, h⟩ := bind_eq_some_iff.mp h
    obtain ⟨receiver, hreceiver, h⟩ := bind_eq_some_iff.mp h
    obtain rfl := some.inj h
    obtain ⟨hcreate, hsender⟩ := tick_eq_sendAdvertisement htick
    obtain rfl := unpack_of_createAdvertisement hwf hcreate (toOption_eq_some.mp hunpack)
    exact ⟨hsender, toOption_eq_some.mp hreceiver, rfl, rfl, rfl⟩
  · cases h

/-- The receiver that an advertisement sets up. -/
theorem inboundTransferFromAdvertisement_ok {a : ResourceAdvertisement} {rtt now : ℕ}
    {t : InboundTransfer F} (h : inboundTransferFromAdvertisement a rtt now = .ok t) :
    t.hashmapHeight = a.getMapHashes.length ∧ t.waitingForHmu = false ∧ t.retriesLeft = maxRetries ∧
      t.resource = {
        state := .transferring
        parts := List.replicate a.numParts none
        totalParts := a.numParts
        randomHash := Octets.read 4 a.randomHash
        resourceHash := a.resourceHash
        flags := { a.flags with
          hasMetadata := a.flags.hasMetadata && ¬ (1 < a.totalSegments ∧ 1 < a.segmentIndex) }
        totalSize := a.transferSize
        dataSize := a.dataSize
        consecutiveCompleted := 0
        window := .new
        mapHashes := a.getMapHashes
        sdu := sdu
        metadata := none } ∧
      0 < a.numParts := by
  obtain ⟨_, -, h⟩ := bind_eq_ok.mp h
  obtain ⟨-, h⟩ := ite_error_eq_ok.mp h
  obtain ⟨r, hr, h⟩ := bind_eq_ok.mp (mapError_eq_ok.mp h)
  obtain rfl := pure_eq_ok.mp h
  simp only [InboundResource.new, InboundResource.withSdu, ite_error_eq_ok] at hr
  obtain ⟨hpos, -, -, hr⟩ := hr
  obtain rfl := Except.ok.inj hr
  exact ⟨rfl, rfl, rfl, rfl, Nat.pos_of_ne_zero hpos⟩

/-! ### What a step can do -/

variable [Sha256] [Bzip2] {decryptFn : Option (Bytes → Except ResourceError Bytes)}
  {x x' : Exchange F} {e : Event}

omit [Binary64 F] in
theorem keeps_completeAction (t : InboundTransfer F) :
    InboundTransfer.Keeps t (completeAction decryptFn t).1 := by
  have h := t.keeps_complete decryptFn
  unfold completeAction
  split <;> (rename_i heq; rw [heq] at h; exact h)

/-- Every step keeps the resource of the sender and what was advertised to the receiver. -/
theorem step_sides (h : x.step decryptFn e = some x') :
    SameResource x.sender x'.sender ∧ InboundTransfer.SameOffer x.receiver x'.receiver := by
  cases e with
  | deliver index packetHash now =>
    obtain ⟨m, -, rfl⟩ := map_eq_some_iff.mp h
    match m with
    | .request hash data =>
      exact ⟨sameResource_handleRequestPacket _ _ _ _, .refl _⟩
    | .part data => exact ⟨.refl _, (x.receiver.receivePart_spec data now).1.offer⟩
    | .update data =>
      simp only [deliver]
      split
      · split_ifs
        · exact ⟨.refl _, x.receiver.sameOffer_hashmapUpdate _ _ _⟩
        · exact ⟨.refl _, .refl _⟩
      · exact ⟨.refl _, .refl _⟩
    | .feedback data => exact ⟨(x.sender.keeps_handleHmu F data now).resource, .refl _⟩
    | .proof data => exact ⟨(x.sender.keeps_handleProof data).resource, .refl _⟩
    | .cancel .icl => exact ⟨.refl _, (x.receiver.keeps_withState _).offer⟩
    | .cancel .rcl => exact ⟨⟨_, _, rfl⟩, .refl _⟩
  | requestNext packetHash now =>
    obtain rfl := some.inj h
    exact ⟨.refl _, (x.receiver.requestNext_spec now).1.offer⟩
  | checkTimeout packetHash now =>
    obtain rfl := some.inj h
    exact ⟨.refl _, (x.receiver.checkTimeout_spec now).1.offer⟩
  | tick now =>
    obtain rfl := some.inj h
    exact ⟨(x.sender.keeps_tick now).resource, .refl _⟩
  | createHmu =>
    obtain rfl := some.inj h
    exact ⟨.refl _, .refl _⟩
  | complete =>
    obtain rfl := some.inj h
    exact ⟨.refl _, (keeps_completeAction x.receiver).offer⟩
  | cancelOutbound =>
    obtain rfl := some.inj h
    exact ⟨⟨_, _, rfl⟩, .refl _⟩
  | cancelInbound =>
    obtain rfl := some.inj h
    exact ⟨.refl _, (x.receiver.keeps_withState _).offer⟩

end

end Exchange

end Reticulum.Resource
