import Reticulum.Foundation.Table
import Reticulum.Link.Lifecycle
import Reticulum.Resource.Frames
import Reticulum.Resource.Segments

/-!
# The link manager

The manager owns the responder ends of links and the resources that travel over them. Inbound
resources live in four tables: transfers by the hash of a segment, routes from segments to the
resource they are part of, coordinators that collect the segments of a resource, and the lifecycles
that the manager accounts for. Outbound resources live in a table of transfers by the hash of a
segment, and in queues of segments that are sent later. What starts and ends is reported to the
stream of accounting events.

A handler works on one link and the parts of the manager that it borrows. The channels to the
transport and to the application answer as `Moment` says.
-/

namespace Reticulum.Manager

open Wire Resource

/-! ### The state -/

/-- `LinkResourceDirection`. -/
inductive LinkResourceDirection
  | inbound
  | outbound
  deriving DecidableEq, Repr

/-- `LinkResourceConclusion`. -/
inductive LinkResourceConclusion
  | complete
  | cancelled
  | rejected
  | failed (reason : String)
  deriving DecidableEq, Repr

/-- The events of `LinkManagerAccountingEvent` about resources and links. -/
inductive AccountingEvent
  | started (linkId : Octets 16) (resourceId : Octets 32) (direction : LinkResourceDirection)
      (dataSize totalSegments : ℕ)
  | concluded (linkId : Octets 16) (resourceId : Octets 32) (direction : LinkResourceDirection)
      (conclusion : LinkResourceConclusion)
  | resourceCompletion (linkId : Octets 16) (resourceHash : Octets 32) (data : Bytes)
      (metadata : Option Bytes)
  | linkClosed (linkId : Octets 16)
  deriving DecidableEq, Repr

/-- `SegmentRoute`. -/
structure SegmentRoute where
  originalHash : Octets 32
  segmentIndex : ℕ
  deriving DecidableEq, Repr

/-- `InboundResourceLifecycle`. -/
structure InboundResourceLifecycle where
  dataSize : ℕ
  totalSegments : ℕ
  currentSegment : Option (Octets 32)
  isRequest : Bool
  isResponse : Bool
  requestId : Option Bytes
  interSegmentDeadline : Option ℕ
  deriving DecidableEq, Repr

/-- `ActiveLink`, without its channel and its endpoint. -/
structure ActiveLink (F : Type) where
  link : LinkSession F
  interfaceId : ℕ
  interfaceOwner : Option ℕ
  inboundResources : Table (Octets 32) (InboundTransfer F)
  outboundResources : Table (Octets 32) OutboundTransfer
  outboundSplitQueues : Table (Octets 32) (List OutboundTransfer)
  inboundSplitResources : Table (Octets 32) MultiSegmentInbound
  segmentRouting : Table (Octets 32) SegmentRoute

/-- The fields of `LinkManager` that handlers of a link borrow. `emissions` counts the packets for
the transport, and `sent` are those that went into its channel; `completedRequests` are the requests that
arrived as resources and go to the request handlers. -/
structure Shared where
  pendingLinkControl : List Bytes
  sent : List Bytes
  emissions : ℕ
  activeInboundLifecycles : Table (Octets 16 × Octets 32) InboundResourceLifecycle
  resourceStrategy : ResourceStrategy
  resourceAcceptHandler : Bool
  requestHandler : Bool
  requestHandlerEx : Bool
  destinationRequestHandlers : List (Octets 16)
  accounting : List AccountingEvent
  completedRequests : List (Octets 16 × Bytes)

/-- One link and what its handlers borrow. -/
structure LinkWork (F : Type) where
  active : ActiveLink F
  shared : Shared

/-- `LinkManager`. -/
structure LinkManager (F : Type) where
  activeLinks : Table (Octets 16) (ActiveLink F)
  shared : Shared

/-- `mpsc::Sender::try_send`. -/
inductive TrySend
  | ok
  | full
  | closed
  deriving DecidableEq, Repr

/-- What an event finds outside the manager: the clock, the initialisation vectors and the answers of
the channel to the transport by the number of the packet, the answer of the application's acceptance
handler, the links whose endpoints the manager owns, and the links with a channel that has used up
its retries. -/
structure Moment where
  now : ℕ
  iv : ℕ → Octets 16
  trySend : ℕ → TrySend
  accepted : Bool
  ownsEndpoint : Octets 16 → Bool
  channelExhausted : Octets 16 → Bool

variable {F : Type}

/-! ### Packets to the peer -/

/-- `MAX_PENDING_LINK_CONTROL`. -/
def maxPendingLinkControl : ℕ := 256

/-- `stage_link_control`. -/
def stageLinkControl (m : Moment) (s : Shared) (message : Bytes) : Shared × Bool :=
  let emitted := { s with emissions := s.emissions + 1 }
  if s.pendingLinkControl = [] then
    match m.trySend s.emissions with
    | .ok => ({ emitted with sent := s.sent ++ [message] }, true)
    | .full => ({ emitted with pendingLinkControl := [message] }, true)
    | .closed => (emitted, false)
  else if maxPendingLinkControl ≤ s.pendingLinkControl.length then (emitted, false)
  else ({ emitted with pendingLinkControl := s.pendingLinkControl ++ [message] }, true)

/-- The queue of `flush_pending_link_control`, from its front on. -/
def flushQueue (m : Moment) : List Bytes → Shared → Shared
  | [], s => { s with pendingLinkControl := [] }
  | message :: rest, s =>
    let emitted := { s with emissions := s.emissions + 1 }
    match m.trySend s.emissions with
    | .ok => flushQueue m rest { emitted with sent := s.sent ++ [message] }
    | .full => { emitted with pendingLinkControl := message :: rest }
    | .closed => { emitted with pendingLinkControl := [] }

/-- `flush_pending_link_control`. -/
def flushPendingLinkControl (m : Moment) (s : Shared) : Shared := flushQueue m s.pendingLinkControl s

/-- The header of a packet over a link. -/
def linkHeader (linkId : Octets 16) (packetType : PacketType) (context : PacketContext) :
    PacketHeader where
  flags :=
    { headerType := .header1
      contextFlag := false
      transportType := .broadcast
      destinationType := .link
      packetType }
  hops := 0
  transportId := none
  destinationHash := linkId
  context := context

/-- How an action travels: its context, its payload, whether that is encrypted, and the type of the
packet. -/
def actionFrame : TransferAction → Option (PacketContext × Bytes × Bool × PacketType)
  | .sendAdvertisement payload => some (.resourceAdv, payload, true, .data)
  | .sendPart _ payload => some (.resource, payload, false, .data)
  | .sendProof payload => some (.resourcePrf, payload, false, .proof)
  | .sendHmu payload => some (.resourceHmu, payload, true, .data)
  | .sendRequest payload => some (.resourceReq, payload, true, .data)
  | .sendCancel .icl resourceHash => some (.resourceIcl, resourceHash.1, true, .data)
  | .sendCancel .rcl resourceHash => some (.resourceRcl, resourceHash.1, true, .data)
  | .none | .complete | .failed _ => none

section Emission

variable [AesCbc] [Hmac]

/-- A packet for the peer that is checked against the MTU, encrypted, and staged. -/
def emitFrame (m : Moment) (linkId : Octets 16) (w : LinkWork F) (context : PacketContext)
    (payload : Bytes) (encrypted : Bool) (packetType : PacketType) : LinkWork F × Bool :=
  match checkControlFrame context payload.length encrypted headerMinsize w.active.link.mtu with
  | .error _ => (w, false)
  | .ok () =>
    match if encrypted then w.active.link.encrypt (m.iv w.shared.emissions) payload
        else .ok payload with
    | .error _ => (w, false)
    | .ok body =>
      let raw := (linkHeader linkId packetType context).pack ++ body
      let (shared, retained) := stageLinkControl m w.shared raw
      if retained then
        ({ active := { w.active with link := w.active.link.recordTx body.length m.now }, shared },
          true)
      else ({ w with shared }, false)

/-- `send_resource_action`. -/
def sendResourceAction (m : Moment) (linkId : Octets 16) (w : LinkWork F) (action : TransferAction) :
    LinkWork F × Bool :=
  match actionFrame action with
  | none => (w, false)
  | some (context, payload, encrypted, packetType) =>
    emitFrame m linkId w context payload encrypted packetType

end Emission

/-! ### Accounting -/

/-- `emit_resource_event` and `emit_resource_completion`, for the accounting stream. -/
def Shared.emit (s : Shared) (e : AccountingEvent) : Shared :=
  { s with accounting := s.accounting ++ [e] }

/-- `inbound_resource_identity`. -/
def inboundResourceIdentity (active : ActiveLink F) (resourceHash : Octets 32) :
    Octets 32 × ℕ × ℕ :=
  match active.segmentRouting.get resourceHash with
  | some route =>
    let totalSegments := ((active.inboundSplitResources.get route.originalHash).map
      MultiSegmentInbound.totalSegments).getD 1
    (route.originalHash, route.segmentIndex, totalSegments)
  | none => (resourceHash, 1, 1)

/-- `outbound_resource_identity`. -/
def outboundResourceIdentity (t : OutboundTransfer) : Octets 32 × ℕ × ℕ :=
  (t.resource.originalHash.getD t.resource.resourceHash, t.resource.segmentIndex,
    t.resource.totalSegments)

/-- Removing one segment of an inbound resource. -/
def dropSegment (active : ActiveLink F) (segmentHash : Octets 32) : ActiveLink F :=
  { active with
    inboundResources := active.inboundResources.erase segmentHash
    link := active.link.untrackResource segmentHash }

/-- `drop_inbound_logical`. -/
def dropInboundLogical (active : ActiveLink F) (resourceId : Octets 32) : ActiveLink F :=
  let segmentHashes := active.inboundResources.keys.filter fun segmentHash =>
    (inboundResourceIdentity active segmentHash).1 = resourceId
  let active := segmentHashes.foldl dropSegment active
  { active with
    inboundSplitResources := active.inboundSplitResources.erase resourceId
    segmentRouting := active.segmentRouting.retain fun _ route => route.originalHash ≠ resourceId }

/-- `claim_inbound_terminal`. -/
def claimInboundTerminal (s : Shared) (linkId : Octets 16) (resourceId : Octets 32) :
    Shared × Option InboundResourceLifecycle :=
  ({ s with activeInboundLifecycles := s.activeInboundLifecycles.erase (linkId, resourceId) },
    s.activeInboundLifecycles.get (linkId, resourceId))

/-- `conclude_inbound_failure`. -/
def concludeInboundFailure (linkId : Octets 16) (resourceId : Octets 32)
    (conclusion : LinkResourceConclusion) (w : LinkWork F) : LinkWork F :=
  let active := dropInboundLogical w.active resourceId
  match claimInboundTerminal w.shared linkId resourceId with
  | (shared, none) => { active, shared }
  | (shared, some _) =>
    { active, shared := shared.emit (.concluded linkId resourceId .inbound conclusion) }

/-- The end of a complete inbound resource: the payload goes to the accounting stream, but for that of
a request. -/
def concludeInboundComplete (linkId : Octets 16) (resourceId : Octets 32) (data : Bytes)
    (metadata : Option Bytes) (w : LinkWork F) : LinkWork F :=
  let active := dropInboundLogical w.active resourceId
  match claimInboundTerminal w.shared linkId resourceId with
  | (shared, none) => { active, shared }
  | (shared, some lifecycle) =>
    let shared := if lifecycle.isRequest then shared
      else shared.emit (.resourceCompletion linkId resourceId data metadata)
    { active, shared := shared.emit (.concluded linkId resourceId .inbound .complete) }

/-- `reject_inbound_advertisement`. -/
def rejectInboundAdvertisement [AesCbc] [Hmac] (m : Moment) (linkId : Octets 16)
    (resourceId segmentHash : Octets 32) (reason : String) (w : LinkWork F) : LinkWork F :=
  let w := if w.shared.activeInboundLifecycles.contains (linkId, resourceId) then
      (sendResourceAction m linkId w (.sendCancel .rcl segmentHash)).1
    else w
  concludeInboundFailure linkId resourceId (.failed reason) w

end Reticulum.Manager
