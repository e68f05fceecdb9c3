import Reticulum.Foundation.Queues
import Reticulum.Transport.Inbound

/-!
# Endpoints of local links

An established link of the node itself is bound to one interface, and its packets leave through an
endpoint with a bounded queue: `actor/link_endpoint.rs` and `link_endpoint_dispatch.rs` of the
`rns-transport` crate. The two sides of a link between destinations of one node hand their packets to
each other instead.

Channels, flags and clocks are shared with other tasks, which may change them between any two
readings: the `n`-th reading of a run sees `w n`. Counters of traffic and of drops are left out. The
log of `Queues` stands for the channels on which outcomes and the end of an endpoint are told.
-/

namespace Reticulum.Transport

open Wire

/-! ### Endpoints -/

/-- `LOCAL_LINK_INITIATOR_INTERFACE`. -/
def localLinkInitiatorInterface : ℕ := 2 ^ 64 - 1

/-- `LOCAL_LINK_RESPONDER_INTERFACE`. -/
def localLinkResponderInterface : ℕ := 2 ^ 64 - 2

/-- `LINK_ENDPOINT_EGRESS_QUEUE_CAPACITY`. -/
def linkEndpointEgressQueueCapacity : ℕ := 256

/-- `LinkEndpointRole`. -/
inductive LinkEndpointRole
  | initiator
  | responder
  deriving DecidableEq, Repr

/-- `LinkEndpointBinding`. -/
structure LinkEndpointBinding where
  interfaceOwner : Option ℕ
  linkId : Octets 16
  interfaceId : ℕ
  role : LinkEndpointRole
  deriving DecidableEq, Repr

/-- `LinkEndpointBindResult`. -/
inductive LinkEndpointBindResult
  | bound
  | alreadyBound
  | conflict (interfaceId : ℕ) (role : LinkEndpointRole)
  | interfaceUnavailable
  deriving DecidableEq, Repr

/-- `LinkEndpointTerminalReason`. -/
inductive LinkEndpointTerminalReason
  | unbound
  | interfaceRemoved
  | interfaceClosed
  | interfaceOffline
  | interfaceNotOutbound
  | egressQueueExhausted
  | transportShutdown
  deriving DecidableEq, Repr

/-- `LinkEndpointSendResult`. -/
inductive LinkEndpointSendResult
  | sent
  | queued (depth : ℕ)
  | droppedBackpressure
  | notBound
  | roleMismatch
  | invalidPacket
  | terminated (reason : LinkEndpointTerminalReason)
  deriving DecidableEq, Repr

/-- `LinkEndpointUnbindResult`. -/
inductive LinkEndpointUnbindResult
  | unbound
  | notBound
  | roleMismatch
  deriving DecidableEq, Repr

/-- `LinkEndpointDispatchOutcome`. -/
inductive LinkEndpointDispatchOutcome
  | sent (packetHash : Option (Octets 32)) (dispatchedAt : ℕ)
  | rejected (result : LinkEndpointSendResult)
  | expired
  | cancelled
  deriving DecidableEq, Repr

/-- `LinkEndpointDispatchCompletion`: the number of its channel, and the deadline. -/
structure LinkEndpointDispatchCompletion where
  id : ℕ
  deadline : ℕ
  deriving DecidableEq, Repr

/-- `LinkEndpointQueuedPacket`. -/
structure LinkEndpointQueuedPacket where
  raw : Bytes
  completion : Option LinkEndpointDispatchCompletion
  deriving DecidableEq, Repr

/-- `LinkEndpointEntry`. The generation is the identity of the binding; a publication is given by
its identity. -/
structure LinkEndpointEntry where
  binding : LinkEndpointBinding
  generation : ℕ
  publication : Option ℕ
  egress : List LinkEndpointQueuedPacket
  unbindAfterDrain : Bool
  deriving DecidableEq, Repr

/-- `LocalLinkRoute`, with the identities of the channels. -/
structure LocalLinkRoute where
  initiatorTx : ℕ
  responderTx : ℕ
  deriving DecidableEq, Repr

/-- `OutboundRequest`. -/
structure OutboundRequest where
  raw : Bytes
  destinationHash : Octets 16
  deriving DecidableEq, Repr

/-- What a reading sees: the monotonic clock, the room in a channel and whether its receiver is gone,
the flags of interfaces and owners, the state of a publication, whether the receiver of a bind reply
is gone, and whether an operation was cancelled or its receiver is gone. -/
structure Surroundings where
  instant : ℕ
  room : ℕ → ℕ
  isClosed : ℕ → Bool
  online : ℕ → Bool
  ownerIsCurrent : ℕ → Bool
  publication : ℕ → UInt8
  abandoned : ℕ → Bool
  cancelled : ℕ → Bool

/-- `LinkEndpointDispatchCompletion::terminal_before_admission`. -/
def LinkEndpointDispatchCompletion.terminalBeforeAdmission
    (completion : LinkEndpointDispatchCompletion) (seen : Surroundings) :
    Option LinkEndpointDispatchOutcome :=
  if seen.cancelled completion.id then some .cancelled
  else if completion.deadline ≤ seen.instant then some .expired
  else none

/-- The number of the channel for the outcome of a packet, if somebody waits for it. -/
def LinkEndpointQueuedPacket.ticket (packet : LinkEndpointQueuedPacket) : Option ℕ :=
  packet.completion.map (·.id)

/-- `terminal_reason_for_interface_outcome`. -/
def terminalReasonForInterfaceOutcome :
    Actor.InterfaceSendOutcome → Option LinkEndpointTerminalReason
  | .sent | .full | .tooLarge => none
  | .missing => some .interfaceRemoved
  | .closed => some .interfaceClosed
  | .offline => some .interfaceOffline
  | .notOutbound => some .interfaceNotOutbound

/-- Whether an outcome takes the interface with it: it is closed or offline, and not one of the two
sides of a link within the node. -/
def losesInterface (outcome : Actor.InterfaceSendOutcome) (interfaceId : ℕ) : Bool :=
  (outcome = .closed || outcome = .offline) && interfaceId ≠ localLinkInitiatorInterface &&
    interfaceId ≠ localLinkResponderInterface

/-- The interfaces of a node as a reading sees them. -/
def Actor.observe {F : Type} (s : Actor F) (seen : Surroundings) : Actor F :=
  { s with
    interfaces := s.interfaces.mapValues fun id entry =>
      { entry with
        tx := ⟨entry.tx.id, seen.room entry.tx.id, seen.isClosed entry.tx.id⟩
        online := entry.online.map fun _ => seen.online id
        ownerIsCurrent := seen.ownerIsCurrent entry.owner } }

/-- An endpoint for the log: its generation with its binding. -/
def LinkEndpointEntry.session (entry : LinkEndpointEntry) : ℕ × LinkEndpointBinding :=
  (entry.generation, entry.binding)

/-- What happens to endpoints and their packets. The end of an endpoint comes with its binding and
the reason, as `LinkEndpointLifecycleEvent` does. -/
abbrev EndpointOccurrence : Type :=
  Queues.Occurrence (ℕ × LinkEndpointBinding) LinkEndpointQueuedPacket LinkEndpointDispatchOutcome
    LinkEndpointTerminalReason

/-- The endpoints of `TransportActor`, with the rest of the node: the routes of links within it, how
often it has read its surroundings, the numbers of the next binding and the next tracked operation,
what the two sides of local links were handed, and the log. -/
structure LinkEndpoints (F : Type) where
  actor : Actor F
  localLinkRoutes : Table (Octets 16) LocalLinkRoute
  linkEndpoints : Table (Octets 16 × LinkEndpointRole) LinkEndpointEntry
  readings : ℕ
  nextGeneration : ℕ
  nextCompletion : ℕ
  handedOver : List (ℕ × DestinationEvent)
  log : List EndpointOccurrence

namespace LinkEndpoints

variable {F : Type}

/-- A node before its first binding. -/
def start (actor : Actor F) (localLinkRoutes : Table (Octets 16) LocalLinkRoute) :
    LinkEndpoints F :=
  ⟨actor, localLinkRoutes, ∅, 0, 0, 0, [], []⟩

variable (s : LinkEndpoints F)

/-- One reading more. -/
def tick : LinkEndpoints F := { s with readings := s.readings + 1 }

/-! ### The end of an endpoint -/

/-- `notify_link_endpoint_terminal`, where every caller counts no extra packets as dropped. -/
def notifyLinkEndpointTerminal (entry : LinkEndpointEntry) (reason : LinkEndpointTerminalReason) :
    LinkEndpoints F :=
  { s with
    log := s.log ++
      (entry.egress.filterMap (·.ticket)).map (.answered · (.rejected (.terminated reason))) ++
      [.closed entry.session reason entry.egress.length] }

/-- `finish_link_endpoint_terminal`, by a way to deregister the destination of the link. -/
def finishWith (deregister : LinkEndpoints F → Octets 16 → LinkEndpoints F)
    (entry : LinkEndpointEntry) (reason : LinkEndpointTerminalReason) : LinkEndpoints F :=
  let s := s.notifyLinkEndpointTerminal entry reason
  if entry.unbindAfterDrain then deregister s entry.binding.linkId else s

/-- `terminate_link_endpoint`, by a way to deregister the destination of the link. -/
def terminateWith (deregister : LinkEndpoints F → Octets 16 → LinkEndpoints F)
    (key : Octets 16 × LinkEndpointRole) (reason : LinkEndpointTerminalReason) : LinkEndpoints F :=
  match s.linkEndpoints.get key with
  | none => s
  | some entry =>
    finishWith { s with linkEndpoints := s.linkEndpoints.erase key } deregister entry reason

/-- The part of `deregister_destination` before its endpoints, which is all of it for a destination
without a route. -/
def releaseDestination (hash : Octets 16) : LinkEndpoints F :=
  { s with
    actor := { s.actor with
      pendingLocalLinkRequests := s.actor.pendingLocalLinkRequests.erase hash
      localDestinations := s.actor.localDestinations.filter (· ≠ hash)
      destinationChannels := s.actor.destinationChannels.erase hash }
    localLinkRoutes := s.localLinkRoutes.erase hash }

/-- `deregister_destination`. Endpoints of the link end; that they may deregister the destination
again finds its route gone. -/
def deregisterDestination (hash : Octets 16) : LinkEndpoints F :=
  let released := s.releaseDestination hash
  if s.localLinkRoutes.contains hash then
    (released.linkEndpoints.keys.filter (·.1 = hash)).foldl
      (fun s key => s.terminateWith releaseDestination key .interfaceRemoved) released
  else released

/-- `finish_link_endpoint_terminal`. -/
def finishLinkEndpointTerminal (entry : LinkEndpointEntry) (reason : LinkEndpointTerminalReason) :
    LinkEndpoints F :=
  s.finishWith deregisterDestination entry reason

/-- `terminate_link_endpoint`. -/
def terminateLinkEndpoint (key : Octets 16 × LinkEndpointRole)
    (reason : LinkEndpointTerminalReason) : LinkEndpoints F :=
  s.terminateWith deregisterDestination key reason

/-- The endpoints of some keys end. -/
def terminateLinkEndpoints (keys : List (Octets 16 × LinkEndpointRole))
    (reason : LinkEndpointTerminalReason) : LinkEndpoints F :=
  keys.foldl (fun s key => s.terminateLinkEndpoint key reason) s

/-- `terminate_link_endpoints_for_interface`. -/
def terminateLinkEndpointsForInterface (interfaceId : ℕ) (reason : LinkEndpointTerminalReason) :
    LinkEndpoints F :=
  s.terminateLinkEndpoints
    ((s.linkEndpoints.toList.filter fun e => e.2.binding.interfaceId = interfaceId).map Prod.fst)
    reason

/-- `terminate_shared_peer_link_endpoints`. -/
def terminateSharedPeerLinkEndpoints : LinkEndpoints F :=
  let ids := (s.actor.interfaces.toList.filter fun e => e.2.role = .sharedInstancePeer).map Prod.fst
  ids.foldl (fun s id => s.terminateLinkEndpointsForInterface id .interfaceOffline) s

/-- `terminate_all_link_endpoints`. -/
def terminateAllLinkEndpoints (reason : LinkEndpointTerminalReason) : LinkEndpoints F :=
  s.terminateLinkEndpoints s.linkEndpoints.keys reason

/-- `deregister_interface_with_link_reason`. -/
def deregisterInterfaceWithLinkReason [DecidableEq F] [Binary64 F] (id : ℕ)
    (reason : LinkEndpointTerminalReason) : LinkEndpoints F :=
  let s := s.terminateLinkEndpointsForInterface id reason
  { s with actor := s.actor.deregisterInterface id }

section

variable (w : ℕ → Surroundings)

/-- `retire_unpublished_link_endpoint`. -/
def retireUnpublishedLinkEndpoint (key : Octets 16 × LinkEndpointRole) : LinkEndpoints F :=
  if (s.linkEndpoints.get key).any fun entry =>
      entry.publication.any fun publication => (w s.readings).publication publication = 2 then
    s.tick.terminateLinkEndpoint key .unbound
  else s.tick

/-! ### Binding -/

/-- `link_endpoint_interface_available`. -/
def linkEndpointInterfaceAvailable (seen : Surroundings) (binding : LinkEndpointBinding) : Bool :=
  if binding.interfaceId = localLinkInitiatorInterface ∧ binding.role = .initiator ∨
      binding.interfaceId = localLinkResponderInterface ∧ binding.role = .responder then
    binding.interfaceOwner.isNone && s.localLinkRoutes.contains binding.linkId
  else if binding.interfaceId = localLinkInitiatorInterface ∨
      binding.interfaceId = localLinkResponderInterface then false
  else
    ((s.actor.observe seen).interfaces.get binding.interfaceId).any fun entry =>
      binding.interfaceOwner.any (fun owner => entry.ownerIsCurrent && owner = entry.owner) &&
        (entry.linkCeiling binding.interfaceId).toOption.isSome && entry.outbound &&
        !entry.tx.closed && !(entry.role = .localClient && entry.markedOffline)

/-- `bind_link_endpoint`. -/
def bindLinkEndpoint (binding : LinkEndpointBinding) : LinkEndpointBindResult × LinkEndpoints F :=
  let key := (binding.linkId, binding.role)
  let s := s.retireUnpublishedLinkEndpoint w key
  match s.linkEndpoints.get key with
  | some existing =>
    (if existing.binding = binding then .alreadyBound
      else .conflict existing.binding.interfaceId existing.binding.role, s)
  | none =>
    if !s.linkEndpointInterfaceAvailable (w s.readings) binding then
      (.interfaceUnavailable, s.tick)
    else
      (.bound,
        { s.tick with
          linkEndpoints := s.linkEndpoints.insert key ⟨binding, s.nextGeneration, none, [], false⟩
          nextGeneration := s.nextGeneration + 1 })

/-- Whether a link has an endpoint in the other role, if it has none in one. -/
def hasLink (linkId : Octets 16) : Bool := s.linkEndpoints.keys.any (·.1 = linkId)

/-- `unbind_link_endpoint`. -/
def unbindLinkEndpoint (linkId : Octets 16) (role : LinkEndpointRole) :
    LinkEndpointUnbindResult × LinkEndpoints F :=
  match s.linkEndpoints.get (linkId, role) with
  | some _ => (.unbound, s.terminateLinkEndpoint (linkId, role) .unbound)
  | none => (if s.hasLink linkId then .roleMismatch else .notBound, s)

/-! ### Sending -/

/-- A packet is handed on past the queue. -/
def pass (session : ℕ × LinkEndpointBinding) (raw : Bytes) (bestEffort : Bool) : LinkEndpoints F :=
  { s with log := s.log ++ [.passed session ⟨raw, none⟩ bestEffort] }

/-- A packet leaves the queue unsent, and whoever waits for it is told. -/
def giveUp (session : ℕ × LinkEndpointBinding) (packet : LinkEndpointQueuedPacket)
    (outcome : LinkEndpointDispatchOutcome) : LinkEndpoints F :=
  { s with
    log := s.log ++ [.discarded session packet] ++
      Queues.answers LinkEndpointQueuedPacket.ticket packet outcome }

/-- A packet leaves the head of the queue for the interface, and whoever waits for it is told. -/
def handOn (session : ℕ × LinkEndpointBinding) (packet : LinkEndpointQueuedPacket)
    (outcome : LinkEndpointDispatchOutcome) : LinkEndpoints F :=
  { s with
    log := s.log ++ [.drained session packet] ++
      Queues.answers LinkEndpointQueuedPacket.ticket packet outcome }

/-- The outcome of an operation whose packet was not queued. -/
def answer (completion : LinkEndpointDispatchCompletion) (outcome : LinkEndpointDispatchOutcome) :
    LinkEndpoints F :=
  { s with log := s.log ++ [.answered completion.id outcome] }

variable [Sha256]

/-- `prepare_link_endpoint_packet`. -/
def prepareLinkEndpointPacket (linkId : Octets 16) (interfaceId : ℕ) (request : OutboundRequest) :
    Option Bytes × LinkEndpoints F :=
  let isLocal := interfaceId = localLinkInitiatorInterface ∨
    interfaceId = localLinkResponderInterface
  let accepts := ((s.actor.observe (w s.readings)).interfaces.get interfaceId).any
    (·.acceptsClearPacket request.raw.length)
  if mtu < request.raw.length ∨ ¬ isLocal ∧ !accepts ∨ request.destinationHash ≠ linkId then
    (none, s.tick)
  else
    match PacketHeader.unpack request.raw with
    | .error _ => (none, s.tick)
    | .ok (header, _) =>
      if header.destinationHash ≠ linkId ∨ header.flags.destinationType ≠ .link then (none, s.tick)
      else
        let packetHashlist := match packetHash request.raw header.flags.headerType with
          | none => s.actor.packetHashlist
          | some hash => (s.actor.packetHashlist.insert hash).2
        let raw := if ¬ isLocal ∧ s.actor.shouldApplyDelta header interfaceId then
            request.raw.set 1 s.actor.localHopsDelta
          else request.raw
        (some raw, { s.tick with actor := { s.actor with packetHashlist } })

/-- `try_send` on the channel of the other side of a link within the node. -/
def trySendLocal (channel targetInterface : ℕ) (raw : Bytes) :
    Actor.InterfaceSendOutcome × LinkEndpoints F :=
  if (w s.readings).isClosed channel then (.closed, s.tick)
  else if (w s.readings).room channel = 0 then (.full, s.tick)
  else
    (.sent,
      { s.tick with
        handedOver := s.handedOver ++
          [(channel, .inboundPacket raw targetInterface (s.actor.interfaceOwner targetInterface))] })

variable [Ed25519] [Hkdf]

/-- `try_send_link_endpoint_raw`. What an interface takes is also in the log of the node, among the
packets it relays. -/
def trySendLinkEndpointRaw (interfaceId : ℕ) (linkId : Octets 16) (role : LinkEndpointRole)
    (raw : Bytes) : Actor.InterfaceSendOutcome × LinkEndpoints F :=
  if interfaceId = localLinkInitiatorInterface ∧ role = .initiator then
    match s.localLinkRoutes.get linkId with
    | none => (.missing, s)
    | some route => s.trySendLocal w route.responderTx localLinkResponderInterface raw
  else if interfaceId = localLinkResponderInterface ∧ role = .responder then
    match s.localLinkRoutes.get linkId with
    | none => (.missing, s)
    | some route => s.trySendLocal w route.initiatorTx localLinkInitiatorInterface raw
  else if interfaceId = localLinkInitiatorInterface ∨ interfaceId = localLinkResponderInterface then
    (.missing, s)
  else
    let (outcome, actor) :=
      (s.actor.observe (w s.readings)).trySendToInterface .relay interfaceId raw
    (outcome, { s.tick with actor })

/-- The first loop of `drain_one_link_endpoint`: what is left of a queue when tracked packets that
expired or were cancelled are gone. -/
def pruneQueue (session : ℕ × LinkEndpointBinding) :
    List LinkEndpointQueuedPacket → LinkEndpoints F →
      List LinkEndpointQueuedPacket × LinkEndpoints F
  | [], s => ([], s)
  | packet :: rest, s =>
    match packet.completion with
    | none =>
      let (kept, s) := pruneQueue session rest s
      (packet :: kept, s)
    | some completion =>
      match completion.terminalBeforeAdmission (w s.readings) with
      | some outcome => pruneQueue session rest (s.tick.giveUp session packet outcome)
      | none =>
        let (kept, s) := pruneQueue session rest s.tick
        (packet :: kept, s)

/-- The second loop of `drain_one_link_endpoint`: packets are sent from the head. It ends with what
is left of the queue, and with the outcome at which it stopped unless the queue is empty. -/
def drainQueue (session : ℕ × LinkEndpointBinding) :
    List LinkEndpointQueuedPacket → LinkEndpoints F →
      List LinkEndpointQueuedPacket × Option Actor.InterfaceSendOutcome × LinkEndpoints F
  | [], s => ([], none, s)
  | packet :: rest, s =>
    match packet.completion.bind (·.terminalBeforeAdmission (w s.readings)) with
    | some outcome => drainQueue session rest (s.tick.giveUp session packet outcome)
    | none =>
      match s.tick.trySendLinkEndpointRaw w session.2.interfaceId session.2.linkId session.2.role
          packet.raw with
      | (.sent, s) =>
        let hash := (PacketHeader.unpack packet.raw).toOption.bind fun e =>
          packetHash packet.raw e.1.flags.headerType
        drainQueue session rest
          (s.tick.handOn session packet (.sent hash (w s.readings).instant))
      | (.tooLarge, s) =>
        drainQueue session rest
          (s.giveUp session packet (.rejected .invalidPacket))
      | (outcome, s) => (packet :: rest, some outcome, s)

variable [DecidableEq F] [Binary64 F]

/-- The end of `drain_one_link_endpoint`, after its loops: the endpoint goes back into the table, or
it ends because of the outcome at which the loop stopped or because nothing is left to send. -/
def finishDrain (key : Octets 16 × LinkEndpointRole) (entry : LinkEndpointEntry)
    (stopped : Option Actor.InterfaceSendOutcome) :
    Except LinkEndpointTerminalReason Unit × LinkEndpoints F :=
  match stopped with
  | none =>
    if entry.unbindAfterDrain then (.ok (), s.finishLinkEndpointTerminal entry .unbound)
    else (.ok (), { s with linkEndpoints := s.linkEndpoints.insert key entry })
  | some outcome =>
    match terminalReasonForInterfaceOutcome outcome with
    | none => (.ok (), { s with linkEndpoints := s.linkEndpoints.insert key entry })
    | some reason =>
      let s := s.finishLinkEndpointTerminal entry reason
      (.error reason,
        if losesInterface outcome entry.binding.interfaceId then
          s.deregisterInterfaceWithLinkReason entry.binding.interfaceId reason
        else s)

/-- `drain_one_link_endpoint`. The endpoint is out of the table meanwhile. -/
def drainOneLinkEndpoint (key : Octets 16 × LinkEndpointRole) :
    Except LinkEndpointTerminalReason Unit × LinkEndpoints F :=
  match s.linkEndpoints.get key with
  | none => (.error .interfaceRemoved, s)
  | some entry =>
    let s := { s with linkEndpoints := s.linkEndpoints.erase key }
    if entry.publication.any fun publication =>
        (w s.readings).publication publication = 2 then
      (.error .unbound, s.tick.finishLinkEndpointTerminal entry .unbound)
    else
      let (kept, s) := pruneQueue w entry.session entry.egress s.tick
      let (egress, stopped, s) := drainQueue w entry.session kept s
      s.finishDrain key { entry with egress } stopped

/-- `drain_link_endpoint_egress`. -/
def drainLinkEndpointEgress : LinkEndpoints F :=
  s.linkEndpoints.keys.foldl (fun s key => (s.drainOneLinkEndpoint w key).2) s

/-- `enqueue_link_endpoint_packet`. -/
def enqueueLinkEndpointPacket (key : Octets 16 × LinkEndpointRole) (raw : Bytes) :
    LinkEndpointSendResult × LinkEndpoints F :=
  match s.linkEndpoints.get key with
  | none => (.notBound, s)
  | some entry =>
    if linkEndpointEgressQueueCapacity ≤ entry.egress.length then
      (.terminated .egressQueueExhausted, s.terminateLinkEndpoint key .egressQueueExhausted)
    else
      (.queued (entry.egress.length + 1),
        { s with
          linkEndpoints := s.linkEndpoints.insert key
            { entry with egress := entry.egress ++ [⟨raw, none⟩] }
          log := s.log ++ [.queued entry.session ⟨raw, none⟩] })

/-- The end of a send whose outcome is final: the endpoint ends, or all endpoints of the interface. -/
def terminateSend (key : Octets 16 × LinkEndpointRole) (interfaceId : ℕ)
    (outcome : Actor.InterfaceSendOutcome) : LinkEndpointSendResult × LinkEndpoints F :=
  match terminalReasonForInterfaceOutcome outcome with
  | none => (.invalidPacket, s)
  | some reason =>
    (.terminated reason,
      if losesInterface outcome interfaceId then
        s.deregisterInterfaceWithLinkReason interfaceId reason
      else s.terminateLinkEndpoint key reason)

/-- Why there is no endpoint for a link in a role. -/
def missingResult (linkId : Octets 16) : LinkEndpointSendResult :=
  if s.hasLink linkId then .roleMismatch else .notBound

/-- The end of `send_link_endpoint`, from the check for room in the queue. -/
def sendDrained (linkId : Octets 16) (role : LinkEndpointRole) (interfaceId : ℕ)
    (request : OutboundRequest) : LinkEndpointSendResult × LinkEndpoints F :=
  let key := (linkId, role)
  if (s.linkEndpoints.get key).any fun entry =>
      decide (linkEndpointEgressQueueCapacity ≤ entry.egress.length) then
    (.terminated .egressQueueExhausted, s.terminateLinkEndpoint key .egressQueueExhausted)
  else
    match s.prepareLinkEndpointPacket w linkId interfaceId request with
    | (none, s) => (.invalidPacket, s)
    | (some raw, s) =>
      match s.linkEndpoints.get key with
      | none => (.notBound, s)
      | some entry =>
        if !entry.egress.isEmpty then s.enqueueLinkEndpointPacket key raw
        else
          match s.trySendLinkEndpointRaw w interfaceId linkId role raw with
          | (.tooLarge, s) => (.invalidPacket, s)
          | (.sent, s) => (.sent, s.pass entry.session raw false)
          | (.full, s) => s.enqueueLinkEndpointPacket key raw
          | (outcome, s) => s.terminateSend key interfaceId outcome

/-- `send_link_endpoint`. -/
def sendLinkEndpoint (linkId : Octets 16) (role : LinkEndpointRole) (request : OutboundRequest) :
    LinkEndpointSendResult × LinkEndpoints F :=
  let key := (linkId, role)
  let s := s.retireUnpublishedLinkEndpoint w key
  match s.linkEndpoints.get key with
  | none => (s.missingResult linkId, s)
  | some entry =>
    if entry.unbindAfterDrain then (.terminated .unbound, s)
    else if entry.egress.isEmpty then s.sendDrained w linkId role entry.binding.interfaceId request
    else
      match s.drainOneLinkEndpoint w key with
      | (.error reason, s) => (.terminated reason, s)
      | (.ok (), s) => s.sendDrained w linkId role entry.binding.interfaceId request

/-- The handler of `SendLinkEndpointExact`. -/
def sendLinkEndpointExact (binding : LinkEndpointBinding) (generation : ℕ)
    (request : OutboundRequest) : LinkEndpointSendResult × LinkEndpoints F :=
  let key := (binding.linkId, binding.role)
  let s := s.retireUnpublishedLinkEndpoint w key
  if (s.linkEndpoints.get key).any fun entry =>
      decide (entry.binding = binding ∧ entry.generation = generation) then
    s.sendLinkEndpoint w binding.linkId binding.role request
  else (.notBound, s)

/-- `send_link_endpoint_and_unbind`. -/
def sendLinkEndpointAndUnbind (linkId : Octets 16) (role : LinkEndpointRole)
    (request : OutboundRequest) : LinkEndpointSendResult × LinkEndpoints F :=
  let key := (linkId, role)
  match s.sendLinkEndpoint w linkId role request with
  | (.sent, s) =>
    match s.linkEndpoints.get key with
    | none => (.sent, s)
    | some entry =>
      (.sent,
        (notifyLinkEndpointTerminal { s with linkEndpoints := s.linkEndpoints.erase key } entry
          .unbound).deregisterDestination entry.binding.linkId)
  | (.queued depth, s) =>
    (.queued depth,
      { s with
        linkEndpoints := s.linkEndpoints.modify key fun entry =>
          { entry with unbindAfterDrain := true } })
  | sent => sent

/-- `send_link_endpoint_best_effort`. -/
def sendLinkEndpointBestEffort (linkId : Octets 16) (role : LinkEndpointRole)
    (request : OutboundRequest) : LinkEndpointSendResult × LinkEndpoints F :=
  let key := (linkId, role)
  let s := s.retireUnpublishedLinkEndpoint w key
  match s.linkEndpoints.get key with
  | none => (s.missingResult linkId, s)
  | some entry =>
    if entry.unbindAfterDrain then (.terminated .unbound, s)
    else if !entry.egress.isEmpty then (.droppedBackpressure, s)
    else
      match s.prepareLinkEndpointPacket w linkId entry.binding.interfaceId request with
      | (none, s) => (.invalidPacket, s)
      | (some raw, s) =>
        if !s.linkEndpoints.contains key then (.notBound, s)
        else
          match s.trySendLinkEndpointRaw w entry.binding.interfaceId linkId role raw with
          | (.tooLarge, s) => (.invalidPacket, s)
          | (.sent, s) => (.sent, s.pass entry.session raw true)
          | (.full, s) => (.droppedBackpressure, s)
          | (outcome, s) => s.terminateSend key entry.binding.interfaceId outcome

/-! ### Tracked operations -/

/-- `handle_link_endpoint_dispatch` for a binding. -/
def dispatchBind (binding : LinkEndpointBinding) (publication : ℕ) : LinkEndpoints F :=
  if (w s.readings).abandoned publication ∨ (w s.readings).publication publication = 2 then s.tick
  else
    match s.tick.bindLinkEndpoint w binding with
    | (.bound, s) =>
      let key := (binding.linkId, binding.role)
      let s := { s with
        linkEndpoints := s.linkEndpoints.modify key fun entry =>
          { entry with publication := some publication } }
      s.retireUnpublishedLinkEndpoint w key
    | (_, s) => s

/-- The end of `handle_link_endpoint_dispatch` for a packet, from the check for room. -/
def dispatchDrained (binding : LinkEndpointBinding) (request : OutboundRequest)
    (completion : LinkEndpointDispatchCompletion) : LinkEndpoints F :=
  let key := (binding.linkId, binding.role)
  match s.linkEndpoints.get key with
  | none => s.answer completion (.rejected .notBound)
  | some entry =>
    if linkEndpointEgressQueueCapacity ≤ entry.egress.length then
      (s.terminateLinkEndpoint key .egressQueueExhausted).answer completion
        (.rejected (.terminated .egressQueueExhausted))
    else
      match s.prepareLinkEndpointPacket w binding.linkId binding.interfaceId request with
      | (none, s) => s.answer completion (.rejected .invalidPacket)
      | (some raw, s) =>
        let packet : LinkEndpointQueuedPacket := ⟨raw, some completion⟩
        let s : LinkEndpoints F := { s with
          linkEndpoints := s.linkEndpoints.insert key
            { entry with egress := entry.egress ++ [packet] }
          log := s.log ++ [.queued entry.session packet] }
        (s.drainOneLinkEndpoint w key).2

/-- `handle_link_endpoint_dispatch` for a packet. Each operation has a channel of its own. -/
def dispatchSend (binding : LinkEndpointBinding) (generation : ℕ) (request : OutboundRequest)
    (deadline : ℕ) : LinkEndpoints F :=
  let completion : LinkEndpointDispatchCompletion := ⟨s.nextCompletion, deadline⟩
  let seen := w s.readings
  let s := { s.tick with nextCompletion := s.nextCompletion + 1 }
  match completion.terminalBeforeAdmission seen with
  | some outcome => s.answer completion outcome
  | none =>
    let key := (binding.linkId, binding.role)
    let s := s.retireUnpublishedLinkEndpoint w key
    match s.linkEndpoints.get key with
    | none => s.answer completion (.rejected .notBound)
    | some entry =>
      if entry.binding ≠ binding ∨ entry.generation ≠ generation then
        s.answer completion (.rejected .notBound)
      else if entry.unbindAfterDrain then
        s.answer completion (.rejected (.terminated .unbound))
      else
        match s.drainOneLinkEndpoint w key with
        | (.error reason, s) => s.answer completion (.rejected (.terminated reason))
        | (.ok (), s) => s.dispatchDrained w binding request completion

end

end LinkEndpoints

/-! ### Runs -/

/-- What can happen to the endpoints of a node: messages about them, drains, the end of interfaces,
destinations and the node, and anything that the rest of the node does meanwhile. -/
inductive EndpointCall (F : Type)
  | bind (binding : LinkEndpointBinding)
  | unbind (linkId : Octets 16) (role : LinkEndpointRole)
  | send (linkId : Octets 16) (role : LinkEndpointRole) (request : OutboundRequest)
  | sendExact (binding : LinkEndpointBinding) (generation : ℕ) (request : OutboundRequest)
  | sendAndUnbind (linkId : Octets 16) (role : LinkEndpointRole) (request : OutboundRequest)
  | sendBestEffort (linkId : Octets 16) (role : LinkEndpointRole) (request : OutboundRequest)
  | dispatchBind (binding : LinkEndpointBinding) (publication : ℕ)
  | dispatchSend (binding : LinkEndpointBinding) (generation : ℕ) (request : OutboundRequest)
      (deadline : ℕ)
  | drain
  | interfaceReplaced (id : ℕ)
  | interfaceLost (id : ℕ) (reason : LinkEndpointTerminalReason)
  | destinationDeregistered (hash : Octets 16)
  | sharedConnectionChanged
  | shutdown
  | elsewhere (actor : Actor F) (localLinkRoutes : Table (Octets 16) LocalLinkRoute)

namespace LinkEndpoints

variable {F : Type} [Sha256] [Ed25519] [Hkdf] [DecidableEq F] [Binary64 F] (w : ℕ → Surroundings)

/-- The endpoints after a call. The rest of the node does anything meanwhile, but what it sends is not
in the log of what the endpoints sent. -/
def call (s : LinkEndpoints F) : EndpointCall F → LinkEndpoints F
  | .bind binding => (s.bindLinkEndpoint w binding).2
  | .unbind linkId role => (s.unbindLinkEndpoint linkId role).2
  | .send linkId role request => (s.sendLinkEndpoint w linkId role request).2
  | .sendExact binding generation request =>
    (s.sendLinkEndpointExact w binding generation request).2
  | .sendAndUnbind linkId role request => (s.sendLinkEndpointAndUnbind w linkId role request).2
  | .sendBestEffort linkId role request => (s.sendLinkEndpointBestEffort w linkId role request).2
  | .dispatchBind binding publication => s.dispatchBind w binding publication
  | .dispatchSend binding generation request deadline =>
    s.dispatchSend w binding generation request deadline
  | .drain => s.drainLinkEndpointEgress w
  | .interfaceReplaced id => s.terminateLinkEndpointsForInterface id .interfaceRemoved
  | .interfaceLost id reason => s.deregisterInterfaceWithLinkReason id reason
  | .destinationDeregistered hash => s.deregisterDestination hash
  | .sharedConnectionChanged => s.terminateSharedPeerLinkEndpoints
  | .shutdown => s.terminateAllLinkEndpoints .transportShutdown
  | .elsewhere actor localLinkRoutes =>
    { s with
      actor := { actor with transmissions := s.actor.transmissions }
      localLinkRoutes }

/-- The endpoints after a sequence of calls. -/
def after (s : LinkEndpoints F) (calls : List (EndpointCall F)) : LinkEndpoints F :=
  calls.foldl (call w) s

end LinkEndpoints

end Reticulum.Transport
