import Reticulum.Identity.Announce
import Reticulum.Transport.Receipts
import Reticulum.Transport.Tables

/-!
# The transport actor

The state of a node and what all of its parts use: sending to an interface, removing one, and the
questions about the roles of interfaces. The state follows `actor/mod.rs`, `messages.rs` and
`actor/announce_admission.rs` of the `rns-transport` crate. Counters, logs, persistence and the
endpoints of local links are left out: no function modelled here reads them.

A channel is given by its identity, the room left in it and whether its receiver is gone. What
interfaces accept and what local destinations receive is kept as a log.
-/

namespace Reticulum.Transport

open Wire

/-! ### Interfaces -/

/-- A bounded channel. -/
structure Channel where
  id : ℕ
  room : ℕ
  closed : Bool
  deriving DecidableEq, Repr

/-- `HeldAnnounce`: a received announce that the ingress controller keeps for later. -/
structure HeldAnnounce where
  raw : Bytes
  destinationHash : Octets 16
  hops : UInt8
  receivingInterfaceId : ℕ
  deriving DecidableEq, Repr

/-- `QueuedAnnounce`: an announce that waits for its turn on an interface. -/
structure QueuedAnnounce (F : Type) where
  destinationHash : Octets 16
  time : F
  hops : UInt8
  raw : Bytes

/-- `InterfaceEntry` of `messages.rs`. The owner is the identity of the registration; `background`
says whether the driver takes announces when it is idle. -/
structure Interface (F : Type) extends InterfaceEntry where
  owner : ℕ
  mode : InterfaceMode
  role : InterfaceRole
  outbound : Bool
  bitrate : ℕ
  tx : Channel
  announceCap : F
  announceAllowedAt : F
  announceRateTarget : Option F
  online : Option Bool
  heldAnnounces : Table (Octets 16) HeldAnnounce
  maxHeld : ℕ
  announceQueue : List (QueuedAnnounce F)
  recursivePrs : Bool
  announcesFromInternal : Bool
  background : Bool

namespace Interface

variable {F : Type} (entry : Interface F)

/-- `InterfaceEntry::effective_clear_mtu`. -/
def effectiveClearMtu : Except InterfaceCapacityError ℕ :=
  if entry.ifacKey.isSome ∧ ¬(1 ≤ entry.ifacSize ∧ entry.ifacSize ≤ 64) then .error .invalidIfac
  else entry.packetCapacity.effectiveClearMtu entry.activeIfacBytes

/-- `InterfaceEntry::accepts_clear_packet`. -/
def acceptsClearPacket (len : ℕ) : Bool :=
  entry.ownerIsCurrent && entry.effectiveClearMtu.toOption.any (len ≤ ·) &&
    decide (len + entry.activeIfacBytes ≤ entry.packetCapacity.maxWirePacketBytes)

/-- `interface_marked_offline`. -/
def markedOffline : Bool := (entry.online.map (!·)).getD false

/-- The link ceiling of the interface under its id. -/
def linkCeiling (id : ℕ) : Except InterfaceCapacityError ℕ :=
  entry.packetCapacity.linkCeiling id entry.activeIfacBytes

/-- The bytes on the wire for a packet, with its access code if the interface has a key. -/
def wire [Sha256] [Ed25519] [Hkdf] (raw : Bytes) : Option Bytes :=
  match entry.ifacKey with
  | none => some raw
  | some key => (tryIfacSign raw key entry.ifacSize).toOption

end Interface

/-! ### The state -/

/-- `RouteVersion`: what distinguishes one version of a path from another. -/
structure RouteVersion (F : Type) where
  interfaceId : ℕ
  nextHop : Option (Octets 16)
  hops : UInt8
  packetHash : Option (Octets 32)
  latestBlob : Option (Octets 10)
  unversionedTimestamp : Option F
  deriving DecidableEq

/-- `RouteVersion::from_path`. -/
def RouteVersion.fromPath {F : Type} (path : RouteEntry F) : RouteVersion F where
  interfaceId := path.interfaceId
  nextHop := path.nextHop
  hops := path.hops
  packetHash := path.packetHash
  latestBlob := path.randomBlobs.getLast?
  unversionedTimestamp :=
    if path.packetHash.isNone && path.randomBlobs.isEmpty then some path.timestamp else none

/-- `PendingAnnounce`: an announce that an interface refused and that is tried again. The local
owner is a destination with the identity of its channel; `cached` names a queued path response. -/
structure PendingAnnounce (F : Type) where
  interface : ℕ
  channel : ℕ
  raw : Bytes
  wire : Bytes
  localOwner : Option (Octets 16 × Option ℕ)
  route : Option (RouteVersion F)
  deadline : ℕ
  attached : Bool
  cached : Option (Octets 16 × F)

/-- `OfferedAnnounce`: an announce offered to a driver for its next idle time. -/
structure OfferedAnnounce (F : Type) where
  channel : ℕ
  raw : Bytes
  destination : Octets 16
  route : Option (RouteVersion F)
  policy : ℕ × F × Option (Octets 64) × ℕ

/-- `DiscoveryOperation`, with interface and channel of each requester. -/
structure DiscoveryOperation (F : Type) where
  id : ℕ
  timeout : F
  requesters : List (ℕ × ℕ)

/-- `PendingAdmission`: a path request that an interface refused and that is tried again. -/
structure PendingAdmission (F : Type) where
  destination : Octets 16
  interface : ℕ
  generation : ℕ
  raw : Bytes
  recursive : Bool
  deadline : F
  nextTry : F
  initialRoute : Option (RouteVersion F)
  discoveryOwner : Option ℕ

/-- `RecentAnnounce`. -/
structure RecentAnnounce (F : Type) where
  destHash : Octets 16
  hops : UInt8
  appData : Option Bytes
  timestamp : F
  publicKey : Option (Octets 64)
  ratchet : Option (Octets 32)
  packetHash : Option (Octets 32)
  isPathResponse : Bool
  retained : Bool
  lastUsed : Option F
  nameHash : Octets 10

/-- An entry of `BlackholeTable`. -/
structure BlackholeEntry (F : Type) where
  created : F
  ttl : Option F

/-- Why a packet was sent: as the forward of a received one, as the relay of one along a link that
crosses the node, as an announce or as a request for a path. -/
inductive Cause
  | forward
  | relay
  | announce
  | pathRequest
  deriving DecidableEq, Repr

/-- A packet that an interface accepted, before its access code is added. -/
structure Transmission where
  cause : Cause
  interfaceId : ℕ
  raw : Bytes
  deriving DecidableEq, Repr

/-- `DestinationEvent`, where the node makes one for a received packet. -/
inductive DestinationEvent
  | linkRequest (raw : Bytes) (interfaceId : ℕ) (interfaceOwner : Option ℕ)
  | inboundPacket (raw : Bytes) (interfaceId : ℕ) (interfaceOwner : Option ℕ)
  | deliveryProof (proof : DeliveryProof)
  | announceRequested (tag : Bytes) (attachedInterface : ℕ)
  deriving DecidableEq, Repr

/-- The times at which `on_tick` last did its periodic work. -/
structure Timers (F : Type) where
  startupComplete : Bool
  startupTime : F
  lastTablesCull : F
  lastAnnouncesCheck : F
  lastHeldAnnounceCheck : F
  lastBlackholeCheck : F
  lastReceiptsCheck : F
  lastCacheClean : F
  lastAnnounceCacheSweep : F
  lastDiscoveryPrTx : F

/-- `TransportActor`. The cache of announces on disk is absent without a storage directory. -/
structure Actor (F : Type) where
  interfaces : Table ℕ (Interface F)
  pathTable : PathTable F
  linkTable : LinkTable F
  announceTable : Table (Octets 16) (AnnounceEntry F)
  heldAnnounces : Table (Octets 16) (AnnounceEntry F)
  reverseTable : Table (Octets 16) (ReverseEntry F)
  tunnelTable : TunnelTable F
  packetHashlist : PacketHashlist
  blackholeTable : Table (Octets 16) (BlackholeEntry F)
  receipts : Receipts
  localDestinations : List (Octets 16)
  destinationChannels : Table (Octets 16) Channel
  pendingLocalLinkRequests : Table (Octets 16) (Table ℕ ℕ)
  pathRequests : Table (Octets 16) F
  discoveryPathRequests : Table (Octets 16) (DiscoveryOperation F)
  nextDiscovery : ℕ
  discoveryPrTags : Table Bytes F
  pathInterfaceSuppressions : Table (Octets 16 × ℕ) F
  pendingLocalPathRequests : Table (Octets 16) ℕ
  pendingDiscoveryPrs : List (Octets 16 × Option ℕ)
  pendingPathRequestAdmissions : List (PendingAdmission F)
  pendingAnnounceAdmissions : List (PendingAnnounce F)
  offeredAnnounces : Table ℕ (OfferedAnnounce F)
  recentAnnounces : Table (Octets 16) (RecentAnnounce F)
  announceCache : Option (Table (Octets 32) Bytes)
  isTransportEnabled : Bool
  transportIdentityHash : Option (Octets 16)
  localHopsDelta : UInt8
  isSharedInstance : Bool
  sharedInstanceClientMode : Bool
  timers : Timers F
  transmissions : List Transmission
  deliveries : List (Octets 16 × DestinationEvent)

/-- What `try_recv` says about an announce offered to a driver. -/
inductive OfferState (F : Type)
  | started (time : F)
  | waiting
  | closed

/-- What a step reads besides the state: the wall clock and the monotonic clock, the verdicts of
the rate limiters of an interface or a destination, random delays and tags, what the drivers did
with offered announces, and which files of the cache can be written, read and removed. -/
structure Moment (F : Type) where
  now : F
  instant : ℕ
  ingressLimit : ℕ → Bool
  ingressLimitPr : ℕ → Bool
  egressLimitPr : ℕ → Bool
  releasesHeld : ℕ → Bool
  interfaceRateBlocked : Octets 16 → Bool
  randWindow : Octets 16 → F
  randomTag : ℕ → Octets 16
  offerState : ℕ → OfferState F
  takesOffer : ℕ → Bool
  cacheWrites : Octets 32 → Bool
  cacheReads : Octets 32 → Bool
  sweeps : Octets 32 → Bool

namespace Actor

variable {F : Type} (s : Actor F)

/-! ### Roles of interfaces -/

/-- Whether an interface is registered in a role. -/
def hasRole (id : ℕ) (role : InterfaceRole) : Bool :=
  (s.interfaces.get id).any fun entry => entry.role = role

/-- `is_local_client_interface`. -/
def isLocalClientInterface (id : ℕ) : Bool := s.hasRole id .localClient

/-- `is_shared_instance_peer_interface`. -/
def isSharedInstancePeerInterface (id : ℕ) : Bool := s.hasRole id .sharedInstancePeer

/-- `has_local_client_interfaces`. -/
def hasLocalClientInterfaces : Bool := s.interfaces.values.any fun entry => entry.role = .localClient

/-- `local_client_interface_ids_except`. -/
def localClientInterfaceIdsExcept (except : Option ℕ) : List ℕ :=
  (s.interfaces.toList.filter fun e => except ≠ some e.1 ∧ e.2.role = .localClient).map Prod.fst

/-- `adjusted_inbound_hops`. -/
def adjustedInboundHops (rawHops : UInt8) (interfaceId : ℕ) : UInt8 :=
  let hops := if rawHops = 255 then 255 else rawHops + 1
  if s.hasLocalClientInterfaces then
    if s.isLocalClientInterface interfaceId then (if hops = 0 then 0 else hops - 1) else hops
  else if s.isSharedInstancePeerInterface interfaceId then (if hops = 0 then 0 else hops - 1)
  else hops

/-- `link_registration_is_current`. -/
def linkRegistrationIsCurrent (entry : LinkEntry F) : Bool :=
  [(entry.interfaceId, entry.interfaceOwner), (entry.receivingInterface, entry.receivingOwner)].all
    fun (id, owner) => owner.any fun owner =>
      (s.interfaces.get id).any fun current => current.ownerIsCurrent && current.owner = owner

/-- What forwarding reads of the node at a time. -/
def forwarding [Binary64 F] (now : F) : TransportActor where
  path destHash := (s.pathTable.getLive now destHash).map (·.toPathEntry)
  interfaces id := (s.interfaces.get id).map (·.toInterfaceEntry)
  linkTable := Table.keys s.linkTable
  transportIdentityHash := s.transportIdentityHash
  isTransportEnabled := s.isTransportEnabled
  localHopsDelta := s.localHopsDelta

/-- A node without local clients, without a shared instance and its peer, and without hop delta. -/
structure Bare : Prop where
  role : ∀ id entry, s.interfaces.get id = some entry →
    entry.role ≠ .localClient ∧ entry.role ≠ .sharedInstancePeer
  localHopsDelta : s.localHopsDelta = 0
  isSharedInstance : s.isSharedInstance = false

/-! ### Delivering to a local destination -/

/-- `try_send` on the channel of a destination: whether it has one, and whether it took the event. -/
def deliver (destHash : Octets 16) (event : DestinationEvent) : Option Bool × Actor F :=
  match s.destinationChannels.get destHash with
  | none => (none, s)
  | some channel =>
    if channel.closed ∨ channel.room = 0 then (some false, s)
    else
      (some true,
        { s with
          destinationChannels := s.destinationChannels.insert destHash
            { channel with room := channel.room - 1 }
          deliveries := s.deliveries ++ [(destHash, event)] })

/-- The owner of an interface. -/
def interfaceOwner (id : ℕ) : Option ℕ := (s.interfaces.get id).map (·.owner)

/-! ### Removing an interface -/

section

variable [DecidableEq F]

/-- `finish_cached_response`. -/
def finishCachedResponse (cached : Option (Octets 16 × F)) (raw : Bytes) (id : ℕ) : Actor F :=
  match cached with
  | none => s
  | some (hash, timestamp) =>
    if (s.announceTable.get hash).any fun entry => entry.blockRebroadcast &&
        entry.attachedInterface = some id && entry.packetRaw = raw &&
        entry.timestamp = timestamp then
      let announceTable := s.announceTable.erase hash
      match s.heldAnnounces.get hash with
      | none => { s with announceTable }
      | some held =>
        { s with
          announceTable := announceTable.insert hash held
          heldAnnounces := s.heldAnnounces.erase hash }
    else s

/-- `retire_announce_interface`. -/
def retireAnnounceInterface (id : ℕ) : Actor F :=
  let finished := s.pendingAnnounceAdmissions.foldl
    (fun s pending =>
      if pending.interface = id then s.finishCachedResponse pending.cached pending.raw id else s)
    { s with offeredAnnounces := s.offeredAnnounces.erase id }
  { finished with
    pendingAnnounceAdmissions := s.pendingAnnounceAdmissions.filter (·.interface ≠ id) }

end

/-- `retire_orphaned_discovery_admissions`. -/
def retireOrphanedDiscoveryAdmissions : Actor F :=
  { s with
    pendingPathRequestAdmissions := s.pendingPathRequestAdmissions.filter fun pending =>
      pending.discoveryOwner.all fun owner =>
        (s.discoveryPathRequests.get pending.destination).any fun current => current.id = owner }

/-- `retire_recursive_discovery_interface`. -/
def retireRecursiveDiscoveryInterface (id : ℕ) : Actor F :=
  let left := s.discoveryPathRequests.mapValues fun _ operation =>
    { operation with requesters := operation.requesters.filter (·.1 ≠ id) }
  Actor.retireOrphanedDiscoveryAdmissions
    { s with discoveryPathRequests := left.retain fun _ operation => !operation.requesters.isEmpty }

/-- `retire_path_request_admissions`. -/
def retirePathRequestAdmissions (id : ℕ) : Actor F :=
  { s with
    pendingPathRequestAdmissions :=
      s.pendingPathRequestAdmissions.filter fun pending => pending.interface ≠ id }

/-- `clear_shared_connection_state`. -/
def clearSharedConnectionState [Binary64 F] : Actor F :=
  { s with
    pathTable := ⟨∅, ∅⟩
    linkTable := (∅ : Table _ _)
    announceTable := ∅
    heldAnnounces := ∅
    reverseTable := ∅
    tunnelTable := ⟨∅, ∅⟩
    pathRequests := ∅
    receipts := s.receipts.clearSharedConnectionState
    discoveryPathRequests := ∅
    pendingLocalPathRequests := ∅
    pendingDiscoveryPrs := []
    pendingPathRequestAdmissions := []
    timers := { s.timers with lastDiscoveryPrTx := Binary64.ofRat 0 } }

/-- `deregister_interface_with_link_reason`. -/
def deregisterInterface [DecidableEq F] [Binary64 F] (id : ℕ) : Actor F :=
  let role := (s.interfaces.get id).map (·.role)
  let s := { s with
    linkTable := s.linkTable.removeInterface id
    tunnelTable := s.tunnelTable.voidInterface id
    pathTable := s.pathTable.dropAllVia id
    pathInterfaceSuppressions := s.pathInterfaceSuppressions.retain fun key _ => key.2 ≠ id
    pendingLocalPathRequests := s.pendingLocalPathRequests.retain fun _ waiting => waiting ≠ id }
  let s := ((s.retireRecursiveDiscoveryInterface id).retirePathRequestAdmissions
    id).retireAnnounceInterface id
  let s := { s with interfaces := s.interfaces.erase id }
  if role = some .sharedInstancePeer then
    Actor.clearSharedConnectionState
      { s with isSharedInstance := false, sharedInstanceClientMode := true }
  else s

/-! ### Sending -/

/-- `InterfaceSendOutcome`. -/
inductive InterfaceSendOutcome
  | sent
  | full
  | missing
  | closed
  | offline
  | notOutbound
  | tooLarge
  deriving DecidableEq, Repr

section

variable [Sha256]

/-- An interface took a packet. -/
def accept (cause : Cause) (id : ℕ) (entry : Interface F) (raw : Bytes) : Actor F :=
  { s with
    interfaces := s.interfaces.insert id
      { entry with tx := { entry.tx with room := entry.tx.room - 1 } }
    transmissions := s.transmissions ++ [⟨cause, id, raw⟩] }

/-- The request in a packet: its link id, if a local destination waits for that link, and where its
payload begins. -/
def requestOwner (raw : Bytes) : Option (Octets 16 × ℕ) := do
  let (header, offset) ← (PacketHeader.unpack raw).toOption
  if header.flags.packetType ≠ .linkRequest then none
  else
    let linkId ← linkIdFromRaw raw header.flags.headerType
    if s.destinationChannels.contains linkId then some (linkId, offset) else none

/-- Why `try_send_to_interface` refuses a link request of a local destination, if it does. -/
def refuseOwnRequest (entry : Interface F) (id : ℕ) (raw : Bytes) (linkId : Octets 16)
    (offset : ℕ) : Option InterfaceSendOutcome :=
  match parseRequestSignalling (raw.drop offset) with
  | .error _ => some .tooLarge
  | .ok signal =>
    if signal.mode ≠ defaultLinkMode ∨ 500 < signal.mtu.get ∨
        (entry.linkCeiling id).toOption = none then some .tooLarge
    else
      match s.pendingLocalLinkRequests.get linkId with
      | some owners =>
        if (owners.get id).any (fun owner => owner ≠ entry.owner) ||
            (!owners.contains id && decide (64 ≤ owners.size)) then some .missing
        else none
      | none => if 4096 ≤ s.pendingLocalLinkRequests.size then some .full else none

variable [Ed25519] [Hkdf]

/-- Why `try_send_to_interface` refuses a packet on a registered interface, if it does. -/
def sendRefusal (entry : Interface F) (id : ℕ) (raw : Bytes) : Option InterfaceSendOutcome :=
  let isRequest := (PacketHeader.unpack raw).toOption.any fun e =>
    e.1.flags.packetType = .linkRequest
  if !entry.ownerIsCurrent then some .missing
  else if !entry.acceptsClearPacket raw.length then some .tooLarge
  else if entry.role = .localClient && entry.markedOffline then some .offline
  else if !entry.outbound then some .notOutbound
  else if isRequest && (entry.linkCeiling id).toOption.isNone then some .tooLarge
  else
    match (s.requestOwner raw).bind fun e => s.refuseOwnRequest entry id raw e.1 e.2 with
    | some refusal => some refusal
    | none =>
      if (entry.wire raw).isNone then some .tooLarge
      else if entry.tx.closed then some .closed
      else if entry.tx.room = 0 then some .full
      else none

/-- `try_send_to_interface`. -/
def trySendToInterface (cause : Cause) (id : ℕ) (raw : Bytes) : InterfaceSendOutcome × Actor F :=
  match s.interfaces.get id with
  | none => (.missing, s)
  | some entry =>
    match s.sendRefusal entry id raw with
    | some refusal => (refusal, s)
    | none =>
      let pendingLocalLinkRequests := match s.requestOwner raw with
        | none => s.pendingLocalLinkRequests
        | some (linkId, _) =>
          let owners := (s.pendingLocalLinkRequests.get linkId).getD ∅
          s.pendingLocalLinkRequests.insert linkId
            (if owners.contains id then owners else owners.insert id entry.owner)
      (.sent, { s.accept cause id entry raw with pendingLocalLinkRequests })

/-- `send_to_interface`. -/
def sendToInterface [DecidableEq F] [Binary64 F] (cause : Cause) (id : ℕ) (raw : Bytes) :
    Bool × Actor F :=
  match s.trySendToInterface cause id raw with
  | (.sent, s) => (true, s)
  | (.closed, s) | (.offline, s) => (false, s.deregisterInterface id)
  | (_, s) => (false, s)

end

end Actor

end Reticulum.Transport
