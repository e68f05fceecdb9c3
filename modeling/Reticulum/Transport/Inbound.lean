import Reticulum.Transport.Requests

/-!
# Inbound packets

What a node does with a packet that an interface receives: it strips the access code, filters,
checks for duplicates and hands the packet to the code for its type. The functions follow
`actor/inbound.rs` of the `rns-transport` crate. Where the source leaves a function early, the
function here is cut into parts. Events for announce handlers and callers that wait for a path are
left out, and so are counters of violations and traffic.
-/

namespace Reticulum.Transport

open Wire Binary64

variable {F : Type}

/-- `InboundOrigin`. -/
inductive InboundOrigin
  | wire
  | heldAnnounce
  | cachedAnnounce
  deriving DecidableEq, Repr

/-- The contexts whose packets may repeat. -/
def skipsHashlist : PacketContext → Bool
  | .keepalive | .resource | .resourceReq | .resourcePrf | .cacheRequest | .channel => true
  | _ => false

/-- The random blobs of a path with that of its newest announce. -/
def pushRandomBlob (randomBlobs : List (Octets 10)) (randomHash : Octets 10) : List (Octets 10) :=
  if randomHash ∈ randomBlobs then randomBlobs
  else
    (if maxRandomBlobs ≤ randomBlobs.length then randomBlobs.drop 1 else randomBlobs) ++
      [randomHash]

/-- `IngressController::hold_announce`. -/
def Interface.holdAnnounce (entry : Interface F) (announce : HeldAnnounce) : Interface F :=
  if pathfinderM - 1 ≤ announce.hops then entry
  else if entry.heldAnnounces.contains announce.destinationHash ∨
      entry.heldAnnounces.size < entry.maxHeld then
    { entry with
      heldAnnounces := entry.heldAnnounces.insert announce.destinationHash announce }
  else entry

/-- `has_ifac_flag`. -/
def hasIfacFlag (raw : Bytes) : Bool := raw.getD 0 0 &&& ifacFlag ≠ 0

/-- The packet on an interface without its access code. -/
def Interface.clear [Sha256] [Ed25519] [Hkdf] (entry : Interface F) (origin : InboundOrigin)
    (raw : Bytes) : Option Bytes :=
  if origin ≠ .wire then some raw
  else
    match entry.ifacKey with
    | some key => ifacVerify raw key entry.ifacSize
    | none => if hasIfacFlag raw then none else some raw

namespace Actor

/-! ### Announces -/

section

variable [Binary64 F] (s : Actor F)

/-- `BlackholeTable::is_blackholed`. -/
def isBlackholed (m : Moment F) (identityHash : Octets 16) : Bool :=
  (s.blackholeTable.get identityHash).any fun entry =>
    entry.ttl.all fun ttl => lt (sub m.now entry.created) ttl

/-- An announce whose signature holds, with its identity, unless that is blackholed. -/
def verifiedAnnounce [Sha256] [Ed25519] (m : Moment F) (raw : Bytes) (header : PacketHeader)
    (dataOffset : ℕ) : Option (AnnounceData × Identity) :=
  if raw.length ≤ dataOffset then none
  else
    (AnnounceData.unpack (raw.drop dataOffset) header.flags.contextFlag).toOption.bind fun announce =>
      ((announce.verifySignature header.destinationHash).toOption.filter fun identity =>
        !s.isBlackholed m identity.hash).map fun identity => (announce, identity)

/-- Whether the ingress controller holds an announce back. -/
def limitsAnnounce (m : Moment F) (destinationHash : Octets 16) (interfaceId : ℕ) : Bool :=
  let announcedDestinationKnown := (s.pathTable.get destinationHash).isSome
  let answersPathRequest := s.pathRequests.contains destinationHash ||
    (s.discoveryPathRequests.get destinationHash).any fun request =>
      lt m.now request.timeout
  s.interfaces.contains interfaceId && !s.isLocalClientInterface interfaceId &&
    !announcedDestinationKnown && !answersPathRequest && m.ingressLimit interfaceId

/-- The public key known for a destination. -/
def knownKey (destHash : Octets 16) : Option (Octets 64) :=
  (s.recentAnnounces.get destHash).bind (·.publicKey)

/-- What is remembered of an announce, whether or not its path is used. -/
def rememberedAnnounce (m : Moment F) (header : PacketHeader) (announce : AnnounceData)
    (identity : Identity) : RecentAnnounce F :=
  match s.recentAnnounces.get header.destinationHash with
  | some known =>
    { known with
      timestamp := m.now
      publicKey := some identity.getPublicKey
      appData := announce.appData
      ratchet := if announce.ratchet.isSome then announce.ratchet else known.ratchet }
  | none =>
    { destHash := header.destinationHash
      hops := header.hops
      appData := announce.appData
      timestamp := m.now
      publicKey := some identity.getPublicKey
      ratchet := announce.ratchet
      packetHash := none
      isPathResponse := header.context = .pathResponse
      retained := false
      lastUsed := none
      nameHash := announce.nameHash }

/-- The announce is remembered. -/
def rememberAnnounce (m : Moment F) (header : PacketHeader) (announce : AnnounceData)
    (identity : Identity) : Actor F :=
  { s with
    recentAnnounces := s.recentAnnounces.insert header.destinationHash
      (s.rememberedAnnounce m header announce identity) }

/-- A neighbour carried the announce already: our own copy is dropped, or counts as sent. -/
def cancelRebroadcast (m : Moment F) (header : PacketHeader) : Actor F :=
  match if s.isTransportEnabled then s.announceTable.get header.destinationHash else none with
  | none => s
  | some existing =>
    if 0 < header.hops ∧ header.hops - 1 = existing.hops ∧ 0 < existing.retries then
      if localRebroadcastsMax ≤ existing.localRebroadcasts + 1 then
        { s with announceTable := s.announceTable.erase header.destinationHash }
      else
        { s with
          announceTable := s.announceTable.modify header.destinationHash fun entry =>
            { entry with localRebroadcasts := existing.localRebroadcasts + 1 } }
    else if 0 < header.hops ∧ header.hops - 1 = existing.hops + 1 ∧ 0 < existing.retries ∧
        lt m.now existing.retransmitTimeout then
      { s with announceTable := s.announceTable.erase header.destinationHash }
    else s

/-- `is_path_interface_suppressed`, without the removal of what no longer counts. -/
def isPathInterfaceSuppressed (m : Moment F) (destinationHash : Octets 16) (interfaceId : ℕ) :
    Bool :=
  (s.pathInterfaceSuppressions.get (destinationHash, interfaceId)).any (lt m.now ·)

/-- The removal in `is_path_interface_suppressed`. -/
def liftSuppression (m : Moment F) (destinationHash : Octets 16) (interfaceId : ℕ) : Actor F :=
  if s.isPathInterfaceSuppressed m destinationHash interfaceId then s
  else
    { s with
      pathInterfaceSuppressions :=
        s.pathInterfaceSuppressions.erase (destinationHash, interfaceId) }

/-- The decision of `process_announce` whether the path is learned. -/
def improvesPath (m : Moment F) (header : PacketHeader) (randomHash : Octets 10)
    (interfaceId : ℕ) : Bool :=
  if s.isPathInterfaceSuppressed m header.destinationHash interfaceId then false
  else
    match s.pathTable.get header.destinationHash with
    | none => true
    | some existing =>
      let randomSeen := decide (randomHash ∈ existing.randomBlobs)
      let pathTimebase := pathTimebaseFromRandomBlobs existing.randomBlobs
      let announceEmitted := announceTimebase randomHash
      if header.hops ≤ existing.hops then !randomSeen && decide (pathTimebase < announceEmitted)
      else if existing.isExpired m.now || decide (pathTimebase < announceEmitted) then !randomSeen
      else if announceEmitted = pathTimebase then
        decide (s.pathTable.getState header.destinationHash = .unresponsive)
      else false

/-- Whether an announce is kept from being sent on for its rate. -/
def rateBlocks (m : Moment F) (header : PacketHeader) (interfaceId : ℕ) : Bool :=
  decide (header.context ≠ .pathResponse) &&
    ((s.interfaces.get interfaceId).any fun entry => entry.announceRateTarget.isSome) &&
    m.interfaceRateBlocked header.destinationHash

/-- The announce enters the table of those to send on. -/
def queueRebroadcast (m : Moment F) (raw : Bytes) (header : PacketHeader) (interfaceId : ℕ) :
    Actor F :=
  let isFromLocalClient := s.isLocalClientInterface interfaceId
  if !s.rateBlocks m header interfaceId && (s.isTransportEnabled || isFromLocalClient) &&
      decide (header.context ≠ .pathResponse) && decide (header.hops < pathfinderM) then
    { s with
      announceTable := s.announceTable.insert header.destinationHash
        { timestamp := m.now
          retransmitTimeout :=
            if isFromLocalClient then m.now
            else add m.now (m.randWindow header.destinationHash)
          retries := if isFromLocalClient then pathfinderR else 0
          receivedFrom := header.transportId.getD header.destinationHash
          hops := header.hops
          packetRaw :=
            s.transportAnnounceFromRaw raw header.destinationHash header.hops .none
          localRebroadcasts := 0
          blockRebroadcast := false
          attachedInterface := none
          sourceInterface := some interfaceId } }
  else s

/-- The path that an announce stands for. -/
def announcedPath [Sha256] (m : Moment F) (raw : Bytes) (header : PacketHeader)
    (randomHash : Octets 10) (interfaceId : ℕ) : RouteEntry F :=
  let mode := ((s.interfaces.get interfaceId).map (·.mode)).getD .gateway
  let known := ((s.pathTable.get header.destinationHash).map (·.randomBlobs)).getD []
  { RouteEntry.new m.now header.transportId header.hops interfaceId mode with
    randomBlobs := pushRandomBlob known randomHash
    packetHash := packetHash raw header.flags.headerType }

/-- The path is learned, also by the tunnel on the interface. -/
def learnPath [Sha256] (m : Moment F) (raw : Bytes) (header : PacketHeader)
    (randomHash : Octets 10) (interfaceId : ℕ) : Actor F :=
  let entry := s.announcedPath m raw header randomHash interfaceId
  { s with
    pathTable := s.pathTable.insert header.destinationHash entry
    tunnelTable := s.tunnelTable.learn m.now interfaceId header.destinationHash
      { timestamp := entry.timestamp
        nextHop := entry.nextHop
        hops := entry.hops
        expires := entry.expires
        randomBlobs := entry.randomBlobs
        packetHash := entry.packetHash } }

/-- `cache_announce_to_disk`. -/
def cacheAnnounceToDisk [Sha256] (m : Moment F) (raw : Bytes) (header : PacketHeader) : Actor F :=
  match packetHash raw header.flags.headerType with
  | none => s
  | some hash =>
    { s with
      announceCache := s.announceCache.map fun cache =>
        if s.sharedInstanceClientMode || cache.contains hash || !m.cacheWrites hash then cache
        else cache.insert hash raw }

/-- The remembered announce takes the metadata of its path. -/
def noteAnnounce [Sha256] (raw : Bytes) (header : PacketHeader) (announce : AnnounceData) :
    Actor F :=
  { s with
    recentAnnounces := s.recentAnnounces.modify header.destinationHash fun known =>
      { known with
        hops := header.hops
        ratchet := announce.ratchet
        packetHash := packetHash raw header.flags.headerType
        isPathResponse := header.context = .pathResponse } }

end

section

variable [Sha256] [Ed25519] [Hkdf] [DecidableEq F] [Binary64 F] (s : Actor F)

/-- The search for the path of an announce ends. -/
def answerSearch (m : Moment F) (raw : Bytes) (header : PacketHeader) (interfaceId : ℕ) :
    Actor F :=
  match s.pathResponseFromCachedAnnounce raw header.destinationHash header.hops with
  | none => s
  | some response => s.finishRecursiveDiscovery m header.destinationHash response interfaceId

/-- A path response of a local client reaches the interface that asked for the path. -/
def answerLocalRequest (raw : Bytes) (header : PacketHeader) (interfaceId : ℕ) : Actor F :=
  if s.isLocalClientInterface interfaceId && decide (header.context = .pathResponse) then
    match s.pendingLocalPathRequests.get header.destinationHash with
    | none => s
    | some waitingInterface =>
      let s := { s with
        pendingLocalPathRequests := s.pendingLocalPathRequests.erase header.destinationHash }
      match s.pathResponseFromCachedAnnounce raw header.destinationHash header.hops with
      | none => s
      | some response => (s.sendToInterface .announce waitingInterface response).2
  else s

/-- The part of `process_announce` behind the decision that the path is learned. -/
def adoptAnnounce (m : Moment F) (raw : Bytes) (header : PacketHeader) (announce : AnnounceData)
    (interfaceId : ℕ) : Actor F :=
  let s := s.queueRebroadcast m raw header interfaceId
  let s := s.learnPath m raw header announce.randomHash interfaceId
  let s := s.answerSearch m raw header interfaceId
  let s := s.cacheAnnounceToDisk m raw header
  let s := s.noteAnnounce raw header announce
  let s := s.answerLocalRequest raw header interfaceId
  s.sendAnnounceToLocalClients m raw header.destinationHash header.hops (some interfaceId) .none

/-- The part of `process_announce` behind the validation of the announce. -/
def considerAnnounce (m : Moment F) (raw : Bytes) (header : PacketHeader) (announce : AnnounceData)
    (interfaceId : ℕ) : Actor F :=
  if pathfinderM ≤ header.hops then s
  else
    let s := s.cancelRebroadcast m header
    if s.improvesPath m header announce.randomHash interfaceId then
      (s.liftSuppression m header.destinationHash interfaceId).adoptAnnounce m raw header announce
        interfaceId
    else s.liftSuppression m header.destinationHash interfaceId

/-- `process_announce`. -/
def processAnnounce (m : Moment F) (raw : Bytes) (header : PacketHeader) (dataOffset : ℕ)
    (interfaceId : ℕ) : Actor F :=
  if header.destinationHash ∈ s.localDestinations then s
  else
    match s.verifiedAnnounce m raw header dataOffset with
    | none => s
    | some (announce, identity) =>
      if s.limitsAnnounce m header.destinationHash interfaceId then
        { s with
          interfaces := s.interfaces.modify interfaceId fun entry => entry.holdAnnounce
            { raw
              destinationHash := header.destinationHash
              hops := header.hops
              receivingInterfaceId := interfaceId } }
      else
        match announce.validateDestinationBinding header.destinationHash identity
            (s.knownKey header.destinationHash) with
        | .error _ => s
        | .ok () => (s.rememberAnnounce m header announce identity).considerAnnounce m raw header
            announce interfaceId

end

/-! ### Traffic of links -/

section

variable [Sha256] [Ed25519] [Hkdf] [DecidableEq F] [Binary64 F] (s : Actor F)

/-- The hop count that a relayed packet leaves with. -/
def relayedHops (header : PacketHeader) (interfaceId : ℕ) (exempt : Bool) : UInt8 :=
  if !s.isLocalClientInterface interfaceId || exempt || decide (s.localHopsDelta = 0) then header.hops
  else s.localHopsDelta

/-- Whether a link is between two local clients. -/
def isInstanceLocal (entry : LinkEntry F) : Bool :=
  s.isLocalClientInterface entry.interfaceId && s.isLocalClientInterface entry.receivingInterface

/-- Where a packet of a link goes on, by the interface it came from and its hops: `some none` where
the packet is claimed but not sent on. -/
def linkTarget (entry : LinkEntry F) (header : PacketHeader) (interfaceId : ℕ) :
    Option (Option ℕ) :=
  if entry.interfaceId = entry.receivingInterface then
    if header.hops = entry.remainingHops ∨ header.hops = entry.takenHops then
      some (some entry.interfaceId)
    else some none
  else if interfaceId = entry.receivingInterface then
    if header.hops = entry.takenHops then some (some entry.interfaceId) else some none
  else if interfaceId = entry.interfaceId then
    if header.hops = entry.remainingHops then some (some entry.receivingInterface) else some none
  else none

/-- The end of `route_link_packet_via_link_table`: the packet is sent on along its link. -/
def relayLinkPacket (m : Moment F) (raw : Bytes) (header : PacketHeader) (target : ℕ)
    (hops : UInt8) : Actor F :=
  let relayed (s : Actor F) : Actor F :=
    let s := { s with
      linkTable := s.linkTable.modify header.destinationHash fun entry =>
        { entry with timestamp := m.now } }
    (s.sendToInterface .relay target (raw.set 1 hops)).2
  if skipsHashlist header.context then relayed s
  else
    match packetHash raw header.flags.headerType with
    | none => s
    | some hash =>
      match s.packetHashlist.insert hash with
      | (true, packetHashlist) => relayed { s with packetHashlist }
      | (false, _) => s

/-- `route_link_packet_via_link_table`: whether the packet was claimed, and the state after it. -/
def routeLinkPacketViaLinkTable (m : Moment F) (raw : Bytes) (header : PacketHeader)
    (interfaceId : ℕ) : Bool × Actor F :=
  if header.flags.destinationType ≠ .link ∨ header.destinationHash ∈ s.localDestinations then
    (false, s)
  else
    match s.linkTable.get header.destinationHash with
    | none => (false, s)
    | some entry =>
      if !s.linkRegistrationIsCurrent entry || decide (entry.acceptedMtuCeiling < raw.length) then
        (true, s)
      else if !entry.validated && entry.proofExpired m.now then (true, s)
      else
        let sharedClientPath := s.isLocalClientInterface interfaceId ||
          s.isLocalClientInterface entry.receivingInterface ||
          s.isLocalClientInterface entry.interfaceId
        if !s.isTransportEnabled && !sharedClientPath then (false, s)
        else
          match linkTarget entry header interfaceId with
          | none => (false, s)
          | some none => (true, s)
          | some (some target) =>
            (true, s.relayLinkPacket m raw header target
              (s.relayedHops header interfaceId (s.isInstanceLocal entry)))

/-! ### Link requests -/

/-- What `process_link_request` sends and stores for a link that it lets cross the node. -/
structure LinkPlan (F : Type) where
  target : ℕ
  forwarded : Bytes
  linkId : Octets 16
  entry : LinkEntry F

/-- Whether the path of a destination is over a local client. -/
def isForLocalClient (m : Moment F) (destinationHash : Octets 16) : Bool :=
  (s.pathTable.getLive m.now destinationHash).any fun path =>
    s.isLocalClientInterface path.interfaceId

/-- Whether a proof for a packet goes back to a local client. -/
def isProofForLocalClient (destinationHash : Octets 16) : Bool :=
  (s.reverseTable.get destinationHash).any fun entry =>
    s.isLocalClientInterface entry.receivingInterface

/-- The part of `process_link_request` before the request is sent on. -/
def planLinkRequest (m : Moment F) (raw : Bytes) (header : PacketHeader) (interfaceId : ℕ) :
    Option (LinkPlan F) := do
  let forLocalClient := s.isForLocalClient m header.destinationHash
  let (target, forwarded) ← (s.forwarding m.now).transportForwardCandidate raw header
    (s.isLocalClientInterface interfaceId) forLocalClient
    (forLocalClient || s.isProofForLocalClient header.destinationHash)
  let path ← s.pathTable.getLive m.now header.destinationHash
  let linkId ← linkIdFromRaw raw header.flags.headerType
  if s.linkTable.contains linkId then none
  else if maxTransitLinkTableEntries ≤ s.linkTable.size then none
  else
    let ingress ← s.interfaces.get interfaceId
    let egress ← s.interfaces.get target
    let (payload, requestedMode, acceptedMtuCeiling) ←
      (attenuateRequest (raw.drop header.size) interfaceId ingress.toInterfaceEntry target
        egress.toInterfaceEntry).toOption
    let (forwardedHeader, _) ← (PacketHeader.unpack forwarded).toOption
    let bitrate := if egress.markedOffline then none else some egress.bitrate
    return {
      target
      forwarded := forwarded.take forwardedHeader.size ++ payload
      linkId
      entry :=
        { timestamp := m.now
          nextHop := path.nextHop
          interfaceId := target
          remainingHops := path.hops
          destinationHash := header.destinationHash
          established := false
          validated := false
          proofTimeout := transitLinkProofDeadline m.now path.hops bitrate
          receivingInterface := interfaceId
          takenHops := header.hops
          interfaceOwner := some egress.owner
          receivingOwner := some ingress.owner
          requestedMode
          acceptedMtuCeiling } }

/-- `process_link_request`. -/
def processLinkRequest (m : Moment F) (raw : Bytes) (header : PacketHeader) (interfaceId : ℕ) :
    Actor F :=
  if header.destinationHash ∈ s.localDestinations then
    (s.deliver header.destinationHash
      (.linkRequest raw interfaceId (s.interfaceOwner interfaceId))).2
  else
    match s.planLinkRequest m raw header interfaceId with
    | none => s
    | some plan =>
      match s.sendToInterface .forward plan.target plan.forwarded with
      | (false, s) => s
      | (true, s) =>
        { s with
          pathTable := s.pathTable.touchLive m.now header.destinationHash
          linkTable := s.linkTable.insert plan.linkId plan.entry }

/-! ### Proofs -/

/-- `TransitProof`. -/
inductive TransitProof
  | valid
  | invalidSignature
  | refused
  deriving DecidableEq, Repr

/-- The bytes that the responder of a link signs. -/
def lrproofSignedData (linkId : Octets 16) (proofData : Bytes) (destinationEd25519 : Octets 32) :
    Bytes :=
  linkId.1 ++ (proofData.drop 64).take 32 ++ destinationEd25519.1 ++ (proofData.drop 96).take 3

/-- `validate_transit_lrproof`. -/
def validateTransitLrproof (raw : Bytes) (header : PacketHeader) (entry : LinkEntry F) :
    TransitProof :=
  let proofData := raw.drop header.size
  if raw.length < header.size ∨ proofData.length ≠ 96 ∧ proofData.length ≠ 99 then .refused
  else
    match parseProofSignalling proofData with
    | .error _ => .refused
    | .ok signal =>
      if signal.mode ≠ entry.requestedMode ∨ entry.acceptedMtuCeiling < signal.mtu.get ∨
          entry.validated ∧ signal.mtu.get ≠ entry.acceptedMtuCeiling ∨
          !s.linkRegistrationIsCurrent entry then .refused
      else
        match s.knownKey entry.destinationHash with
        | none => .refused
        | some destinationPublicKey =>
          let destinationEd25519 := Octets.read 32 (destinationPublicKey.1.drop 32)
          if !Ed25519.validKey destinationEd25519 then .refused
          else if Ed25519.verify destinationEd25519
              (lrproofSignedData header.destinationHash proofData destinationEd25519)
              (Octets.read 64 proofData) then .valid
          else .invalidSignature

/-- The relay of a link proof: the entry of the link, and the packet to send. -/
structure ProofPlan (F : Type) where
  entry : LinkEntry F
  hash : Octets 32
  forwarded : Bytes

/-- The part of `process_proof` that decides whether a link claims a link proof: `none` where it does
not, `some none` where it does but nothing is sent. -/
def claimLinkProof (m : Moment F) (raw : Bytes) (header : PacketHeader) (interfaceId : ℕ) :
    Option (Option (ProofPlan F)) :=
  match s.linkTable.get header.destinationHash with
  | none => none
  | some entry =>
    if !(s.isTransportEnabled || s.isLocalClientInterface interfaceId ||
        s.isLocalClientInterface entry.receivingInterface ||
        s.isLocalClientInterface entry.interfaceId) then none
    else if !entry.validated && entry.proofExpired m.now then some none
    else if header.hops = entry.remainingHops ∧ interfaceId = entry.interfaceId then
      match s.validateTransitLrproof raw header entry, packetHash raw header.flags.headerType with
      | .valid, some hash =>
        some (some
          { entry
            hash
            forwarded :=
              raw.set 1 (s.relayedHops header interfaceId (s.isInstanceLocal entry)) })
      | _, _ => some none
    else none

/-- `use_destination`. -/
def useDestination (m : Moment F) (destHash : Octets 16) : Actor F :=
  { s with
    recentAnnounces := s.recentAnnounces.modify destHash fun known =>
      { known with lastUsed := some m.now } }

/-- The MTU that a link proof signals. -/
def proofMtu (raw : Bytes) (header : PacketHeader) : ℕ :=
  ((parseProofSignalling (raw.drop header.size)).toOption.map fun signal => signal.mtu.get).getD 0

/-- The relay of a link proof. Its hash is listed before it is sent. -/
def relayLinkProof (m : Moment F) (raw : Bytes) (header : PacketHeader) (plan : ProofPlan F) :
    Actor F :=
  match s.packetHashlist.insert plan.hash with
  | (false, _) => s
  | (true, packetHashlist) =>
    match Actor.sendToInterface { s with packetHashlist } .relay plan.entry.receivingInterface
        plan.forwarded with
    | (false, s) => s
    | (true, s) =>
      let s := { s with
        linkTable := s.linkTable.modify header.destinationHash fun entry =>
          { entry with validated := true, acceptedMtuCeiling := proofMtu raw header } }
      if s.isSharedInstance then s else s.useDestination m plan.entry.destinationHash

/-- Whether the initiator of a link on this node takes a link proof. -/
def admitsLinkProof (raw : Bytes) (header : PacketHeader) (interfaceId : ℕ) : Bool :=
  let admitted := ((s.pendingLocalLinkRequests.get header.destinationHash).bind
    (·.get interfaceId)).any fun owner =>
      (s.interfaces.get interfaceId).any fun entry => entry.ownerIsCurrent && owner = entry.owner
  let signalValid := (parseProofSignalling (raw.drop header.size)).toOption.any fun signal =>
    signal.mode = defaultLinkMode ∧ signal.mtu.get ≤ 500
  admitted && signalValid

/-- The packet for a local destination. -/
def inboundEvent (raw : Bytes) (interfaceId : ℕ) : DestinationEvent :=
  .inboundPacket raw interfaceId (s.interfaceOwner interfaceId)

/-- The hash of a packet is listed, whether or not it is new. -/
def listHash (raw : Bytes) (header : PacketHeader) : Actor F :=
  match packetHash raw header.flags.headerType with
  | none => s
  | some hash => { s with packetHashlist := (s.packetHashlist.insert hash).2 }

/-- The part of `process_proof` about link proofs. -/
def processLinkProof (m : Moment F) (raw : Bytes) (header : PacketHeader) (interfaceId : ℕ) :
    Actor F :=
  if header.destinationHash ∈ s.localDestinations then
    if s.admitsLinkProof raw header interfaceId then
      (s.deliver header.destinationHash (s.inboundEvent raw interfaceId)).2
    else s
  else
    match s.claimLinkProof m raw header interfaceId with
    | some none => s
    | some (some plan) => s.relayLinkProof m raw header plan
    | none =>
      match s.deliver header.destinationHash (s.inboundEvent raw interfaceId) with
      | (some true, s) => s.listHash raw header
      | (_, s) => s

/-- The part of `process_proof` about receipts. -/
def processReceiptProof (m : Moment F) (raw : Bytes) (header : PacketHeader) : Actor F :=
  let (receipts, proof) := s.receipts.processProof m.instant s.knownKey header.destinationHash
    (raw.drop header.size)
  let s := { s with receipts }
  match proof with
  | none => s
  | some proof =>
    if proof.proofTx.isSome then
      { s with deliveries := s.deliveries ++ [(header.destinationHash, .deliveryProof proof)] }
    else s.destinationChannels.keys.foldl (fun s dest => (s.deliver dest (.deliveryProof proof)).2) s

/-- The part of `process_proof` that routes a proof back along the reverse table, if it does. -/
def routeProof (raw : Bytes) (header : PacketHeader) (interfaceId : ℕ) : Bool × Actor F :=
  let proofForLocalClient := s.isProofForLocalClient header.destinationHash
  if !(s.isTransportEnabled || s.isLocalClientInterface interfaceId || proofForLocalClient) then
    (false, s)
  else
    match s.reverseTable.get header.destinationHash with
    | none => (false, s)
    | some entry =>
      let removed := { s with reverseTable := s.reverseTable.erase header.destinationHash }
      if entry.outboundInterface.any (· ≠ interfaceId) then (false, removed)
      else
        (true, (removed.sendToInterface .forward entry.receivingInterface
          (raw.set 1 (s.relayedHops header interfaceId proofForLocalClient))).2)

/-- `process_proof`. -/
def processProof (m : Moment F) (raw : Bytes) (header : PacketHeader) (interfaceId : ℕ) : Actor F :=
  if header.context = .lrproof then s.processLinkProof m raw header interfaceId
  else if s.receipts.receiptTable.contains header.destinationHash then
    if raw.length < header.size then s else s.processReceiptProof m raw header
  else
    match s.routeLinkPacketViaLinkTable m raw header interfaceId with
    | (true, s) => s
    | (false, s) =>
      match s.routeProof raw header interfaceId with
      | (true, s) => s
      | (false, s) => (s.deliver header.destinationHash (s.inboundEvent raw interfaceId)).2

/-! ### Data -/

/-- `should_apply_delta`. -/
def shouldApplyDelta (header : PacketHeader) (interfaceId : ℕ) : Bool :=
  decide (s.localHopsDelta ≠ 0) && !s.isSharedInstance && decide (header.hops = 0) &&
    decide (header.flags.destinationType ≠ .plain) &&
    decide (header.flags.destinationType ≠ .group) &&
    !s.isLocalClientInterface interfaceId && !s.isSharedInstancePeerInterface interfaceId

/-- `broadcast_on_interfaces`. -/
def broadcastOnInterfaces (raw : Bytes) (except : Option ℕ) : Actor F :=
  let ids := (s.interfaces.toList.filter fun e => except ≠ some e.1 ∧ e.2.outbound).map Prod.fst
  ids.foldl
    (fun s id =>
      let mangled := (PacketHeader.unpack raw).toOption.any fun e => s.shouldApplyDelta e.1 id
      (s.sendToInterface .forward id (if mangled then raw.set 1 s.localHopsDelta else raw)).2)
    s

/-- The packets of `process_data` that pass between local clients and the network. -/
def shareBroadcast (raw : Bytes) (header : PacketHeader) (interfaceId : ℕ) : Actor F :=
  let isControlPlain := header.destinationHash = pathRequestDestHash ∨
    header.destinationHash = tunnelSynthesizeDestHash
  if ¬ isControlPlain ∧ header.flags.destinationType = .plain ∧
      header.flags.transportType = .broadcast then
    if s.isLocalClientInterface interfaceId then s.broadcastOnInterfaces raw (some interfaceId)
    else (s.localClientInterfaceIdsExcept (some interfaceId)).foldl
      (fun s id => (s.sendToInterface .forward id raw).2) s
  else s

/-- The part of `process_data` about tunnels. -/
def processTunnelSynthesis (m : Moment F) (raw : Bytes) (header : PacketHeader)
    (interfaceId : ℕ) : Actor F :=
  match ((dataPayload raw header).bind TunnelSynthesisData.unpack).filter
      (TunnelSynthesisData.isSigned ·) with
  | none => s
  | some synthesis =>
    let tunnelId := synthesis.tunnelId
    Actor.restoreTunnelPaths
      { s with tunnelTable := s.tunnelTable.handleTunnel m.now tunnelId interfaceId }
      m tunnelId interfaceId

/-- The end of `process_data`: the packet is forwarded along its path. -/
def forwardData (m : Moment F) (raw : Bytes) (header : PacketHeader) (interfaceId : ℕ)
    (fromLocalClient forLocalClient toLocalClient : Bool) : Actor F :=
  match (s.forwarding m.now).transportForwardCandidate raw header fromLocalClient forLocalClient
      toLocalClient, truncatedPacketHash raw header.flags.headerType with
  | some (target, forwarded), some hash =>
    let s := { s with
      reverseTable := s.reverseTable.insert hash
        { timestamp := m.now
          receivingInterface := interfaceId
          remainingHops := header.hops
          outboundInterface := some target } }
    let s := (s.sendToInterface .forward target forwarded).2
    { s with pathTable := s.pathTable.touchLive m.now header.destinationHash }
  | _, _ => s

/-- The part of `process_data` behind the broadcast to local clients. -/
def routeData (m : Moment F) (raw : Bytes) (header : PacketHeader) (interfaceId : ℕ)
    (fromLocalClient forLocalClient toLocalClient : Bool) : Actor F :=
  match s.routeLinkPacketViaLinkTable m raw header interfaceId with
  | (true, s) => s
  | (false, s) =>
    if header.destinationHash = pathRequestDestHash then
      match dataPayload raw header with
      | none => s
      | some payload => s.handleInboundPathRequest m payload interfaceId
    else if header.destinationHash = tunnelSynthesizeDestHash then
      s.processTunnelSynthesis m raw header interfaceId
    else if header.context = .cacheRequest then s.handleCacheRequest m raw header
    else if header.destinationHash ∈ s.localDestinations then
      (s.deliver header.destinationHash (s.inboundEvent raw interfaceId)).2
    else s.forwardData m raw header interfaceId fromLocalClient forLocalClient toLocalClient

/-- `process_data`. The roles of interfaces are those at its beginning. -/
def processData (m : Moment F) (raw : Bytes) (header : PacketHeader) (interfaceId : ℕ) : Actor F :=
  let forLocalClient := s.isForLocalClient m header.destinationHash
  (s.shareBroadcast raw header interfaceId).routeData m raw header interfaceId
    (s.isLocalClientInterface interfaceId) forLocalClient
    (forLocalClient || s.isProofForLocalClient header.destinationHash)

/-! ### Received packets -/

/-- The beginning of `on_inbound`: the packet without its access code, if it fits the interface. -/
def clearPacket (origin : InboundOrigin) (interfaceId : ℕ) (raw : Bytes) : Option Bytes :=
  if origin = .cachedAnnounce then some raw |>.filter (·.length ≤ 500)
  else do
    let entry ← s.interfaces.get interfaceId
    if !entry.ownerIsCurrent || decide (entry.packetCapacity.maxWirePacketBytes < raw.length) then none
    else
      let clearLimit ← entry.effectiveClearMtu.toOption
      (entry.clear origin raw).filter (·.length ≤ clearLimit)

/-- Whether `on_inbound` refuses a link request before it looks at the destination. -/
def refusesRequest (header : PacketHeader) (payload : Bytes) (interfaceId : ℕ) : Bool :=
  match parseRequestSignalling payload, s.interfaces.get interfaceId with
  | .ok signal, some ingress =>
    (ingress.linkCeiling interfaceId).toOption.isNone ||
      (decide (header.destinationHash ∈ s.localDestinations) &&
        decide (signal.mode ≠ defaultLinkMode))
  | _, _ => true

/-- Whether `on_inbound` drops a packet before the check for duplicates. -/
def filtersPacket (header : PacketHeader) (payload : Bytes) (interfaceId : ℕ) : Bool :=
  let fromSharedOwner := s.isSharedInstance && s.isSharedInstancePeerInterface interfaceId
  let forAnotherTransport := decide (header.flags.packetType ≠ .announce) &&
    header.transportId.isSome && decide (header.transportId ≠ s.transportIdentityHash) &&
    !fromSharedOwner
  let unroutable := !skipsHashlist header.context && !fromSharedOwner &&
    decide (header.flags.destinationType = .plain ∨ header.flags.destinationType = .group) &&
    decide (header.flags.packetType = .announce ∨ 1 < header.hops)
  decide (pathfinderM ≤ header.hops) || forAnotherTransport || unroutable ||
    (decide (header.flags.packetType = .linkRequest) && s.refusesRequest header payload interfaceId)

/-- Whether the check for duplicates is left to later code. -/
def defersHashlist (header : PacketHeader) : Bool :=
  s.linkTable.contains header.destinationHash ||
    decide (header.flags.packetType = .linkRequest) || decide (header.context = .lrproof)

/-- The check of `on_inbound` for duplicates: the state with the hash listed, or `none` where the
packet is dropped. Announces of single destinations may repeat. -/
def admitHash (raw : Bytes) (header : PacketHeader) : Option (Actor F) :=
  if skipsHashlist header.context || s.defersHashlist header then some s
  else
    match packetHash raw header.flags.headerType with
    | none => none
    | some hash =>
      match s.packetHashlist.insert hash with
      | (true, packetHashlist) => some { s with packetHashlist }
      | (false, _) =>
        if header.flags.packetType = .announce ∧ header.flags.destinationType = .single then some s
        else none

/-- The dispatch of `on_inbound` by the type of the packet. -/
def dispatch (m : Moment F) (raw : Bytes) (header : PacketHeader) (dataOffset interfaceId : ℕ) :
    Actor F :=
  match header.flags.packetType with
  | .announce => s.processAnnounce m raw header dataOffset interfaceId
  | .linkRequest => s.processLinkRequest m raw header interfaceId
  | .proof => s.processProof m raw header interfaceId
  | .data => s.processData m raw header interfaceId

/-- `on_inbound_inner`, for a packet without its access code. -/
def onClear (m : Moment F) (raw : Bytes) (interfaceId : ℕ) : Actor F :=
  match PacketHeader.unpack raw with
  | .error _ => s
  | .ok (header, dataOffset) =>
    if s.filtersPacket header (raw.drop dataOffset) interfaceId then s
    else
      match s.admitHash raw header with
      | none => s
      | some s =>
        s.dispatch m raw { header with hops := s.adjustedInboundHops header.hops interfaceId }
          dataOffset interfaceId

/-- `on_inbound_inner`. -/
def onInboundInner (m : Moment F) (origin : InboundOrigin) (raw : Bytes) (interfaceId : ℕ) :
    Actor F :=
  match s.clearPacket origin interfaceId raw with
  | none => s
  | some clear => s.onClear m clear interfaceId

/-- `on_inbound`. -/
def onInbound (m : Moment F) (raw : Bytes) (interfaceId : ℕ) : Actor F :=
  s.onInboundInner m .wire raw interfaceId

/-- `on_released_announce`. -/
def onReleasedAnnounce (m : Moment F) (announce : HeldAnnounce) : Actor F :=
  s.onInboundInner m .heldAnnounce announce.raw announce.receivingInterfaceId

end

end Actor

end Reticulum.Transport
