import Reticulum.Manager.Basic
import Reticulum.Wire.Hash

/-!
# The handlers of the link manager

What packets of the peer, calls of the application, and the watchdogs do to the resources of a link.
-/

namespace Reticulum.Manager

open Wire Resource Binary64

variable {F : Type} [Binary64Bits F] [AesCbc] [Hmac]

/-! ### Advertisements -/

/-- `MultiSegmentInbound::assembled_count`. -/
def assembledCount (c : MultiSegmentInbound) : ℕ := c.assembledSegments.countP Option.isSome

/-- An advertisement that names all segments of one resource names it by the hash of the original. -/
def isSplit (adv : ResourceAdvertisement) : Bool := adv.flags.split || decide (1 < adv.totalSegments)

/-- The resource that an advertisement is about. -/
def advertisedResource (adv : ResourceAdvertisement) : Octets 32 :=
  if isSplit adv then adv.originalHash else adv.resourceHash

/-- An advertised request. -/
def isRequest (adv : ResourceAdvertisement) : Bool := adv.flags.isRequest && adv.requestId.isSome

/-- An advertised response. -/
def isResponse (adv : ResourceAdvertisement) : Bool := adv.flags.isResponse && adv.requestId.isSome

/-- The advertisement continues an open lifecycle with its next segment. -/
def continuityValid (lifecycle : InboundResourceLifecycle) (coordinator : Option MultiSegmentInbound)
    (adv : ResourceAdvertisement) : Bool :=
  lifecycle.totalSegments = adv.totalSegments ∧ lifecycle.dataSize = adv.dataSize ∧
    lifecycle.currentSegment = none ∧ lifecycle.isRequest = isRequest adv ∧
    lifecycle.isResponse = isResponse adv ∧ lifecycle.requestId = adv.requestId ∧
    coordinator.map (fun c => assembledCount c + 1) = some adv.segmentIndex

/-- The transfer of an advertised segment. -/
def advertisedTransfer (m : Moment) (w : LinkWork F) (adv : ResourceAdvertisement) :
    Except ResourceError (InboundTransfer F) :=
  let flags := { adv.flags with
    isRequest := isRequest adv
    isResponse := isResponse adv
    hasMetadata := adv.flags.hasMetadata && !(decide (1 < adv.totalSegments ∧ 1 < adv.segmentIndex)) }
  InboundTransfer.fromAdvertisement adv.numParts adv.transferSize adv.dataSize
    (Octets.read 4 adv.randomHash) adv.resourceHash flags adv.getMapHashes
    (w.active.link.rtt.getD (Duration.fromSecs 1 / 2)) m.now

/-- A lifecycle begins with the first segment of a resource. -/
def beginLifecycle (linkId : Octets 16) (adv : ResourceAdvertisement) (s : Shared) : Shared :=
  let resourceId := advertisedResource adv
  match s.activeInboundLifecycles.get (linkId, resourceId) with
  | some _ => s
  | none =>
    { s with
      activeInboundLifecycles := s.activeInboundLifecycles.insert (linkId, resourceId)
        { dataSize := adv.dataSize
          totalSegments := adv.totalSegments
          currentSegment := none
          isRequest := isRequest adv
          isResponse := isResponse adv
          requestId := adv.requestId
          interSegmentDeadline := none } }.emit
      (.started linkId resourceId .inbound adv.dataSize adv.totalSegments)

/-- The route and the coordinator of a segment. -/
def publishRoute (adv : ResourceAdvertisement) (active : ActiveLink F) : ActiveLink F :=
  if isSplit adv then
    { active with
      inboundSplitResources :=
        if active.inboundSplitResources.contains adv.originalHash then active.inboundSplitResources
        else active.inboundSplitResources.insert adv.originalHash
          (.new adv.totalSegments adv.originalHash)
      segmentRouting := active.segmentRouting.insert adv.resourceHash
        { originalHash := adv.originalHash, segmentIndex := adv.segmentIndex } }
  else active

/-- A segment in progress: its route, its transfer, and its place in the lifecycle. -/
def publishSegment (linkId : Octets 16) (adv : ResourceAdvertisement) (transfer : InboundTransfer F)
    (w : LinkWork F) : LinkWork F :=
  let active := publishRoute adv w.active
  { active :=
      { active with
        link := active.link.trackIncomingResource adv.resourceHash
        inboundResources := active.inboundResources.insert adv.resourceHash transfer }
    shared :=
      { w.shared with
        activeInboundLifecycles := w.shared.activeInboundLifecycles.modify
          (linkId, advertisedResource adv) fun lifecycle =>
            { lifecycle with
              currentSegment := some adv.resourceHash
              interSegmentDeadline := none } } }

/-- An advertisement that was accepted: the segment is in progress once its first parts are
requested. -/
def admitSegment (m : Moment) (linkId : Octets 16) (adv : ResourceAdvertisement)
    (transfer : InboundTransfer F) (w : LinkWork F) : LinkWork F :=
  let w := { w with shared := beginLifecycle linkId adv w.shared }
  let (transfer, action) := transfer.requestNext m.now
  match sendResourceAction m linkId w action with
  | (w, false) => concludeInboundFailure linkId (advertisedResource adv)
      (.failed "could not request initial Resource parts") w
  | (w, true) => publishSegment linkId adv transfer w

/-- Whether the application refuses an ordinary resource. -/
def refuses (m : Moment) (s : Shared) (adv : ResourceAdvertisement) : Bool :=
  !isRequest adv && !isResponse adv && decide (s.resourceStrategy = .acceptApp) &&
    !(s.resourceAcceptHandler && m.accepted)

/-- The text for segment numbers out of range. -/
def segmentRangeError (adv : ResourceAdvertisement) : String :=
  "segment metadata is out of range (" ++ toString adv.segmentIndex ++ "/" ++
    toString adv.totalSegments ++ ", max " ++ toString maxSegments ++ ")"

/-- The handler of `PacketContext::ResourceAdv`, after the advertisement is read. -/
def receiveAdvertisement (m : Moment) (linkId : Octets 16) (adv : ResourceAdvertisement)
    (w : LinkWork F) : LinkWork F :=
  let resourceId := advertisedResource adv
  let existing := w.shared.activeInboundLifecycles.get (linkId, resourceId)
  let reject (resourceId : Octets 32) (reason : String) :=
    rejectInboundAdvertisement m linkId resourceId adv.resourceHash reason w
  if adv.totalSegments = 0 ∨ maxSegments < adv.totalSegments ∨ adv.segmentIndex = 0 ∨
      adv.totalSegments < adv.segmentIndex then reject resourceId (segmentRangeError adv)
  else if w.active.inboundResources.contains adv.resourceHash then
    let oldResourceId := (inboundResourceIdentity w.active adv.resourceHash).1
    if oldResourceId = resourceId ∧
        ∃ lifecycle ∈ existing, lifecycle.currentSegment = some adv.resourceHash then w
    else reject oldResourceId "resource hash conflicts with an active transfer"
  else if ∃ lifecycle ∈ existing,
      ¬ continuityValid lifecycle (w.active.inboundSplitResources.get resourceId) adv then
    reject resourceId "split-resource sequence does not match the active transfer"
  else if existing = none ∧ isSplit adv ∧ adv.segmentIndex ≠ 1 then
    reject resourceId "split-resource transfer must begin with segment 1"
  else if isRequest adv ∧ ¬ w.shared.requestHandler ∧ ¬ w.shared.requestHandlerEx ∧
      w.shared.destinationRequestHandlers = [] then
    if existing.isSome then reject resourceId "request handlers were removed during the transfer"
    else w
  else if ¬ isRequest adv ∧ ¬ isResponse adv ∧ w.shared.resourceStrategy = .acceptNone then
    if existing.isSome then reject resourceId "application no longer accepts inbound Resources"
    else w
  else
    match advertisedTransfer m w adv with
    | .error e => reject resourceId e.message
    | .ok transfer =>
      if refuses m w.shared adv then
        let w := (sendResourceAction m linkId w (.sendCancel .rcl adv.resourceHash)).1
        if existing.isSome then concludeInboundFailure linkId resourceId .rejected w else w
      else admitSegment m linkId adv transfer w

/-! ### Parts -/

/-- A part is offered to one transfer after the other, until one of them wants to answer or is
complete. -/
def offerPart [Sha256] (data : Bytes) (now : ℕ) : List (Octets 32 × InboundTransfer F) →
    Table (Octets 32) (InboundTransfer F) →
      Table (Octets 32) (InboundTransfer F) × Option TransferAction × Option (Octets 32)
  | [], transfers => (transfers, none, none)
  | (resourceHash, transfer) :: rest, transfers =>
    let (transfer, action) := transfer.receivePart data now
    let transfers := transfers.modify resourceHash fun _ => transfer
    let answer := match action with
      | .sendHmu _ | .sendRequest _ => some action
      | _ => none
    let completed := if action = .complete ∨ transfer.resource.isComplete then some resourceHash
      else none
    if answer.isSome ∨ completed.isSome then (transfers, answer, completed)
    else offerPart data now rest transfers

/-- `inbound_split_wait_timeout`. -/
def inboundSplitWaitTimeout (active : ActiveLink F) : ℕ :=
  let rtt := Duration.asSecsF64 F (active.link.rtt.getD (Duration.fromSecs 1 / 2))
  let advertisementAttempt := add (mul rtt (ofRat 6)) (ofRat 1)
  let retryHorizon := add
    (mul advertisementAttempt (ofRat (maxAdvRetries + 1 : ℕ))) (ofRat 10)
  Duration.fromSecsF64 (max retryHorizon (ofRat 30))

/-- A segment is stored with its coordinator; the last one yields the payload and the metadata. -/
def storeSegment (route : SegmentRoute) (data : Bytes) (metadata : Option Bytes)
    (c : MultiSegmentInbound) :
    MultiSegmentInbound × Except String (Option (Bytes × Option Bytes)) :=
  match c.setSegmentData route.segmentIndex data with
  | (c, .error e) => (c, .error e.message)
  | (c, .ok ()) =>
    let c := match metadata with
      | some metadata => c.setMetadata metadata
      | none => c
    if c.isComplete then
      match c.reassemble with
      | .error e => (c, .error e.message)
      | .ok blob => ({ c with metadata := none }, .ok (some (blob, c.metadata)))
    else (c, .ok none)

/-- A segment that is followed by others: the lifecycle waits for the next one. -/
def awaitSegment (m : Moment) (linkId : Octets 16) (segmentHash originalHash : Octets 32)
    (w : LinkWork F) : LinkWork F where
  active :=
    { w.active with
      link := w.active.link.untrackResource segmentHash
      inboundResources := w.active.inboundResources.erase segmentHash
      segmentRouting := w.active.segmentRouting.erase segmentHash }
  shared :=
    { w.shared with
      activeInboundLifecycles := w.shared.activeInboundLifecycles.modify (linkId, originalHash)
        fun lifecycle =>
          { lifecycle with
            currentSegment := none
            interSegmentDeadline := some (m.now + inboundSplitWaitTimeout w.active) } }

/-- A resource whose last part has arrived; a request goes to the request handlers. -/
def deliverResource (linkId : Octets 16) (resourceId : Octets 32) (data : Bytes)
    (metadata : Option Bytes) (w : LinkWork F) : LinkWork F :=
  let request := w.shared.activeInboundLifecycles.get (linkId, resourceId)
  let w := concludeInboundComplete linkId resourceId data metadata w
  if ∃ lifecycle ∈ request, lifecycle.isRequest then
    { w with shared := { w.shared with
      completedRequests := w.shared.completedRequests ++ [(linkId, data)] } }
  else w

/-- A segment whose proof was sent, for its coordinator or as a resource of its own. -/
def deliverSegment (m : Moment) (linkId : Octets 16) (segmentHash : Octets 32) (data : Bytes)
    (metadata : Option Bytes) (w : LinkWork F) : LinkWork F :=
  match w.active.segmentRouting.get segmentHash with
  | none => deliverResource linkId segmentHash data metadata w
  | some route =>
    match w.active.inboundSplitResources.get route.originalHash with
    | none => concludeInboundFailure linkId route.originalHash
        (.failed "split-resource coordinator is missing") w
    | some coordinator =>
      let (coordinator, outcome) := storeSegment route data metadata coordinator
      let w := { w with active := { w.active with
        inboundSplitResources :=
          w.active.inboundSplitResources.modify route.originalHash fun _ => coordinator } }
      match outcome with
      | .ok (some (blob, metadata)) =>
        deliverResource linkId route.originalHash blob metadata w
      | .ok none => awaitSegment m linkId segmentHash route.originalHash w
      | .error reason => concludeInboundFailure linkId route.originalHash (.failed reason) w

variable [Sha256] [Bzip2]

/-- A transfer that has all its parts is completed. -/
def finishSegment (m : Moment) (linkId : Octets 16) (segmentHash : Octets 32) (w : LinkWork F) :
    LinkWork F :=
  match w.active.inboundResources.get segmentHash with
  | none => w
  | some transfer =>
    let decryptFn (data : Bytes) : Except ResourceError Bytes :=
      (w.active.link.decrypt data).mapError fun _ => .decryptFailed
    let (transfer, completion) := transfer.complete (some decryptFn)
    let w := { w with active := { w.active with
      inboundResources := w.active.inboundResources.modify segmentHash fun _ => transfer } }
    let resourceId := (inboundResourceIdentity w.active segmentHash).1
    match completion with
    | .error e =>
      let w := (sendResourceAction m linkId w (.sendCancel .rcl segmentHash)).1
      concludeInboundFailure linkId resourceId (.failed e.message) w
    | .ok (data, proof) =>
      match sendResourceAction m linkId w (.sendProof proof) with
      | (w, false) =>
        concludeInboundFailure linkId resourceId (.failed "could not send Resource proof") w
      | (w, true) => deliverSegment m linkId segmentHash data transfer.resource.metadata w

/-- The handler of `PacketContext::Resource`. -/
def receivePart (m : Moment) (linkId : Octets 16) (data : Bytes) (w : LinkWork F) : LinkWork F :=
  let (transfers, answer, completed) :=
    offerPart data m.now w.active.inboundResources.toList w.active.inboundResources
  let w := { w with active := { w.active with inboundResources := transfers } }
  let w := match answer with
    | some action => (sendResourceAction m linkId w action).1
    | none => w
  match completed with
  | some segmentHash => finishSegment m linkId segmentHash w
  | none => w

/-! ### The other packets -/

/-- Actions are sent until one is not retained. -/
def sendResourceActions (m : Moment) (linkId : Octets 16) : List TransferAction → LinkWork F →
    LinkWork F
  | [], w => w
  | action :: rest, w =>
    match sendResourceAction m linkId w action with
    | (w, false) => w
    | (w, true) => sendResourceActions m linkId rest w

/-- The handler of `PacketContext::ResourceReq`. -/
def receiveRequest (m : Moment) (linkId : Octets 16) (packetHash : Octets 32) (plaintext : Bytes)
    (w : LinkWork F) : LinkWork F :=
  let start := if plaintext.head? = some hashmapIsExhausted then 5 else 1
  if plaintext.length ≤ 32 ∨ plaintext.length < start + 32 then w
  else
    let resourceHash := Octets.read 32 (plaintext.drop start)
    match w.active.outboundResources.get resourceHash with
    | none => w
    | some transfer =>
      let (transfer, actions) := transfer.handleRequestPacket packetHash plaintext m.now
      sendResourceActions m linkId actions
        { w with active := { w.active with
          outboundResources := w.active.outboundResources.modify resourceHash fun _ => transfer } }

/-- The inbound resource that a hash names: the resource of a segment in progress, or an open
lifecycle. -/
def namedInbound (linkId : Octets 16) (resourceHash : Octets 32) (w : LinkWork F) :
    Option (Octets 32) :=
  if w.active.inboundResources.contains resourceHash then
    some (inboundResourceIdentity w.active resourceHash).1
  else if w.shared.activeInboundLifecycles.contains (linkId, resourceHash) then some resourceHash
  else none

/-- The handler of `PacketContext::ResourceIcl`. -/
def receiveInitiatorCancel (linkId : Octets 16) (plaintext : Bytes) (w : LinkWork F) : LinkWork F :=
  if plaintext.length < 32 then w
  else
    let resourceHash := Octets.read 32 plaintext
    match namedInbound linkId resourceHash w with
    | none => w
    | some resourceId =>
      concludeInboundFailure linkId resourceId .cancelled
        { w with active := { w.active with
          inboundResources :=
            w.active.inboundResources.modify resourceHash InboundTransfer.handleCancel } }

/-- An outbound resource ends with the transfer of a segment. -/
def concludeOutbound (linkId : Octets 16) (segmentHash resourceId : Octets 32)
    (conclusion : LinkResourceConclusion) (w : LinkWork F) : LinkWork F where
  active :=
    { w.active with
      outboundResources := w.active.outboundResources.erase segmentHash
      outboundSplitQueues := w.active.outboundSplitQueues.erase resourceId
      link := w.active.link.untrackResource segmentHash }
  shared := w.shared.emit (.concluded linkId resourceId .outbound conclusion)

/-- The handler of `PacketContext::ResourceRcl`. -/
def receiveReceiverCancel (linkId : Octets 16) (plaintext : Bytes) (w : LinkWork F) : LinkWork F :=
  if plaintext.length < 32 then w
  else
    let resourceHash := Octets.read 32 plaintext
    match w.active.outboundResources.get resourceHash with
    | none => w
    | some transfer =>
      concludeOutbound linkId resourceHash (outboundResourceIdentity transfer).1 .rejected w

/-- The handler of `PacketContext::ResourceHmu`. -/
def receiveHashmapUpdate (m : Moment) (linkId : Octets 16) (plaintext : Bytes) (w : LinkWork F) :
    LinkWork F :=
  match parseHashmapUpdate plaintext with
  | .error _ => w
  | .ok (resourceHash, segment, hashmap) =>
    match w.active.inboundResources.get resourceHash with
    | none => w
    | some transfer =>
      let (transfer, action) := transfer.hashmapUpdate segment hashmap m.now
      let w := { w with active := { w.active with
        inboundResources := w.active.inboundResources.modify resourceHash fun _ => transfer } }
      let w := (sendResourceAction m linkId w action).1
      match action with
      | .sendCancel .rcl _ =>
        concludeInboundFailure linkId (inboundResourceIdentity w.active resourceHash).1
          (.failed "sender returned an invalid Resource hashmap update") w
      | _ => w

/-- `start_outbound_transfer`. -/
def startOutboundTransfer (m : Moment) (linkId : Octets 16) (transfer : OutboundTransfer)
    (w : LinkWork F) : LinkWork F × Option (Octets 32) :=
  match transfer.tick m.now with
  | (transfer, .sendAdvertisement adv) =>
    match emitFrame m linkId w .resourceAdv adv true .data with
    | (w, false) => (w, none)
    | (w, true) =>
      ({ w with active := { w.active with
          outboundResources :=
            w.active.outboundResources.insert transfer.resource.resourceHash transfer } },
        some transfer.resource.resourceHash)
  | _ => (w, none)

/-- The next segment of a resource, taken from its queue; an empty queue is removed. -/
def popSegment (queueKey : Octets 32) (active : ActiveLink F) :
    ActiveLink F × Option OutboundTransfer :=
  match active.outboundSplitQueues.get queueKey with
  | none => (active, none)
  | some queue =>
    ({ active with
        outboundSplitQueues := if queue.tail = [] then active.outboundSplitQueues.erase queueKey
          else active.outboundSplitQueues.modify queueKey fun _ => queue.tail },
      queue.head?)

/-- The last segment of an outbound resource is proven. -/
def concludeProven (linkId : Octets 16) (resourceId : Octets 32) (w : LinkWork F) : LinkWork F :=
  { w with shared := w.shared.emit (.concluded linkId resourceId .outbound .complete) }

/-- The next segment of an outbound resource is advertised; a resource whose next segment cannot be
sent fails. -/
def startNext (m : Moment) (linkId : Octets 16) (queueKey : Octets 32) (next : OutboundTransfer)
    (w : LinkWork F) : LinkWork F :=
  match startOutboundTransfer m linkId next w with
  | (w, some _) => w
  | (w, none) =>
    { active := { w.active with
        outboundSplitQueues := w.active.outboundSplitQueues.erase queueKey }
      shared := w.shared.emit (.concluded linkId queueKey .outbound
        (.failed "could not retain next Resource segment advertisement")) }

/-- After a segment of an outbound resource is proven, the next one follows. -/
def continueOutbound (m : Moment) (linkId : Octets 16) (queueKey : Octets 32) (w : LinkWork F) :
    LinkWork F :=
  match popSegment queueKey w.active with
  | (active, none) => concludeProven linkId queueKey { w with active }
  | (active, some next) => startNext m linkId queueKey next { w with active }

/-- The handler of `PacketContext::ResourcePrf`. -/
def receiveProof (m : Moment) (linkId : Octets 16) (data : Bytes) (w : LinkWork F) : LinkWork F :=
  if data.length < 64 then w
  else
    let resourceHash := Octets.read 32 data
    match w.active.outboundResources.get resourceHash with
    | none => w
    | some transfer =>
      match transfer.handleProof data with
      | (transfer, false) =>
        { w with active := { w.active with
          outboundResources := w.active.outboundResources.modify resourceHash fun _ => transfer } }
      | (_, true) =>
        let w := { w with active := { w.active with
          outboundResources := w.active.outboundResources.erase resourceHash } }
        match transfer.resource.originalHash with
        | some queueKey => continueOutbound m linkId queueKey w
        | none => concludeProven linkId resourceHash w

/-! ### Calls of the application -/

/-- `ResourceTransferStart`, with the tags and initialisation vectors that are drawn for it, by
segment and attempt. -/
structure ResourceTransferStart where
  data : Bytes
  metadata : Option Bytes
  autoCompress : Bool
  requestId : Option Bytes
  isResponse : Bool
  allowHandshake : Bool
  randomHash : Octets 4
  tag : ℕ → ℕ → Octets 4
  iv : ℕ → ℕ → Octets 16

/-- The randomness of a start over a link with the given keys. -/
def ResourceTransferStart.randomness (request : ResourceTransferStart) (keys : LinkKeys) :
    Randomness where
  tag := request.tag
  encryptFn := some fun index attempt plaintext =>
    (linkEncrypt (request.iv index attempt) keys plaintext).toOption.getD plaintext

/-- The segments of a resource that is sent over a link with the given keys. -/
def prepareSegments (request : ResourceTransferStart) (keys : LinkKeys) :
    Except ResourceError (List OutboundResource) :=
  let random := request.randomness keys
  if OutboundResource.metadataWireSize request.metadata + request.data.length ≤ maxEfficientSize then
    do
      let resource ← OutboundResource.withOptions (random.tag 0) (random.encryptFn.map (· 0))
        request.data request.autoCompress request.metadata none
      return [{ resource with
        flags := { resource.flags with isResponse := request.isResponse }
        requestId := request.requestId }]
  else do
    let resource ← MultiSegmentOutbound.withOptions random request.randomHash request.data
      request.autoCompress request.metadata request.requestId request.isResponse
    return resource.segments

/-- The segments that a start prepares, if the link is in a state for it. -/
def preparedSegments (request : ResourceTransferStart) (link : LinkSession F) :
    Option (List OutboundResource) :=
  if link.state = .active ∨ link.state = .stale ∨
      (request.allowHandshake ∧ link.state = .handshake) then do
    let keys ← link.sessionKeys
    (preflightOutbound request.data.length (request.metadata.map List.length) request.requestId
      request.isResponse true link.mtu).toOption
    (prepareSegments request keys).toOption
  else none

/-- `start_resource_transfer_inner`. -/
def startResourceTransferInner (m : Moment) (linkId : Octets 16) (request : ResourceTransferStart)
    (w : LinkWork F) : LinkWork F :=
  match preparedSegments request w.active.link with
  | none | some [] => w
  | some (resource :: resources) =>
    let rtt := w.active.link.rtt.getD (Duration.fromSecs 1 / 2)
    let resourceKey := resource.originalHash.getD resource.resourceHash
    let transfers := resources.map fun resource => OutboundTransfer.fromResource resource rtt m.now
    match startOutboundTransfer m linkId (.fromResource resource rtt m.now) w with
    | (w, none) => w
    | (w, some _) =>
      { active := { w.active with
          outboundSplitQueues := if transfers = [] then w.active.outboundSplitQueues
            else w.active.outboundSplitQueues.insert resourceKey transfers }
        shared := w.shared.emit (.started linkId resourceKey .outbound request.data.length
          (resources.length + 1)) }

/-- `cancel_link_resource`. -/
def cancelLinkResource (m : Moment) (linkId : Octets 16) (resourceId : Octets 32) :
    LinkResourceDirection → LinkWork F → LinkWork F
  | .outbound, w =>
    match w.active.outboundResources.toList.find? fun entry =>
        (outboundResourceIdentity entry.2).1 = resourceId ∨ entry.1 = resourceId with
    | none => w
    | some (segmentHash, transfer) =>
      let w := (sendResourceAction m linkId w (.sendCancel .icl segmentHash)).1
      concludeOutbound linkId segmentHash (outboundResourceIdentity transfer).1 .cancelled w
  | .inbound, w =>
    match w.active.inboundResources.keys.find? fun segmentHash =>
        (inboundResourceIdentity w.active segmentHash).1 = resourceId ∨ segmentHash = resourceId with
    | some segmentHash =>
      let w := (sendResourceAction m linkId w (.sendCancel .rcl segmentHash)).1
      concludeInboundFailure linkId (inboundResourceIdentity w.active segmentHash).1 .cancelled w
    | none =>
      if w.shared.activeInboundLifecycles.contains (linkId, resourceId) then
        concludeInboundFailure linkId resourceId .cancelled w
      else w

/-- `complete_resource`, which hands the payload to its caller. -/
def completeResource (linkId : Octets 16) (resourceHash : Octets 32) (w : LinkWork F) :
    LinkWork F :=
  if w.active.segmentRouting.contains resourceHash then w
  else
    match w.active.inboundResources.get resourceHash with
    | none => w
    | some transfer =>
      let (transfer, completion) := transfer.complete none
      let w := { w with active := { w.active with
        inboundResources := w.active.inboundResources.modify resourceHash fun _ => transfer } }
      match completion with
      | .ok (data, _) =>
        concludeInboundComplete linkId resourceHash data transfer.resource.metadata w
      | .error e => concludeInboundFailure linkId resourceHash (.failed e.message) w

/-! ### Watchdogs -/

/-- The watchdog of one inbound transfer. -/
def watchInbound (m : Moment) (linkId : Octets 16) (w : LinkWork F)
    (polled : Octets 32 × TransferAction) : LinkWork F :=
  if w.active.inboundResources.contains polled.1 then
    match polled.2 with
    | .none => w
    | .failed reason =>
      concludeInboundFailure linkId (inboundResourceIdentity w.active polled.1).1 (.failed reason) w
    | retry => (sendResourceAction m linkId w retry).1
  else w

/-- The watchdogs of the inbound transfers. -/
def watchInbounds (m : Moment) (linkId : Octets 16) (w : LinkWork F) : LinkWork F :=
  let polled := w.active.inboundResources.toList.map fun entry =>
    (entry.1, (entry.2.checkTimeout m.now).2)
  polled.foldl (watchInbound m linkId)
    { w with active := { w.active with
      inboundResources := w.active.inboundResources.mapValues fun _ t => (t.checkTimeout m.now).1 } }

/-- The watchdogs of the lifecycles that wait for their next segment. -/
def watchDeadlines (m : Moment) (linkId : Octets 16) (w : LinkWork F) : LinkWork F :=
  let expired := w.shared.activeInboundLifecycles.toList.filterMap fun entry =>
    if entry.1.1 = linkId ∧ ∃ deadline ∈ entry.2.interSegmentDeadline, deadline ≤ m.now then
      some entry.1.2
    else none
  expired.foldl (fun w resourceId => concludeInboundFailure linkId resourceId
    (.failed "timed out waiting for the next Resource segment") w) w

/-- The watchdog of one outbound transfer. -/
def watchOutbound (m : Moment) (linkId : Octets 16) (w : LinkWork F)
    (polled : Octets 32 × TransferAction) : LinkWork F :=
  match polled.2 with
  | .none => w
  | .failed reason =>
    match w.active.outboundResources.get polled.1 with
    | some transfer => concludeOutbound linkId polled.1 (outboundResourceIdentity transfer).1
        (.failed reason) w
    | none => w
  | retry => (sendResourceAction m linkId w retry).1

/-- The watchdogs of the outbound transfers. -/
def watchOutbounds (m : Moment) (linkId : Octets 16) (w : LinkWork F) : LinkWork F :=
  let polled := w.active.outboundResources.toList.map fun entry =>
    (entry.1, (entry.2.checkTimeout m.now).2)
  polled.foldl (watchOutbound m linkId)
    { w with active := { w.active with
      outboundResources := w.active.outboundResources.mapValues fun _ t => (t.checkTimeout m.now).1 } }

/-- The watchdogs of one link. -/
def watchResources (m : Moment) (linkId : Octets 16) (w : LinkWork F) : LinkWork F :=
  watchOutbounds m linkId (watchDeadlines m linkId (watchInbounds m linkId w))

/-- `send_keepalive_packet`, which does not wait for the channel. -/
def sendKeepalivePacket (m : Moment) (linkId : Octets 16) (w : LinkWork F) : LinkWork F where
  active := { w.active with link := w.active.link.recordTxKeepalive 1 m.now }
  shared :=
    { w.shared with
      emissions := w.shared.emissions + 1
      sent := if m.trySend w.shared.emissions = .ok then
          w.shared.sent ++ [(linkHeader linkId .data .keepalive).pack ++ [0xff]]
        else w.shared.sent }

/-- The tick of the link itself, and whether the link is removed. -/
def tickLink (m : Moment) (linkId : Octets 16) (w : LinkWork F) : LinkWork F × Bool :=
  let link := if w.active.inboundResources.size = 0 ∧ w.active.outboundResources.size = 0 then
      w.active.link
    else w.active.link.recordInbound m.now
  let (link, action) := link.tick m.now (m.iv w.shared.emissions)
  let w := { w with active := { w.active with link } }
  match action with
  | .none => (w, false)
  | .sendKeepalive => (sendKeepalivePacket m linkId w, false)
  | .transitionedToStale =>
    (if w.active.link.isInitiator then sendKeepalivePacket m linkId w else w, false)
  | .sendTeardownAndClose teardownData =>
    if teardownData = [] then (w, true)
    else ({ w with shared := (stageLinkControl m w.shared
      ((linkHeader linkId .data .linkClose).pack ++ teardownData)).1 }, true)
  | .closed _ => (w, true)

/-! ### The manager -/

namespace LinkManager

/-- Work on a link that is active. -/
def withLink (s : LinkManager F) (linkId : Octets 16) (f : LinkWork F → LinkWork F) :
    LinkManager F :=
  match s.activeLinks.get linkId with
  | none => s
  | some active =>
    let w := f { active, shared := s.shared }
    { activeLinks := s.activeLinks.modify linkId fun _ => w.active, shared := w.shared }

/-- `CloseReason` as its debug format shows it. -/
def closeReasonName : CloseReason → String
  | .timeout => "Timeout"
  | .initiatorClosed => "InitiatorClosed"
  | .destinationClosed => "DestinationClosed"

/-- The end of the session of a link, with a packet for the peer if it can be told. -/
def endSession (m : Moment) (linkId : Octets 16) (reason : CloseReason) (sendTeardown : Bool)
    (w : LinkWork F) : LinkWork F :=
  if sendTeardown ∧ m.ownsEndpoint linkId then
    let (link, teardownData) := w.active.link.teardown reason (m.iv w.shared.emissions)
    let shared := match teardownData with
      | some data =>
        (stageLinkControl m w.shared ((linkHeader linkId .data .linkClose).pack ++ data)).1
      | none => w.shared
    { active := { w.active with link }, shared }
  else { w with active := { w.active with link := w.active.link.markClosed reason } }

/-- `close_active_link_inner`, without the endpoint. -/
def closeActiveLinkInner (m : Moment) (linkId : Octets 16) (reason : CloseReason)
    (sendTeardown : Bool) (s : LinkManager F) : LinkManager F :=
  match s.activeLinks.get linkId with
  | none => s
  | some active =>
    let inboundResourceIds := s.shared.activeInboundLifecycles.keys.filterMap fun key =>
      if key.1 = linkId then some key.2 else none
    let outboundResourceIds := (active.outboundResources.values.map fun t =>
      (outboundResourceIdentity t).1).dedup
    let failure := LinkResourceConclusion.failed ("link closed: " ++ closeReasonName reason)
    let w := endSession m linkId reason sendTeardown { active, shared := s.shared }
    let w := { w with shared := w.shared.emit (.linkClosed linkId) }
    let w := inboundResourceIds.foldl (fun w resourceId =>
      concludeInboundFailure linkId resourceId failure w) w
    { activeLinks := s.activeLinks.erase linkId
      shared := outboundResourceIds.foldl (fun s resourceId =>
        s.emit (.concluded linkId resourceId .outbound failure)) w.shared }

/-- The tick of one link: its watchdogs, its session, and whether it is removed. -/
def tickActive (m : Moment) (p : LinkManager F × List (Octets 16)) (linkId : Octets 16) :
    LinkManager F × List (Octets 16) :=
  match p.1.activeLinks.get linkId with
  | none => p
  | some active =>
    let (w, removed) := tickLink m linkId (watchResources m linkId { active, shared := p.1.shared })
    ({ activeLinks := p.1.activeLinks.modify linkId fun _ => w.active, shared := w.shared },
      if removed ∨ m.channelExhausted linkId then p.2 ++ [linkId] else p.2)

/-- `tick`: the queue of control packets and `on_tick`. -/
def onTick (m : Moment) (s : LinkManager F) : LinkManager F :=
  let s := { s with shared := flushPendingLinkControl m s.shared }
  let (s, toRemove) := s.activeLinks.keys.foldl (tickActive m) (s, [])
  toRemove.foldl (fun s linkId => closeActiveLinkInner m linkId .timeout false s) s

/-- Work on the decrypted payload of a packet; what does not decrypt only counts as received. -/
def withPlaintext (m : Moment) (data : Bytes) (f : Bytes → LinkWork F → LinkWork F)
    (w : LinkWork F) : LinkWork F :=
  let w := { w with active := { w.active with
    link := (w.active.link.recordInbound m.now).recordRx data.length } }
  match w.active.link.decrypt data with
  | .error _ => w
  | .ok plaintext => f plaintext w

/-- The handler of `PacketContext::ResourceAdv`: an advertisement that cannot be read ends the link. -/
def handleAdvertisement (m : Moment) (linkId : Octets 16) (data : Bytes) (s : LinkManager F) :
    LinkManager F :=
  match s.activeLinks.get linkId with
  | none => s
  | some active =>
    let unreadable := match active.link.decrypt data with
      | .error _ => false
      | .ok plaintext => (ResourceAdvertisement.unpack plaintext).toOption.isNone
    let s := s.withLink linkId (withPlaintext m data fun plaintext w =>
      match ResourceAdvertisement.unpack plaintext with
      | .error _ => w
      | .ok adv => receiveAdvertisement m linkId adv w)
    if unreadable then closeActiveLinkInner m linkId .destinationClosed true s else s

/-- `handle_inbound_packet_with_metrics`, for the packets about resources. -/
def handleInboundPacket (m : Moment) (raw : Bytes) (interfaceId : ℕ) (interfaceOwner : Option ℕ)
    (s : LinkManager F) : LinkManager F :=
  match PacketHeader.unpack raw with
  | .error _ => s
  | .ok (header, dataOffset) =>
    let data := raw.drop dataOffset
    let linkId := header.destinationHash
    match s.activeLinks.get linkId with
    | none => s
    | some active =>
      if interfaceId ≠ active.interfaceId ∨ interfaceOwner ≠ active.interfaceOwner then s
      else if header.flags.packetType ≠ .data ∧
          ¬ (header.flags.packetType = .proof ∧ header.context = .resourcePrf) then s
      else
        match header.context with
        | .resourceAdv => handleAdvertisement m linkId data s
        | .resource => s.withLink linkId fun w => receivePart m linkId data
            { w with active := { w.active with
              link := (w.active.link.recordInbound m.now).recordRx data.length } }
        | .resourceReq => s.withLink linkId (withPlaintext m data fun plaintext w =>
            match packetHash raw header.flags.headerType with
            | none => w
            | some hash => receiveRequest m linkId hash plaintext w)
        | .resourceIcl => s.withLink linkId (withPlaintext m data (receiveInitiatorCancel linkId))
        | .resourceRcl => s.withLink linkId (withPlaintext m data (receiveReceiverCancel linkId))
        | .resourceHmu => s.withLink linkId (withPlaintext m data (receiveHashmapUpdate m linkId))
        | .resourcePrf => s.withLink linkId fun w => receiveProof m linkId data
            { w with active := { w.active with
              link := (w.active.link.recordInbound m.now).recordRx data.length } }
        | _ => s

end LinkManager

/-! ### Events -/

/-- The events of a manager. Calls of a session stand for packets that are not about resources. -/
inductive ManagerEvent (F : Type)
  | linkRequest (link : LinkSession F) (interfaceId : ℕ) (interfaceOwner : Option ℕ)
  | linkCall (linkId : Octets 16) (call : LinkCall F)
  | packet (raw : Bytes) (interfaceId : ℕ) (interfaceOwner : Option ℕ)
  | start (linkId : Octets 16) (request : ResourceTransferStart)
  | cancel (linkId : Octets 16) (resourceId : Octets 32) (direction : LinkResourceDirection)
  | complete (linkId : Octets 16) (resourceHash : Octets 32)
  | setResourceStrategy (strategy : ResourceStrategy)
  | setResourceAcceptHandler (registered : Bool)
  | setRequestHandler (registered : Bool)
  | setRequestHandlerEx (registered : Bool)
  | setDestinationRequestHandlers (paths : List (Octets 16))
  | close (linkId : Octets 16) (reason : CloseReason) (sendTeardown : Bool)
  | tick

namespace LinkManager

variable [Ed25519] [X25519] [Hkdf]

/-- A manager with one more link; a link that is active is kept. -/
def acceptLink (link : LinkSession F) (interfaceId : ℕ) (interfaceOwner : Option ℕ)
    (s : LinkManager F) : LinkManager F :=
  if s.activeLinks.contains link.linkId then s
  else
    let active : ActiveLink F :=
      { link := { link with resourceStrategy := s.shared.resourceStrategy }
        interfaceId
        interfaceOwner
        inboundResources := ∅
        outboundResources := ∅
        outboundSplitQueues := ∅
        inboundSplitResources := ∅
        segmentRouting := ∅ }
    { s with activeLinks := s.activeLinks.insert link.linkId active }

/-- One event at a moment. -/
def step (s : LinkManager F) (e : Moment × ManagerEvent F) : LinkManager F :=
  match e.2 with
  | .linkRequest link interfaceId interfaceOwner => acceptLink link interfaceId interfaceOwner s
  | .linkCall linkId call => s.withLink linkId fun w =>
      { w with active := { w.active with link := w.active.link.call call } }
  | .packet raw interfaceId interfaceOwner => handleInboundPacket e.1 raw interfaceId interfaceOwner s
  | .start linkId request => s.withLink linkId (startResourceTransferInner e.1 linkId request)
  | .cancel linkId resourceId direction =>
    s.withLink linkId (cancelLinkResource e.1 linkId resourceId direction)
  | .complete linkId resourceHash => s.withLink linkId (completeResource linkId resourceHash)
  | .setResourceStrategy strategy => { s with shared := { s.shared with resourceStrategy := strategy } }
  | .setResourceAcceptHandler registered =>
    { s with shared := { s.shared with resourceAcceptHandler := registered } }
  | .setRequestHandler registered => { s with shared := { s.shared with requestHandler := registered } }
  | .setRequestHandlerEx registered =>
    { s with shared := { s.shared with requestHandlerEx := registered } }
  | .setDestinationRequestHandlers paths =>
    { s with shared := { s.shared with destinationRequestHandlers := paths } }
  | .close linkId reason sendTeardown => closeActiveLinkInner e.1 linkId reason sendTeardown s
  | .tick => onTick e.1 s

/-- `LinkManager::new`. -/
def new : LinkManager F where
  activeLinks := ∅
  shared :=
    { pendingLinkControl := []
      sent := []
      emissions := 0
      activeInboundLifecycles := ∅
      resourceStrategy := .acceptAll
      resourceAcceptHandler := false
      requestHandler := false
      requestHandlerEx := false
      destinationRequestHandlers := []
      accounting := []
      completedRequests := [] }

end LinkManager

end Reticulum.Manager
