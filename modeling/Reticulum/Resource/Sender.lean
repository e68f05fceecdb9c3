import Reticulum.Foundation.Duration
import Reticulum.Resource.Outbound

/-!
# The sending side of a resource transfer

`OutboundTransfer` of `resource.rs`: it advertises a resource, answers requests with parts and hash
map updates, and waits for the proof. Parts are searched for in a bounded range above the height
that the receiver is known to have reached. Every call reads the clock once.
-/

namespace Reticulum.Resource

open Duration Binary64

/-- `CancelType`. -/
inductive CancelType
  | icl
  | rcl
  deriving DecidableEq, Repr

/-- `TransferAction`. -/
inductive TransferAction
  | none
  | sendAdvertisement (data : Bytes)
  | sendPart (index : ℕ) (data : Bytes)
  | sendProof (data : Bytes)
  | sendHmu (data : Bytes)
  | sendRequest (data : Bytes)
  | complete
  | failed (reason : String)
  | sendCancel (type : CancelType) (resourceHash : Octets 32)
  deriving DecidableEq, Repr

/-- `OutboundTransfer`. -/
structure OutboundTransfer where
  resource : OutboundResource
  cursor : ℕ
  confirmedParts : List Bool
  windowCursor : ℕ
  retries : ℕ
  lastPartSent : Option ℕ
  startedAt : ℕ
  rtt : ℕ
  awaitingHmu : Bool
  advertised : Bool
  windowMaxSent : ℕ
  receiverMinConsecutiveHeight : ℕ
  sentParts : ℕ
  sentPartIndices : List ℕ
  reqHashlist : List (Octets 32)
  lastProgress : ℕ
  lastRequestParts : ℕ
  deriving DecidableEq, Repr

namespace OutboundTransfer

/-- `OutboundTransfer::from_resource`. -/
def fromResource (resource : OutboundResource) (rtt now : ℕ) : OutboundTransfer where
  resource := resource
  cursor := 0
  confirmedParts := List.replicate resource.numParts false
  windowCursor := 0
  retries := 0
  lastPartSent := none
  startedAt := now
  rtt := rtt
  awaitingHmu := false
  advertised := false
  windowMaxSent := 0
  receiverMinConsecutiveHeight := 0
  sentParts := 0
  sentPartIndices := []
  reqHashlist := []
  lastProgress := now
  lastRequestParts := 0

/-- The transfer with its resource in another state. -/
def withState (t : OutboundTransfer) (state : ResourceState) : OutboundTransfer :=
  { t with resource := { t.resource with state } }

/-! ### Advertising and waiting -/

/-- The advertisement of a resource. -/
def advertisement (r : OutboundResource) : ResourceAdvertisement :=
  let adv := ResourceAdvertisement.new r.totalSize r.advertisementDataSize r.numParts r.resourceHash
    r.randomHash.1 r.flags r.mapHashes Wire.linkMdu
  let adv := if r.flags.split then
      { adv with
        segmentIndex := r.segmentIndex
        totalSegments := r.totalSegments
        originalHash := r.originalHash.getD adv.originalHash }
    else adv
  { adv with requestId := r.requestId }

/-- `OutboundTransfer::create_advertisement`. -/
def createAdvertisement (t : OutboundTransfer) : Except ResourceError Bytes := do
  match t.resource.requestId with
  | some id => checkControlFrame .resourceAdv id.length true Wire.headerMinsize Wire.mtu
  | none => pure ()
  checkAdvertisement (advertisement t.resource) Wire.mtu
  return (advertisement t.resource).pack

/-- `OutboundTransfer::progress_timeout`: ten seconds of grace and the growing delays of all
retries, on top of four round trips for each retry and each part of the last request. -/
def progressTimeout (t : OutboundTransfer) : ℕ :=
  let requestCount := min (maxRetries + t.lastRequestParts) (2 ^ 32 - 1)
  saturatingAdd (saturatingMul (saturatingMul t.rtt 4) requestCount)
    (fromSecs (10 + maxRetries * (maxRetries + 1) / 2 / 2))

/-- The wait for an answer to an advertisement. -/
def advertisementTimeout (t : OutboundTransfer) : ℕ :=
  saturatingAdd (saturatingMul t.rtt 6) (fromSecs 1)

/-- `OutboundTransfer::check_timeout`. -/
def checkTimeout (t : OutboundTransfer) (now : ℕ) : OutboundTransfer × TransferAction :=
  match t.resource.state with
  | .failed | .rejected | .corrupt => (t, .failed "transfer failed")
  | .transferring =>
    if t.progressTimeout < now - t.lastProgress then
      (t.withState .failed, .failed "resource part requests timed out")
    else (t, .none)
  | .awaitingProof =>
    if t.progressTimeout < now - t.lastProgress then
      (t.withState .failed, .failed "resource proof timed out")
    else (t, .none)
  | .advertised =>
    if now - t.startedAt ≤ t.advertisementTimeout then (t, .none)
    else if t.retries < maxAdvRetries then
      let t := { t with retries := t.retries + 1, startedAt := now }
      match t.createAdvertisement with
      | .ok bytes => (t, .sendAdvertisement bytes)
      | .error e => (t.withState .failed, .failed e.message)
    else (t.withState .failed, .failed "resource advertisement timed out")
  | .none | .queued | .assembling | .complete => (t, .none)

/-- `OutboundTransfer::tick`. -/
def tick (t : OutboundTransfer) (now : ℕ) : OutboundTransfer × TransferAction :=
  match t.resource.state with
  | .complete => (t, .complete)
  | .failed | .rejected | .corrupt => (t, .failed "transfer failed")
  | .none | .queued | .advertised | .transferring | .awaitingProof | .assembling =>
    if ¬ t.advertised then
      match t.createAdvertisement with
      | .error e => (t.withState .failed, .failed e.message)
      | .ok bytes =>
        ({ t with advertised := true, startedAt := now }.withState .advertised,
          .sendAdvertisement bytes)
    else t.checkTimeout now

/-! ### Receiver feedback -/

/-- The parts of the sent window that the receiver does not ask for. -/
def confirmed (t : OutboundTransfer) (requested : List (Octets 4)) : List ℕ :=
  let windowEnd :=
    max t.windowMaxSent (min (t.cursor + t.resource.window.window) t.resource.numParts)
  (List.range' t.cursor (windowEnd - t.cursor)).filter fun i =>
    t.confirmedParts[i]? = some false ∧ ∃ mh ∈ t.resource.mapHashes[i]?, mh ∉ requested

/-- `OutboundTransfer::handle_hmu`, with the rate computed in `F`. -/
def handleHmu (F : Type) [Binary64 F] (t : OutboundTransfer) (hmuData : Bytes) (now : ℕ) :
    OutboundTransfer :=
  match hmuData with
  | [] => t
  | flag :: rest =>
    let exhausted := flag = hashmapIsExhausted
    let body := if exhausted then rest.drop 4 else rest
    if t.resource.state.isTerminal then t
    else if rest.length < (if exhausted then 4 else 0) + 32 then t
    else if body.take 32 ≠ t.resource.resourceHash.1 then t
    else if ¬ exhausted then
      let newly := t.confirmed (mapHashChunks (body.drop 32))
      let confirmedParts := newly.foldl (fun parts i => parts.set i true) t.confirmedParts
      let cursor := t.cursor + ((confirmedParts.drop t.cursor).takeWhile id).length
      let t := { t with confirmedParts, cursor, windowCursor := cursor, awaitingHmu := false }
      if newly = [] then t
      else
        let elapsed := asSecsF64 F (now - t.startedAt)
        let rate := if lt (ofRat 0) elapsed then
            div (ofRat (newly.length * sdu : ℕ)) elapsed
          else ofRat 0
        { t with
          resource := { t.resource with window := t.resource.window.grow (toUsize rate) }
          retries := 0 }
    else
      { t with
        confirmedParts := List.replicate t.confirmedParts.length true
        cursor := t.resource.numParts
        windowCursor := t.resource.numParts
        awaitingHmu := false
        resource := { t.resource with
          state := .awaitingProof
          window := t.resource.window.grow 0 } }

/-! ### Requests -/

/-- A request for parts, as far as the sender reads it. -/
structure PartRequest where
  /-- The last map hash of the receiver, when it asks for more of them. -/
  lastMapHash : Option (Octets 4)
  requested : List (Octets 4)
  deriving DecidableEq, Repr

/-- The request in `requestData`, when it is one for the resource. -/
def parseRequest (resourceHash : Octets 32) (requestData : Bytes) : Option PartRequest :=
  match requestData with
  | [] => none
  | flag :: rest =>
    if flag ≠ hashmapIsNotExhausted ∧ flag ≠ hashmapIsExhausted then none
    else
      let wantsMoreHashmap := flag = hashmapIsExhausted
      let pad := if wantsMoreHashmap then 4 else 0
      if rest.length < pad + 32 then none
      else if (rest.drop pad).take 32 ≠ resourceHash.1 ∨ (rest.length - (pad + 32)) % 4 ≠ 0 then none
      else some
        { lastMapHash := if wantsMoreHashmap then some (Octets.read 4 rest) else none
          requested := mapHashChunks (rest.drop (pad + 32)) }

/-- The start and the end of the range in which requested parts are searched. -/
def searchRange (t : OutboundTransfer) : ℕ × ℕ :=
  let searchStart := t.receiverMinConsecutiveHeight
  (searchStart, min (searchStart + collisionGuardSize Wire.linkMdu) t.resource.numParts)

/-- The requested parts in the search range. -/
def requestedParts (t : OutboundTransfer) (requested : List (Octets 4)) : List (ℕ × Bytes) :=
  let (searchStart, searchEnd) := t.searchRange
  (List.range' searchStart (searchEnd - searchStart)).filterMap fun i => do
    let mh ← t.resource.mapHashes[i]?
    let part ← t.resource.getPart i
    if mh ∈ requested then some (i, part) else none

/-- The index behind the reported map hash, or the end of the search range. -/
def locate (t : OutboundTransfer) (lastMapHash : Octets 4) : ℕ :=
  let (searchStart, searchEnd) := t.searchRange
  match (List.range' searchStart (searchEnd - searchStart)).find? fun i =>
      t.resource.mapHashes[i]? = some lastMapHash with
  | some i => i + 1
  | none => max searchStart searchEnd

/-- The map hashes of one segment of the hash map. -/
def hashmapSegment (r : OutboundResource) (segment : ℕ) : Bytes :=
  let hashmapMaxLen := hashmapMaxLen Wire.linkMdu
  let hashmapEnd := min ((segment + 1) * hashmapMaxLen) r.numParts
  ((r.mapHashes.take hashmapEnd).drop (segment * hashmapMaxLen)).flatMap (·.1)

/-- The answer to a receiver whose hash map ends at a part: the next segment of the hash map, or the
cancellation when there is none or the part is not at the end of a segment. -/
def hashmapAnswer (r : OutboundResource) (partIndex : ℕ) : TransferAction :=
  let hashmapMaxLen := hashmapMaxLen Wire.linkMdu
  let segment := partIndex / hashmapMaxLen
  let hashmapBytes := hashmapSegment r segment
  if partIndex % hashmapMaxLen ≠ 0 ∨ hashmapBytes = [] then .sendCancel .icl r.resourceHash
  else .sendHmu (encodeHashmapUpdate r.resourceHash segment hashmapBytes)

/-- The bookkeeping of transmitted parts. -/
def recordSent (t : OutboundTransfer) (sent : List (ℕ × Bytes)) : OutboundTransfer :=
  sent.foldl (fun t part =>
    if part.1 ∈ t.sentPartIndices then t
    else { t with sentPartIndices := part.1 :: t.sentPartIndices, sentParts := t.sentParts + 1 }) t

/-- The start of the search range after a report at the given part: the window behind it. -/
def heightBehind (partIndex : ℕ) : ℕ :=
  if windowMax < partIndex then partIndex - 1 - windowMax else 0

/-- The answer to a request for more map hashes, with the new start of the search range. A
cancellation ends the transfer. -/
def answerExhausted (t : OutboundTransfer) (lastMapHash : Octets 4) :
    OutboundTransfer × TransferAction :=
  let partIndex := t.locate lastMapHash
  let action := hashmapAnswer t.resource partIndex
  let t := { t with receiverMinConsecutiveHeight := heightBehind partIndex }
  match action with
  | .sendHmu _ => (t, action)
  | _ => (t.withState .failed, action)

/-- The clocks and the state after parts were sent. -/
def recordProgress (t : OutboundTransfer) (previouslySent sentCount now : ℕ) : OutboundTransfer :=
  if sentCount = 0 then t
  else
    let progress := previouslySent < t.sentParts
    let state := if t.sentParts = t.resource.numParts then ResourceState.awaitingProof
      else .transferring
    { t with
      rtt := if t.resource.state = ResourceState.advertised ∧ t.rtt = 0 then now - t.startedAt
        else t.rtt
      lastPartSent := some now
      lastProgress := if progress then now else t.lastProgress
      lastRequestParts := if progress then sentCount else t.lastRequestParts
      retries := if progress then 0 else t.retries
      resource := { t.resource with state } }

/-- `OutboundTransfer::handle_request`. -/
def handleRequest (t : OutboundTransfer) (requestData : Bytes) (now : ℕ) :
    OutboundTransfer × List TransferAction :=
  if t.resource.state.isTerminal then (t, [])
  else
    match parseRequest t.resource.resourceHash requestData with
    | none => (t, [])
    | some request =>
      let sent := t.requestedParts request.requested
      let actions := sent.map fun part => TransferAction.sendPart part.1 part.2
      let previouslySent := t.sentParts
      let t := t.recordSent sent
      match request.lastMapHash with
      | none => (t.recordProgress previouslySent sent.length now, actions)
      | some lastMapHash =>
        let (t, action) := t.answerExhausted lastMapHash
        if t.resource.state = .failed then (t, actions ++ [action])
        else (t.recordProgress previouslySent sent.length now, actions ++ [action])

/-- `OutboundTransfer::handle_request_packet`. -/
def handleRequestPacket (t : OutboundTransfer) (packetHash : Octets 32) (requestData : Bytes)
    (now : ℕ) : OutboundTransfer × List TransferAction :=
  if packetHash ∈ t.reqHashlist then (t, [])
  else { t with reqHashlist := packetHash :: t.reqHashlist }.handleRequest requestData now

/-! ### The end of a transfer -/

/-- `OutboundTransfer::handle_cancel`. -/
def handleCancel (t : OutboundTransfer) : OutboundTransfer := t.withState .failed

/-- `OutboundTransfer::handle_proof`. -/
def handleProof (t : OutboundTransfer) (proofData : Bytes) : OutboundTransfer × Bool :=
  if t.resource.state.isTerminal ∨ proofData.length ≠ 64 ∨
      proofData.take 32 ≠ t.resource.resourceHash.1 then (t, false)
  else
    let (resource, accepted) := t.resource.validateProof proofData
    ({ t with resource }, accepted)

end OutboundTransfer

end Reticulum.Resource
