import Reticulum.Resource.Inbound
import Reticulum.Resource.Sender

/-!
# The receiving side of a resource transfer

`InboundTransfer` of `resource.rs`: it requests the missing parts of its window, asks for more map
hashes when it runs out of them, retries after timeouts and, once all parts have arrived, assembles
the data and proves its receipt. Rates and timeouts are floating-point numbers of type `F`; every
call reads the clock once.
-/

namespace Reticulum.Resource

open Binary64

/-- `InboundTransfer`. -/
structure InboundTransfer (F : Type) where
  resource : InboundResource
  partsSinceHmu : ℕ
  startedAt : ℕ
  accepted : Bool
  rtt : ℕ
  outstandingParts : ℕ
  lastActivity : ℕ
  reqSent : Option ℕ
  reqResp : Option ℕ
  retriesLeft : ℕ
  waitingForHmu : Bool
  hashmapHeight : ℕ
  partTimeoutFactor : F
  rttRxdBytes : ℕ
  rttRxdBytesAtPartReq : ℕ
  reqDataRttRate : F
  eifr : Option F
  previousEifr : Option F
  deriving DecidableEq, Repr

namespace InboundTransfer

variable {F : Type}

/-- The transfer with its resource in another state. -/
def withState (t : InboundTransfer F) (state : ResourceState) : InboundTransfer F :=
  { t with resource := { t.resource with state } }

/-- `InboundTransfer::handle_cancel`. -/
def handleCancel (t : InboundTransfer F) : InboundTransfer F := t.withState .failed

/-- `InboundTransfer::cancel`. -/
def cancel (t : InboundTransfer F) : InboundTransfer F × TransferAction :=
  (t.withState .failed, .sendCancel .rcl t.resource.resourceHash)

/-! ### Requests -/

/-- The map hashes of the missing parts among the given ones, up to the size of the window, and
whether a map hash was missing. -/
def collect (r : InboundResource) : List ℕ → List (Octets 4) → List (Octets 4) × Bool
  | [], requested => (requested, false)
  | pn :: pns, requested =>
    if r.parts[pn]? = some none then
      match r.mapHashes[pn]? with
      | none => (requested, true)
      | some mh =>
        if r.window.window ≤ requested.length + 1 then (requested ++ [mh], false)
        else collect r pns (requested ++ [mh])
    else if r.window.window ≤ requested.length then (requested, false)
    else collect r pns requested

/-- The map hashes to request, and whether the hash map is exhausted. -/
def missing (r : InboundResource) : List (Octets 4) × Bool :=
  collect r (List.range' r.consecutiveCompleted (r.windowEnd - r.consecutiveCompleted)) []

/-- The bytes of a request. -/
def requestData (t : InboundTransfer F) : Bytes :=
  let (requested, exhausted) := missing t.resource
  let lastMapHash := if t.hashmapHeight = 0 then none
    else t.resource.mapHashes[t.hashmapHeight - 1]?
  (if exhausted then hashmapIsExhausted :: (lastMapHash.map Subtype.val).getD []
    else [hashmapIsNotExhausted]) ++ t.resource.resourceHash.1 ++ requested.flatMap (·.1)

/-- `InboundTransfer::request_next`. -/
def requestNext (t : InboundTransfer F) (now : ℕ) : InboundTransfer F × TransferAction :=
  if t.resource.state ≠ .transferring ∨ t.resource.isComplete ∨ t.waitingForHmu then (t, .none)
  else
    let (requested, exhausted) := missing t.resource
    ({ t with
        outstandingParts := requested.length
        waitingForHmu := exhausted
        lastActivity := now
        reqSent := some now
        reqResp := none
        rttRxdBytesAtPartReq := t.rttRxdBytes },
      .sendRequest t.requestData)

/-! ### Hash map updates -/

/-- The map hash that stands for an unknown one. -/
def zeroHash : Octets 4 := Octets.replicate 4 0

/-- Map hashes written from an index on, and the height of the hash map; indices of parts that do
not exist end it. -/
def insertHashes (totalParts : ℕ) :
    List (Octets 4) → ℕ → List (Octets 4) → ℕ → List (Octets 4) × ℕ
  | [], _, mapHashes, height => (mapHashes, height)
  | mh :: rest, idx, mapHashes, height =>
    if totalParts ≤ idx then (mapHashes, height)
    else
      let mapHashes := mapHashes ++ List.replicate (idx + 1 - mapHashes.length) zeroHash
      let height := if mapHashes[idx]? = some zeroHash then height + 1 else height
      insertHashes totalParts rest (idx + 1) (mapHashes.set idx mh) height

/-- `InboundTransfer::hashmap_update`. -/
def hashmapUpdate (t : InboundTransfer F) (segment : ℕ) (hashmapData : Bytes) (now : ℕ) :
    InboundTransfer F × TransferAction :=
  if t.resource.state ≠ .transferring ∨ ¬ t.waitingForHmu then (t, .none)
  else if hashmapData.length < 4 ∨ hashmapData.length % 4 ≠ 0 then t.cancel
  else
    let segmentStart := segment * hashmapMaxLen Wire.linkMdu
    if usizeMax < segmentStart ∨ t.resource.totalParts ≤ segmentStart then t.cancel
    else if t.hashmapHeight < segmentStart then t.cancel
    else if segmentStart + hashmapData.length / 4 ≤ t.hashmapHeight then (t, .none)
    else
      let (mapHashes, hashmapHeight) := insertHashes t.resource.totalParts
        (mapHashChunks hashmapData) segmentStart t.resource.mapHashes t.hashmapHeight
      requestNext
        { t with
          resource := { t.resource with mapHashes }
          lastActivity := now
          retriesLeft := maxRetries
          hashmapHeight
          waitingForHmu := false } now

/-- `InboundTransfer::create_hmu`. -/
def createHmu (t : InboundTransfer F) : Bytes :=
  let r := t.resource
  if r.isComplete then
    hashmapIsExhausted :: (r.mapHashes.getLast?.map Subtype.val).getD [] ++ r.resourceHash.1
  else
    let needed := (List.range' r.consecutiveCompleted (r.windowEnd - r.consecutiveCompleted)).filterMap
      fun i => if r.parts[i]? = some none then r.mapHashes[i]? else none
    hashmapIsNotExhausted :: r.resourceHash.1 ++ needed.flatMap (·.1)

/-! ### Rates -/

variable [Binary64 F]

/-- `InboundTransfer::from_advertisement`. -/
def fromAdvertisement (totalParts totalSize dataSize : ℕ) (randomHash : Octets 4)
    (resourceHash : Octets 32) (flags : ResourceFlags) (mapHashes : List (Octets 4))
    (rtt now : ℕ) : Except ResourceError (InboundTransfer F) := do
  let resource ←
    InboundResource.new totalParts totalSize dataSize randomHash resourceHash flags mapHashes
  return {
    resource
    partsSinceHmu := 0
    startedAt := now
    accepted := true
    rtt
    outstandingParts := 0
    lastActivity := now
    reqSent := none
    reqResp := none
    retriesLeft := maxRetries
    waitingForHmu := false
    hashmapHeight := mapHashes.length
    partTimeoutFactor := ofRat 4
    rttRxdBytes := 0
    rttRxdBytesAtPartReq := 0
    reqDataRttRate := ofRat 0
    eifr := none
    previousEifr := none }

theorem fromAdvertisement_eq_ok {totalParts totalSize dataSize rtt now : ℕ} {randomHash : Octets 4}
    {resourceHash : Octets 32} {flags : ResourceFlags} {mapHashes : List (Octets 4)}
    {t : InboundTransfer F}
    (h : fromAdvertisement totalParts totalSize dataSize randomHash resourceHash flags mapHashes rtt
      now = .ok t) :
    InboundResource.new totalParts totalSize dataSize randomHash resourceHash flags mapHashes =
      .ok t.resource ∧ t.hashmapHeight = mapHashes.length := by
  obtain ⟨resource, hnew, heq⟩ := bind_eq_ok.mp h
  obtain rfl := Except.ok.inj heq
  exact ⟨hnew, rfl⟩

/-- `InboundTransfer::seed_previous_eifr`. -/
def seedPreviousEifr (t : InboundTransfer F) (bitsPerSec : F) : InboundTransfer F :=
  if lt (ofRat 0) bitsPerSec then { t with previousEifr := some bitsPerSec }
  else t

/-- `InboundTransfer::update_eifr`. -/
def updateEifr (t : InboundTransfer F) : InboundTransfer F :=
  let rttSecs := max (Duration.asSecsF64 F t.rtt) (ofRat (1 / 1000))
  let rate := if lt (ofRat 0) t.reqDataRttRate then
      mul t.reqDataRttRate (ofRat 8)
    else t.previousEifr.getD (div (ofRat (600 * 8)) rttSecs)
  { t with
    eifr := some rate
    previousEifr := if lt (ofRat 0) rate then some rate else t.previousEifr }

/-- The rate over the completed window, when time has passed since its request. -/
def measureWindow (t : InboundTransfer F) : InboundTransfer F :=
  match t.reqSent with
  | none => t
  | some sentAt =>
    let rtt := Duration.asSecsF64 F (t.lastActivity - sentAt)
    if lt (ofRat 0) rtt then
      { { t with
          reqDataRttRate := div
            (ofRat (t.rttRxdBytes - t.rttRxdBytesAtPartReq : ℕ)) rtt }.updateEifr with
        rttRxdBytesAtPartReq := t.rttRxdBytes }
    else t

/-- The window after a completed round. -/
def growWindow (t : InboundTransfer F) (now : ℕ) : InboundTransfer F :=
  let elapsed := Duration.asSecsF64 F (now - t.startedAt)
  let rate := if lt (ofRat 0) elapsed then
      div (ofRat (t.resource.receivedCount * sdu : ℕ)) elapsed
    else ofRat 0
  { t with
    resource := { t.resource with window := t.resource.window.grow (toUsize rate) } }

/-- The bookkeeping of an accepted part: the first one after a request is a round-trip sample. -/
def recordPart (t : InboundTransfer F) (payloadLen now : ℕ) : InboundTransfer F :=
  let t := { t with lastActivity := now, retriesLeft := maxRetries }
  let t := match t.reqResp, t.reqSent with
    | none, some sent =>
      { t with reqResp := some now, rtt := now - sent, partTimeoutFactor := ofRat 2 }
    | none, none => { t with reqResp := some now }
    | some _, _ => t
  { t with
    partsSinceHmu := t.partsSinceHmu + 1
    rttRxdBytes := min (t.rttRxdBytes + payloadLen) usizeMax
    outstandingParts := t.outstandingParts - 1 }

/-- `InboundTransfer::receive_part`. -/
def receivePart [Sha256] (t : InboundTransfer F) (data : Bytes) (now : ℕ) :
    InboundTransfer F × TransferAction :=
  if t.resource.state ≠ .transferring then (t, .none)
  else
    let (resource, placed) := t.resource.receivePart data
    if ¬ placed then (t, .none)
    else
      let t := { t with resource }.recordPart data.length now
      if t.resource.isComplete then ({ t with partsSinceHmu := 0 }, .complete)
      else if t.outstandingParts = 0 then (t.measureWindow.growWindow now).requestNext now
      else (t, .none)

/-- The time that the receiver waits before it retries. -/
def retryTimeout (t : InboundTransfer F) : F :=
  let extraWait := mul (ofRat (maxRetries - t.retriesLeft : ℕ))
    (ofRat (1 / 2) : F)
  let eifr := max (t.eifr.getD (ofRat 1)) (ofRat 1)
  let sduF : F := ofRat (t.resource.sdu : ℕ)
  let expectedHmuWaitRemaining := if t.waitingForHmu ∨ t.outstandingParts = 0 then
      div (mul (mul sduF (ofRat 8)) (ofRat (7 / 2)))
        eifr
    else ofRat 0
  let expectedTofRemaining := div
    (mul (mul (ofRat (t.outstandingParts : ℕ)) sduF) (ofRat 8))
    eifr
  if lt (ofRat 0) t.reqDataRttRate then
    add
      (add (add (mul t.partTimeoutFactor expectedTofRemaining) expectedHmuWaitRemaining)
        (ofRat (1 / 4)))
      extraWait
  else
    add
      (add (mul t.partTimeoutFactor (div (mul (ofRat 3) sduF) eifr)) (ofRat (1 / 4)))
      extraWait

/-- `InboundTransfer::check_timeout`. -/
def checkTimeout (t : InboundTransfer F) (now : ℕ) : InboundTransfer F × TransferAction :=
  if t.resource.state ≠ .transferring ∨ t.resource.isComplete then (t, .none)
  else
    let t := t.updateEifr
    if lt t.retryTimeout (Duration.asSecsF64 F (now - t.lastActivity)) then
      if 0 < t.retriesLeft then
        requestNext
          { t with
            resource := { t.resource with window := t.resource.window.shrink }
            retriesLeft := t.retriesLeft - 1
            waitingForHmu := false } now
      else (t.withState .failed, .failed "resource transfer timed out")
    else (t, .none)

/-! ### Completion -/

/-- `InboundTransfer::complete`: the payload and the proof. -/
def complete [Sha256] [Bzip2] (t : InboundTransfer F)
    (decryptFn : Option (Bytes → Except ResourceError Bytes)) :
    InboundTransfer F × Except ResourceError (Bytes × Bytes) :=
  let (resource, result) := t.resource.assemble decryptFn
  let t := { t with resource }
  match result with
  | .error e => (t, .error e)
  | .ok data =>
    let proofInput := if resource.flags.hasMetadata then
        match resource.metadata with
        | some m => OutboundResource.frameMetadata m ++ data
        | none => data
      else data
    (t, .ok (data, resource.generateProof proofInput))

end InboundTransfer

end Reticulum.Resource
