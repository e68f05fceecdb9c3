import Reticulum.Link.Parts

/-!
# Link sessions

A link over its whole life, with every operation of `link.rs` of the `rns-link` crate that changes
it. An operation that can fail returns the session it leaves behind next to its result, so that what
it has written before an early return shows. Callbacks, which the owner dispatches, are left out.

One reading `now` of the clock is used by a call throughout; the random fraction `jitter` of the
keepalive timer and the initialisation vector `iv` of a token are arguments.
-/

namespace Reticulum

open Wire MessagePack Binary64

/-- `CloseReason`. -/
inductive CloseReason
  | timeout
  | initiatorClosed
  | destinationClosed
  deriving DecidableEq, Repr

/-- `ResourceStrategy`. -/
inductive ResourceStrategy
  | acceptNone
  | acceptApp
  | acceptAll
  deriving DecidableEq, Repr

/-- `OutboundResourceState`. -/
inductive OutboundResourceState
  | transferring
  | awaitingProof
  | complete
  | failed
  deriving DecidableEq, Repr

/-- `LinkAction`. -/
inductive LinkAction
  | none
  | sendKeepalive
  | transitionedToStale
  | sendTeardownAndClose (teardownData : Bytes)
  | closed (reason : CloseReason)
  deriving DecidableEq, Repr

/-- `TimeoutError`. -/
inductive TimeoutError
  | unrepresentable
  deriving DecidableEq, Repr

/-- `Link`, without its callbacks. -/
structure LinkSession (F : Type) extends Link where
  teardownReason : Option CloseReason
  responderIdentitySigningKey : Option (Octets 32)
  requestTime : ℕ
  rtt : Option ℕ
  establishmentTimeout : ℕ
  activatedAt : Option ℕ
  staleSince : Option ℕ
  keepalive : KeepaliveState
  resourceStrategy : ResourceStrategy
  pendingRequests : List RequestReceipt
  incomingResources : List (Octets 32)
  outgoingResources : List (Octets 32)
  outgoingResourceStates : List OutboundResourceState
  incomingResourceCount : ℕ
  establishmentRate : Option F
  expectedRate : Option F
  expectedHops : Option ℕ
  remoteIdentityPub : Option (Octets 64)
  identified : Bool
  txBytes : ℕ
  rxBytes : ℕ
  txCount : ℕ
  rxCount : ℕ
  rssi : Option F
  snr : Option F
  q : Option F
  trackPhyStats : Bool
  hasChannel : Bool
  deriving DecidableEq, Repr

/-! ### Requests -/

/-- `msgpack_value_from_bytes_or_binary`. -/
def msgpackValueFromBytesOrBinary (data : Bytes) : Value :=
  match readValue maxDepth data with
  | some (value, []) => value
  | _ => .binary data

/-- `msgpack_value_to_bytes`. -/
def msgpackValueToBytes (value : Value) : Bytes := value.asSlice.getD (writeValue value)

/-- The truncated identifier of a request in front of 16 zeros. -/
def receiptId (requestId : Octets 16) : Octets 32 :=
  ⟨requestId.1 ++ List.replicate 16 0, by simp⟩

/-- The receipt is of the request. -/
def RequestReceipt.names (r : RequestReceipt) (requestId : Octets 16) : Bool :=
  r.requestId.1.take 16 == requestId.1

namespace LinkSession

variable {F : Type}

/-- `Link::parse_response_plaintext`. -/
def parseResponsePlaintext (plaintext : Bytes) : Except LinkCryptoError (Octets 16 × Bytes) :=
  match readValue maxDepth plaintext with
  | some (.array (id :: response :: _), _) =>
    match id.asSlice with
    | some idBytes =>
      if idBytes.length ≠ 16 then .error .decryptionFailed
      else .ok (Octets.read 16 idBytes, msgpackValueToBytes response)
    | none => .error .decryptionFailed
  | _ => .error .decryptionFailed

/-! ### Construction -/

section Construction

variable [Binary64Bits F] [Sha256] [Ed25519] [X25519]

/-- `ESTABLISHMENT_TIMEOUT_PER_HOP` for each hop. -/
def establishmentSecs (F : Type) [Binary64 F] (hops : ℕ) : F :=
  mul (ofRat 6) (ofRat (max hops 1 : ℕ))

/-- The session of a link that was just constructed. -/
def ofLink (link : Link) (identitySigningKey : Option (Octets 32)) (timeoutSecs : F)
    (expectedHops : Option ℕ) (now : ℕ) (jitter : F) : LinkSession F where
  toLink := link
  teardownReason := none
  responderIdentitySigningKey := identitySigningKey
  requestTime := now
  rtt := none
  establishmentTimeout := Duration.fromSecsF64 timeoutSecs
  activatedAt := none
  staleSince := none
  keepalive := .new link.isInitiator now jitter
  resourceStrategy := .acceptNone
  pendingRequests := []
  incomingResources := []
  outgoingResources := []
  outgoingResourceStates := []
  incomingResourceCount := 0
  establishmentRate := none
  expectedRate := none
  expectedHops := expectedHops
  remoteIdentityPub := none
  identified := false
  txBytes := 0
  rxBytes := 0
  txCount := 0
  rxCount := 0
  rssi := none
  snr := none
  q := none
  trackPhyStats := false
  hasChannel := false

/-- `Link::new_initiator`: the session and the request data to transmit. -/
def newInitiator (destinationHash : Octets 16) (hops : ℕ) (keys : EphemeralKeys) (now : ℕ)
    (jitter : F) : LinkSession F × Bytes :=
  let (link, requestData) := Link.newInitiator destinationHash keys
  (ofLink link none (establishmentSecs F hops) (some hops) now jitter, requestData)

variable [Hkdf]

/-- `Link::new_responder_inner`: the session and the proof to transmit. -/
def newResponderInner (requestData : Bytes) (identityEd25519Pub : Octets 32)
    (destinationHash : Octets 16) (hops : ℕ) (identitySigningKey : Option (Octets 32))
    (signFn : Bytes → Option (Octets 64)) (keys : EphemeralKeys) (now : ℕ) (jitter : F) :
    Except HandshakeError (LinkSession F × Bytes) := do
  let (link, _, proofData) ←
    Link.newResponderInner requestData identityEd25519Pub destinationHash signFn keys
  let timeoutSecs := add (establishmentSecs F hops) (KeepaliveState.keepaliveMax F)
  return (ofLink link identitySigningKey timeoutSecs none now jitter, proofData)

/-- `Link::new_responder`. -/
def newResponder (requestData : Bytes) (identitySigningKey : Octets 32)
    (destinationHash : Octets 16) (hops : ℕ) (keys : EphemeralKeys) (now : ℕ) (jitter : F) :
    Except HandshakeError (LinkSession F × Bytes) :=
  newResponderInner requestData (Ed25519.publicKey identitySigningKey) destinationHash hops
    (some identitySigningKey) (fun message => some (Ed25519.sign identitySigningKey message)) keys
    now jitter

/-- `Link::new_responder_with`. -/
def newResponderWith (requestData : Bytes) (identityEd25519Pub : Octets 32)
    (destinationHash : Octets 16) (hops : ℕ) (signFn : Bytes → Option (Octets 64))
    (keys : EphemeralKeys) (now : ℕ) (jitter : F) : Except HandshakeError (LinkSession F × Bytes) :=
  newResponderInner requestData identityEd25519Pub destinationHash hops none signFn keys now jitter

end Construction

/-! ### Encryption and closing -/

section Closing

variable [AesCbc] [Hmac]

/-- `Link::encrypt`. -/
def encrypt (s : LinkSession F) (iv : Octets 16) (plaintext : Bytes) :
    Except LinkCryptoError Bytes :=
  match s.sessionKeys with
  | none => .error .encryptionFailed
  | some keys => linkEncrypt iv keys plaintext

/-- `Link::decrypt`. -/
def decrypt (s : LinkSession F) (ciphertext : Bytes) : Except LinkCryptoError Bytes :=
  match s.sessionKeys with
  | none => .error .decryptionFailed
  | some keys => linkDecrypt keys ciphertext

/-- `Link::purge_keys`. -/
def purgeKeys (s : LinkSession F) : LinkSession F :=
  { s with
    ephemeralKeys := none
    sessionKeys := none
    peerX25519Pub := none
    peerPacketProofKey := none
    responderIdentitySigningKey := none }

/-- `Link::close`. The receipts fail before they are dropped, which only their callbacks see. -/
def close (s : LinkSession F) (reason : CloseReason) : LinkSession F :=
  { s with teardownReason := some reason, pendingRequests := [], state := .closed }.purgeKeys

/-- `Link::mark_closed`. -/
def markClosed (s : LinkSession F) (reason : CloseReason) : LinkSession F :=
  if s.state ≠ .closed then s.close reason else s

/-- `Link::teardown`: the payload to send. -/
def teardown (s : LinkSession F) (reason : CloseReason) (iv : Octets 16) :
    LinkSession F × Option Bytes :=
  if s.state = .closed then (s, none)
  else
    let teardownData := (s.encrypt iv s.linkId.1).toOption
    (s.close reason, teardownData)

/-- `Link::receive_teardown`. -/
def receiveTeardown (s : LinkSession F) (encryptedData : Bytes) : LinkSession F × Bool :=
  match s.decrypt encryptedData with
  | .ok plaintext =>
    if 16 ≤ plaintext.length ∧ plaintext.take 16 = s.linkId.1 then
      (s.close .destinationClosed, true)
    else (s, false)
  | .error _ => (s, false)

/-- `Link::set_signing_key`. -/
def setSigningKey (s : LinkSession F) (key : Octets 32) : LinkSession F :=
  if s.isInitiator then s else { s with responderIdentitySigningKey := some key }

/-- `Link::tick_at`. -/
def tick (s : LinkSession F) (now : ℕ) (iv : Octets 16) : LinkSession F × LinkAction :=
  let checked := s.pendingRequests.map (RequestReceipt.checkTimeout · now)
  let s := { s with pendingRequests := checked.filter (!RequestReceipt.concluded ·) }
  match s.state with
  | .pending | .handshake =>
    if s.establishmentTimeout < now - s.requestTime then (s.close .timeout, .closed .timeout)
    else (s, .none)
  | .active =>
    if s.keepalive.shouldSendKeepaliveAt now then
      ({ s with keepalive := s.keepalive.markKeepaliveSentAt now }, .sendKeepalive)
    else if s.keepalive.isStaleAt now then
      ({ s with state := .stale, staleSince := some now }, .transitionedToStale)
    else (s, .none)
  | .stale =>
    let grace := KeepaliveState.staleGraceTimeout (s.rtt.getD (Duration.fromSecs 1))
    match s.staleSince with
    | some staleSince =>
      if grace ≤ now - staleSince then
        let teardownData := (s.encrypt iv s.linkId.1).toOption.getD []
        (s.close .timeout, .sendTeardownAndClose teardownData)
      else (s, .none)
    | none => (s, .none)
  | .closed => (s, .none)

/-- `Link::record_inbound`. -/
def recordInbound (s : LinkSession F) (now : ℕ) : LinkSession F :=
  let s := { s with keepalive := s.keepalive.recordInbound now }
  if s.state = .stale then { s with state := .active, staleSince := none } else s

end Closing

/-! ### Messages of the peer -/

section Messages

variable [Binary64Bits F] [AesCbc] [Hmac]

/-- `Link::try_extend_establishment_timeout`. -/
def tryExtendEstablishmentTimeout (s : LinkSession F) (additionalSecs : F) :
    LinkSession F × Except TimeoutError Unit :=
  match Binary64Bits.tryFromSecs additionalSecs with
  | none => (s, .error .unrepresentable)
  | some additional =>
    match Duration.checkedAdd s.establishmentTimeout additional with
    | none => (s, .error .unrepresentable)
    | some timeout =>
      match Instant.checkedAdd s.requestTime timeout with
      | none => (s, .error .unrepresentable)
      | some _ => ({ s with establishmentTimeout := timeout }, .ok ())

/-- `peer_reported_rtt`. -/
def peerReportedRtt (secs : F) : Option ℕ :=
  if Binary64Bits.isNan secs || lt secs (ofRat 0) then none
  else Binary64Bits.tryFromSecs (min secs (KeepaliveState.staleTimeDefault F))

/-- The establishment rate, when the round trip took time. -/
def establishmentRateOf (cost rtt : ℕ) : Option F :=
  let rttSecs := Duration.asSecsF64 F rtt
  if lt (ofRat 0) rttSecs then
    some (div (ofRat cost) rttSecs)
  else none

variable [Ed25519] [X25519] [Hkdf]

/-- `Link::validate_proof`: all that can fail is done before the first field is written. -/
def validateProof (s : LinkSession F) (proofData : Bytes)
    (identityVerifyKey identityEd25519PubBytes : Octets 32) (now : ℕ) (jitter : F) (iv : Octets 16) :
    LinkSession F × Except HandshakeError Bytes :=
  let rtt := now - s.requestTime
  let rttBytes := writeValue (.f64 (Binary64Bits.toBits (Duration.asSecsF64 F rtt)))
  match s.toLink.validateProof proofData identityVerifyKey identityEd25519PubBytes rttBytes iv with
  | .error e => (s, .error e)
  | .ok (link, encryptedRtt) =>
    ({ s with
      toLink := link
      rtt := some rtt
      activatedAt := some now
      keepalive := (s.keepalive.markActivated now).updateFromRtt rtt jitter
      establishmentRate := (establishmentRateOf link.establishmentCost rtt).or s.establishmentRate },
      .ok encryptedRtt)

/-- `Link::receive_rtt_packet`. The cost grows before the packet is decrypted. -/
def receiveRttPacket (s : LinkSession F) (encryptedData : Bytes) (now : ℕ) (jitter : F) :
    LinkSession F × Except HandshakeError Unit :=
  if s.state ≠ .handshake then (s, .error .invalidSignature)
  else
    match LinkMtu.tryFromSignal (some s.mtu) >>= LinkMtu.checkedMdu with
    | .error e => (s, .error (.signalling e))
    | .ok mdu =>
      let s := { s with establishmentCost := s.establishmentCost + encryptedData.length }
      match s.decrypt encryptedData with
      | .error _ => (s, .error .invalidSignature)
      | .ok plaintext =>
        let s :=
          match (readValue maxDepth plaintext).bind fun (value, _) => value.asF64 (F := F) with
          | some peerRtt =>
            let localRtt := now - s.requestTime
            let rtt := ((peerReportedRtt peerRtt).map (max · localRtt)).getD localRtt
            { s with rtt := some rtt, keepalive := s.keepalive.updateFromRtt rtt jitter }
          | none => s
        let s := { s with
          state := .active
          activatedAt := some now
          keepalive := s.keepalive.markActivated now
          mdu }
        let rate := s.rtt.bind fun rtt =>
          if 0 < s.establishmentCost then establishmentRateOf s.establishmentCost rtt else none
        ({ s with establishmentRate := rate.or s.establishmentRate }, .ok ())

/-- `Link::handle_identification`. -/
def handleIdentification (s : LinkSession F) (encryptedData : Bytes) :
    LinkSession F × Except LinkCryptoError (Octets 64) :=
  if s.isInitiator ∨ (s.state ≠ .handshake ∧ s.state ≠ .active ∧ s.state ≠ .stale) then
    (s, .error .decryptionFailed)
  else
    match s.decrypt encryptedData with
    | .error e => (s, .error e)
    | .ok plaintext =>
      if plaintext.length ≠ 128 then (s, .error .decryptionFailed)
      else
        let publicKey := Octets.read 64 plaintext
        let signature := Octets.read 64 (plaintext.drop 64)
        let signedData := s.linkId.1 ++ publicKey.1
        let ed25519PubBytes := Octets.read 32 (publicKey.1.drop 32)
        if !Ed25519.validKey ed25519PubBytes then (s, .error .decryptionFailed)
        else if !Ed25519.verify ed25519PubBytes signedData signature then
          (s, .error .decryptionFailed)
        else
          match s.remoteIdentityPub with
          | some existing => (s, .ok existing)
          | none => ({ s with remoteIdentityPub := some publicKey, identified := true },
              .ok publicKey)

/-- `Link::update_rtt_from_packet`. -/
def updateRttFromPacket (s : LinkSession F) (encryptedData : Bytes) (jitter : F) :
    LinkSession F × Except LinkCryptoError ℕ :=
  match s.decrypt encryptedData with
  | .error e => (s, .error e)
  | .ok plaintext =>
    match (readValue maxDepth plaintext).bind fun (value, _) => value.asF64 (F := F) with
    | none => (s, .error .decryptionFailed)
    | some peerRtt =>
      let rtt :=
        match peerReportedRtt peerRtt, s.rtt with
        | some peer, some existing => some (max peer existing)
        | peer, existing => peer.or existing
      match rtt with
      | none => (s, .error .decryptionFailed)
      | some rtt =>
        ({ s with rtt := some rtt, keepalive := s.keepalive.updateFromRtt rtt jitter }, .ok rtt)

end Messages

/-! ### Requests and responses -/

section Requests

/-- The receipts with the first one of a request changed. -/
def modifyReceipt (s : LinkSession F) (requestId : Octets 16)
    (f : RequestReceipt → RequestReceipt) : LinkSession F × Bool :=
  ({ s with pendingRequests :=
      s.pendingRequests.modify (s.pendingRequests.findIdx (·.names requestId)) f },
    s.pendingRequests.any (·.names requestId))

/-- `Link::discard_pending_request`. -/
def discardPendingRequest (s : LinkSession F) (requestId : Octets 16) : LinkSession F :=
  { s with pendingRequests := s.pendingRequests.filter (!·.names requestId) }

/-- `Link::mark_request_resource_sending`. -/
def markRequestResourceSending (s : LinkSession F) (requestId : Octets 16) : LinkSession F × Bool :=
  s.modifyReceipt requestId (·.markResourceSending)

/-- `Link::mark_request_resource_sent`. -/
def markRequestResourceSent (s : LinkSession F) (requestId : Octets 16) (now : ℕ) :
    LinkSession F × Bool :=
  s.modifyReceipt requestId (·.markResourceSent now)

/-- `Link::update_pending_request_id`. -/
def updatePendingRequestId (s : LinkSession F) (oldRequestId newRequestId : Octets 16) :
    LinkSession F × Bool :=
  s.modifyReceipt oldRequestId fun r => { r with requestId := receiptId newRequestId }

/-- `Link::fail_pending_request`. -/
def failPendingRequest (s : LinkSession F) (requestId : Octets 16) : LinkSession F × Bool :=
  let (s, found) := s.modifyReceipt requestId (·.fail)
  if found then (s.discardPendingRequest requestId, true) else (s, false)

/-- `Link::deliver_response_data`. -/
def deliverResponseData (s : LinkSession F) (requestId : Octets 16) (responseData : Bytes)
    (now : ℕ) : LinkSession F × Bool :=
  let (s, found) := s.modifyReceipt requestId (·.receiveResponse responseData now)
  if found then (s.discardPendingRequest requestId, true) else (s, false)

/-- `Link::handle_response_plaintext`. -/
def handleResponsePlaintext (s : LinkSession F) (plaintext : Bytes) (now : ℕ) :
    LinkSession F × Except LinkCryptoError (Octets 16 × Bytes) :=
  match parseResponsePlaintext plaintext with
  | .error e => (s, .error e)
  | .ok (requestId, responseData) =>
    ((s.deliverResponseData requestId responseData now).1, .ok (requestId, responseData))

/-- `Link::handle_response`. -/
def handleResponse [AesCbc] [Hmac] (s : LinkSession F) (encryptedData : Bytes) (now : ℕ) :
    LinkSession F × Except LinkCryptoError (Octets 16 × Bytes) :=
  match s.decrypt encryptedData with
  | .error e => (s, .error e)
  | .ok plaintext => s.handleResponsePlaintext plaintext now

variable [Binary64Bits F] [Sha256]

/-- `Link::prepare_request_value`; `timestamp` is the wall clock in seconds. -/
def prepareRequestValue (s : LinkSession F) (path : Bytes) (dataValue : Value) (timeout : ℕ)
    (timestamp : F) (now : ℕ) : LinkSession F × Except LinkCryptoError (Bytes × Octets 16) :=
  if s.state ≠ .active then (s, .error .encryptionFailed)
  else
    let pathHash := truncatedHash path
    let packed := writeValue (.array [.f64 (Binary64Bits.toBits timestamp), .binary pathHash.1,
      dataValue])
    let requestId := truncatedHash packed
    let receipt := RequestReceipt.new (receiptId requestId) s.linkId timeout now
    ({ s with pendingRequests := s.pendingRequests ++ [receipt] }, .ok (packed, requestId))

/-- `Link::prepare_request`. -/
def prepareRequest (s : LinkSession F) (path : Bytes) (data : Option Bytes) (timeout : ℕ)
    (timestamp : F) (now : ℕ) : LinkSession F × Except LinkCryptoError (Bytes × Octets 16) :=
  s.prepareRequestValue path ((data.map msgpackValueFromBytesOrBinary).getD .nil) timeout timestamp
    now

variable [AesCbc] [Hmac]

/-- The encryption of a prepared request, whose receipt is dropped when that fails. -/
def encryptRequest (s : LinkSession F) (prepared : Except LinkCryptoError (Bytes × Octets 16))
    (iv : Octets 16) : LinkSession F × Except LinkCryptoError (Bytes × Octets 16) :=
  match prepared with
  | .error e => (s, .error e)
  | .ok (packed, requestId) =>
    match s.encrypt iv packed with
    | .ok encrypted => (s, .ok (encrypted, requestId))
    | .error e => (s.discardPendingRequest requestId, .error e)

/-- `Link::request`. -/
def request (s : LinkSession F) (path : Bytes) (data : Option Bytes) (timeout : ℕ) (timestamp : F)
    (now : ℕ) (iv : Octets 16) : LinkSession F × Except LinkCryptoError (Bytes × Octets 16) :=
  let (s, prepared) := s.prepareRequest path data timeout timestamp now
  s.encryptRequest prepared iv

/-- `Link::request_str`. -/
def requestStr (s : LinkSession F) (path data : Bytes) (timeout : ℕ) (timestamp : F) (now : ℕ)
    (iv : Octets 16) : LinkSession F × Except LinkCryptoError (Bytes × Octets 16) :=
  let (s, prepared) := s.prepareRequestValue path (.string data) timeout timestamp now
  s.encryptRequest prepared iv

end Requests

/-! ### Accounting -/

section Accounting

/-- `Link::mark_channel_created`. -/
def markChannelCreated (s : LinkSession F) : LinkSession F := { s with hasChannel := true }

/-- `Link::set_resource_strategy`. -/
def setResourceStrategy (s : LinkSession F) (strategy : ResourceStrategy) : LinkSession F :=
  { s with resourceStrategy := strategy }

/-- `Link::track_incoming_resource`. -/
def trackIncomingResource (s : LinkSession F) (resourceHash : Octets 32) : LinkSession F :=
  { s with incomingResources := s.incomingResources ++ [resourceHash] }

/-- `Link::track_outgoing_resource`. -/
def trackOutgoingResource (s : LinkSession F) (resourceHash : Octets 32) : LinkSession F :=
  { s with outgoingResources := s.outgoingResources ++ [resourceHash] }

/-- `Link::untrack_resource`. -/
def untrackResource (s : LinkSession F) (resourceHash : Octets 32) : LinkSession F :=
  { s with
    incomingResources := s.incomingResources.filter (· ≠ resourceHash)
    outgoingResources := s.outgoingResources.filter (· ≠ resourceHash) }

/-- `Link::record_tx`. -/
def recordTx (s : LinkSession F) (bytes now : ℕ) : LinkSession F :=
  { s with
    txBytes := s.txBytes + bytes
    txCount := s.txCount + 1
    keepalive := s.keepalive.recordOutbound now }

/-- `Link::record_tx_keepalive`. -/
def recordTxKeepalive (s : LinkSession F) (bytes now : ℕ) : LinkSession F :=
  { s with
    txBytes := s.txBytes + bytes
    txCount := s.txCount + 1
    keepalive := s.keepalive.recordKeepaliveOutbound now }

/-- `Link::record_rx`. -/
def recordRx (s : LinkSession F) (bytes : ℕ) : LinkSession F :=
  { s with rxBytes := s.rxBytes + bytes, rxCount := s.rxCount + 1 }

/-- `Link::track_phy_stats`. -/
def setTrackPhyStats (s : LinkSession F) (track : Bool) : LinkSession F :=
  { s with trackPhyStats := track }

/-- `Link::update_phy_stats_force`. -/
def updatePhyStatsForce (s : LinkSession F) (rssi snr q : Option F) : LinkSession F :=
  { s with rssi := rssi.or s.rssi, snr := snr.or s.snr, q := q.or s.q }

/-- `Link::update_phy_stats`. -/
def updatePhyStats (s : LinkSession F) (rssi snr q : Option F) : LinkSession F :=
  if !s.trackPhyStats then s else s.updatePhyStatsForce rssi snr q

/-- `Link::add_establishment_cost`. -/
def addEstablishmentCost (s : LinkSession F) (bytes : ℕ) : LinkSession F :=
  { s with establishmentCost := s.establishmentCost + bytes }

/-- `Link::resource_concluded`. -/
def resourceConcluded [Binary64 F] (s : LinkSession F) (resourceSize : ℕ) (transferDurationSecs : F)
    (isIncoming : Bool) : LinkSession F :=
  let duration := max transferDurationSecs (ofRat (1 / 10000))
  let s := { s with expectedRate := some (div (mul (ofRat resourceSize) (ofRat 8)) duration) }
  if isIncoming then { s with incomingResourceCount := s.incomingResourceCount - 1 }
  else { s with outgoingResourceStates := s.outgoingResourceStates.eraseP (· ≠ .transferring) }

/-- `Link::register_outgoing_resource`. -/
def registerOutgoingResource (s : LinkSession F) : LinkSession F :=
  { s with outgoingResourceStates := s.outgoingResourceStates ++ [.transferring] }

/-- `Link::register_incoming_resource`. -/
def registerIncomingResource (s : LinkSession F) : LinkSession F :=
  { s with incomingResourceCount := s.incomingResourceCount + 1 }

/-- `Link::update_outgoing_resource_state`. -/
def updateOutgoingResourceState (s : LinkSession F) (index : ℕ) (state : OutboundResourceState) :
    LinkSession F :=
  { s with outgoingResourceStates := s.outgoingResourceStates.set index state }

end Accounting

end LinkSession

end Reticulum
