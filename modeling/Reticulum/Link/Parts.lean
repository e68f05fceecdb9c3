import Reticulum.Crypto.Token
import Reticulum.Foundation.Seconds
import Reticulum.Link.Basic

/-!
# The parts of a link session

What a link holds besides the state of its handshake: the encryption under its session keys
(`encryption.rs` of the `rns-link` crate), the timing of keepalives (`keepalive.rs`) and the receipts
of requests (`request.rs`). Clock readings are arguments, in nanoseconds, and so is every random
number. Callbacks and the progress of a receipt are left out.
-/

namespace Reticulum

open Binary64 Duration

/-! ### Encryption -/

/-- `LinkCryptoError`. -/
inductive LinkCryptoError
  | encryptionFailed
  | decryptionFailed
  deriving DecidableEq, Repr

section Encryption

variable [AesCbc] [Hmac]

/-- `link_encrypt` under an initialisation vector. -/
def linkEncrypt (iv : Octets 16) (keys : LinkKeys) (plaintext : Bytes) :
    Except LinkCryptoError Bytes :=
  (tokenEncrypt iv plaintext (keys.signingKey ++ keys.encryptionKey)).mapError
    fun _ => .encryptionFailed

/-- `link_decrypt`. -/
def linkDecrypt (keys : LinkKeys) (ciphertext : Bytes) : Except LinkCryptoError Bytes :=
  (tokenDecrypt ciphertext (keys.signingKey ++ keys.encryptionKey)).mapError
    fun _ => .decryptionFailed

/-- The tokens of the handshake are those of the session. -/
instance : LinkToken where
  encrypt iv keys plaintext := (linkEncrypt iv keys plaintext).toOption

end Encryption

/-! ### Keepalives -/

/-- `KeepaliveState`. -/
structure KeepaliveState where
  keepaliveInterval : ℕ
  staleTime : ℕ
  isInitiator : Bool
  lastInbound : ℕ
  lastKeepaliveSent : Option ℕ
  lastData : ℕ
  lastOutbound : Option ℕ
  lastProof : Option ℕ
  activatedAt : Option ℕ
  jitterOffset : ℕ
  jitterNegative : Bool
  deriving DecidableEq, Repr

namespace KeepaliveState

section Float

variable {F : Type} [Binary64Bits F]

/-- `KEEPALIVE_MAX`, which is `KEEPALIVE_DEFAULT` too. -/
def keepaliveMax (F : Type) [Binary64 F] : F := ofRat 360

/-- `KEEPALIVE_MIN`. -/
def keepaliveMin (F : Type) [Binary64 F] : F := ofRat 5

/-- `KEEPALIVE_MAX_RTT`. -/
def keepaliveMaxRtt (F : Type) [Binary64 F] : F := ofRat (7 / 4)

/-- `STALE_TIME_DEFAULT`. -/
def staleTimeDefault (F : Type) [Binary64 F] : F := ofRat 720

/-- `STALE_FACTOR`. -/
def staleFactor (F : Type) [Binary64 F] : F := ofRat 2

/-- `KeepaliveState::new`; `jitterFrac` is random. -/
def new (isInitiator : Bool) (now : ℕ) (jitterFrac : F) : KeepaliveState where
  keepaliveInterval := fromSecsF64 (keepaliveMax F)
  staleTime := fromSecsF64 (staleTimeDefault F)
  isInitiator := isInitiator
  lastInbound := now
  lastKeepaliveSent := none
  lastData := now
  lastOutbound := none
  lastProof := none
  activatedAt := none
  jitterOffset := fromSecsF64 (mul (abs jitterFrac) (keepaliveMax F))
  jitterNegative := lt jitterFrac (ofRat 0)

/-- `KeepaliveState::update_from_rtt`; `jitterFrac` is random. -/
def updateFromRtt (k : KeepaliveState) (rtt : ℕ) (jitterFrac : F) : KeepaliveState :=
  let rttSecs : F := asSecsF64 F rtt
  let scaleFactor := div (keepaliveMax F) (keepaliveMaxRtt F)
  let interval := clamp (mul rttSecs scaleFactor) (keepaliveMin F) (keepaliveMax F)
  { k with
    keepaliveInterval := fromSecsF64 interval
    staleTime := fromSecsF64 (mul interval (staleFactor F))
    jitterOffset := fromSecsF64 (mul (abs jitterFrac) interval)
    jitterNegative := lt jitterFrac (ofRat 0) }

end Float

/-- `KeepaliveState::record_inbound`. -/
def recordInbound (k : KeepaliveState) (now : ℕ) : KeepaliveState := { k with lastInbound := now }

/-- `KeepaliveState::record_outbound`. -/
def recordOutbound (k : KeepaliveState) (now : ℕ) : KeepaliveState :=
  { k with lastOutbound := some now }

/-- `KeepaliveState::mark_activated`. -/
def markActivated (k : KeepaliveState) (now : ℕ) : KeepaliveState :=
  { k with activatedAt := some now }

/-- `KeepaliveState::mark_keepalive_sent_at`. -/
def markKeepaliveSentAt (k : KeepaliveState) (now : ℕ) : KeepaliveState :=
  { k with lastKeepaliveSent := some now }

/-- `KeepaliveState::record_keepalive_outbound`. -/
def recordKeepaliveOutbound (k : KeepaliveState) (now : ℕ) : KeepaliveState :=
  { k with lastOutbound := some now, lastKeepaliveSent := some now }

/-- `KeepaliveState::should_send_keepalive_at`. -/
def shouldSendKeepaliveAt (k : KeepaliveState) (now : ℕ) : Bool :=
  let jittered :=
    if k.jitterNegative then max (k.keepaliveInterval - k.jitterOffset) (fromSecs 5)
    else k.keepaliveInterval + k.jitterOffset
  let inboundElapsed := now - k.lastInbound
  let outboundElapsed := ((k.lastOutbound.or k.activatedAt).map (now - ·)).getD inboundElapsed
  let keepaliveElapsed := (k.lastKeepaliveSent.map (now - ·)).getD max
  k.isInitiator && (decide (jittered ≤ inboundElapsed) || decide (jittered ≤ outboundElapsed)) &&
    decide (jittered ≤ keepaliveElapsed)

/-- `KeepaliveState::is_stale_at`. -/
def isStaleAt (k : KeepaliveState) (now : ℕ) : Bool :=
  let latest := k.lastInbound
  let latest := max latest (k.lastProof.getD latest)
  let latest := max latest (k.activatedAt.getD latest)
  decide (k.staleTime ≤ now - latest)

/-- `KeepaliveState::stale_grace_timeout`: four round trips and `STALE_GRACE`. -/
def staleGraceTimeout (rtt : ℕ) : ℕ :=
  saturatingAdd (saturatingMul rtt 4) (fromSecs 5)

end KeepaliveState

/-! ### Request receipts -/

/-- `RequestState`. -/
inductive RequestState
  | sent
  | sendingResource
  | receiving
  | delivered
  | failed
  | responseReceived
  deriving DecidableEq, Repr

/-- `RequestReceipt`. -/
structure RequestReceipt where
  requestId : Octets 32
  linkId : Octets 16
  state : RequestState
  sentAt : ℕ
  timeout : ℕ
  response : Option Bytes
  rtt : Option ℕ
  deriving DecidableEq, Repr

namespace RequestReceipt

/-- `RequestReceipt::new`. -/
def new (requestId : Octets 32) (linkId : Octets 16) (timeout now : ℕ) : RequestReceipt where
  requestId := requestId
  linkId := linkId
  state := .sent
  sentAt := now
  timeout := timeout
  response := none
  rtt := none

/-- `RequestReceipt::is_pending`. -/
def isPending (r : RequestReceipt) : Bool :=
  r.state = .sent ∨ r.state = .sendingResource ∨ r.state = .receiving

/-- `RequestReceipt::fail`. -/
def fail (r : RequestReceipt) : RequestReceipt :=
  if r.isPending then { r with state := .failed } else r

/-- `RequestReceipt::is_timed_out`. -/
def isTimedOut (r : RequestReceipt) (now : ℕ) : Bool :=
  (r.state = .sent ∨ r.state = .receiving) ∧ r.timeout ≤ now - r.sentAt

/-- `RequestReceipt::receive_response`. -/
def receiveResponse (r : RequestReceipt) (data : Bytes) (now : ℕ) : RequestReceipt :=
  if r.isPending ∨ r.state = .delivered then
    { r with rtt := some (now - r.sentAt), response := some data, state := .responseReceived }
  else r

/-- `RequestReceipt::mark_resource_sending`. -/
def markResourceSending (r : RequestReceipt) : RequestReceipt :=
  if r.state = .sent then { r with state := .sendingResource } else r

/-- `RequestReceipt::mark_resource_sent`. -/
def markResourceSent (r : RequestReceipt) (now : ℕ) : RequestReceipt :=
  if r.state = .sendingResource then { r with state := .sent, sentAt := now } else r

/-- `RequestReceipt::concluded`. -/
def concluded (r : RequestReceipt) : Bool :=
  r.state = .delivered ∨ r.state = .failed ∨ r.state = .responseReceived

/-- `RequestReceipt::check_timeout`. -/
def checkTimeout (r : RequestReceipt) (now : ℕ) : RequestReceipt :=
  if r.isTimedOut now then r.fail else r

end RequestReceipt

end Reticulum
