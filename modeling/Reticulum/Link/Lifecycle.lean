import Reticulum.Link.Rejections

/-!
# The life of a link

A session lives through calls of its public operations, in any order and with any arguments. What a
call can do to the state, the keys, the pending requests and the remote identity is said once, by a
transition for each kind of change; everything about whole lives is read off the transitions.

## Main definitions

* `LinkCall`, `LinkSession.call`, `LinkSession.after` — the operations, and sequences of them.
* `LinkCore`, `LinkSession.Transition` — what the life of a link is about, and its changes.
* `LinkSession.Lifecycle` — the invariant.

## Main results

* `LinkSession.transition_call` — a call makes one of the transitions.
* `LinkSession.lifecycle_iff` — which lives keep the invariant.
* `LinkSession.session_keys_kept` — no keys are replaced.
* `LinkSession.remote_identity_once` — the remote identity is set once, by its owner.
-/

namespace Reticulum

open Wire MessagePack Octets

/-- The operations of a link that change it, with the clock readings and random numbers they use. -/
inductive LinkCall (F : Type)
  | tryExtendEstablishmentTimeout (additionalSecs : F)
  | validateProof (proofData : Bytes) (identityVerifyKey identityEd25519PubBytes : Octets 32)
      (now : ℕ) (jitter : F) (iv : Octets 16)
  | receiveRttPacket (encryptedData : Bytes) (now : ℕ) (jitter : F)
  | handleIdentification (encryptedData : Bytes)
  | request (path : Bytes) (data : Option Bytes) (timeout : ℕ) (timestamp : F) (now : ℕ)
      (iv : Octets 16)
  | prepareRequest (path : Bytes) (data : Option Bytes) (timeout : ℕ) (timestamp : F) (now : ℕ)
  | requestStr (path data : Bytes) (timeout : ℕ) (timestamp : F) (now : ℕ) (iv : Octets 16)
  | markRequestResourceSending (requestId : Octets 16)
  | markRequestResourceSent (requestId : Octets 16) (now : ℕ)
  | failPendingRequest (requestId : Octets 16)
  | updatePendingRequestId (oldRequestId newRequestId : Octets 16)
  | handleResponse (encryptedData : Bytes) (now : ℕ)
  | handleResponsePlaintext (plaintext : Bytes) (now : ℕ)
  | deliverResponseData (requestId : Octets 16) (responseData : Bytes) (now : ℕ)
  | updateRttFromPacket (encryptedData : Bytes) (jitter : F)
  | markChannelCreated
  | setResourceStrategy (strategy : ResourceStrategy)
  | trackIncomingResource (resourceHash : Octets 32)
  | trackOutgoingResource (resourceHash : Octets 32)
  | untrackResource (resourceHash : Octets 32)
  | recordTx (bytes now : ℕ)
  | recordTxKeepalive (bytes now : ℕ)
  | recordRx (bytes : ℕ)
  | trackPhyStats (track : Bool)
  | updatePhyStats (rssi snr q : Option F)
  | updatePhyStatsForce (rssi snr q : Option F)
  | tick (now : ℕ) (iv : Octets 16)
  | recordInbound (now : ℕ)
  | teardown (reason : CloseReason) (iv : Octets 16)
  | receiveTeardown (encryptedData : Bytes)
  | markClosed (reason : CloseReason)
  | setSigningKey (key : Octets 32)
  | addEstablishmentCost (bytes : ℕ)
  | resourceConcluded (resourceSize : ℕ) (transferDurationSecs : F) (isIncoming : Bool)
  | registerOutgoingResource
  | registerIncomingResource
  | updateOutgoingResourceState (index : ℕ) (state : OutboundResourceState)

/-- What the life of a link is about. -/
structure LinkCore where
  linkId : Octets 16
  isInitiator : Bool
  state : LinkState
  sessionKeys : Option LinkKeys
  ephemeralKeys : Option EphemeralKeys
  signingKey : Option (Octets 32)
  teardownReason : Option CloseReason
  pendingRequests : List RequestReceipt
  remoteIdentity : Option (Octets 64)

/-- What is left of a closed link. -/
def LinkCore.closed (k : LinkCore) (reason : CloseReason) : LinkCore where
  linkId := k.linkId
  isInitiator := k.isInitiator
  state := .closed
  sessionKeys := none
  ephemeralKeys := none
  signingKey := none
  teardownReason := some reason
  pendingRequests := []
  remoteIdentity := k.remoteIdentity

/-- The invariant: session keys while data flows, each side in its own state of the handshake, and
nothing but a reason left when closed. -/
structure LinkCore.Lifecycle (k : LinkCore) : Prop where
  keys : k.state = .active ∨ k.state = .stale → k.sessionKeys ≠ none
  pending : k.state = .pending → k.isInitiator = true
  handshake : k.state = .handshake → k.isInitiator = false
  closed : k.state = .closed → k.sessionKeys = none ∧ k.ephemeralKeys = none ∧
    k.signingKey = none ∧ k.pendingRequests = [] ∧ k.teardownReason ≠ none

namespace LinkSession

variable {F : Type}

/-- The core of a session. -/
def core (s : LinkSession F) : LinkCore where
  linkId := s.linkId
  isInitiator := s.isInitiator
  state := s.state
  sessionKeys := s.sessionKeys
  ephemeralKeys := s.ephemeralKeys
  signingKey := s.responderIdentitySigningKey
  teardownReason := s.teardownReason
  pendingRequests := s.pendingRequests
  remoteIdentity := s.remoteIdentityPub

section Calls

variable [Binary64Bits F] [Sha256] [Ed25519] [X25519] [Hkdf] [AesCbc] [Hmac]

/-- The session after a call. -/
def call (s : LinkSession F) : LinkCall F → LinkSession F
  | .tryExtendEstablishmentTimeout additionalSecs => (s.tryExtendEstablishmentTimeout additionalSecs).1
  | .validateProof proofData key keyBytes now jitter iv =>
    (s.validateProof proofData key keyBytes now jitter iv).1
  | .receiveRttPacket encryptedData now jitter => (s.receiveRttPacket encryptedData now jitter).1
  | .handleIdentification encryptedData => (s.handleIdentification encryptedData).1
  | .request path data timeout timestamp now iv =>
    (s.request path data timeout timestamp now iv).1
  | .prepareRequest path data timeout timestamp now =>
    (s.prepareRequest path data timeout timestamp now).1
  | .requestStr path data timeout timestamp now iv =>
    (s.requestStr path data timeout timestamp now iv).1
  | .markRequestResourceSending requestId => (s.markRequestResourceSending requestId).1
  | .markRequestResourceSent requestId now => (s.markRequestResourceSent requestId now).1
  | .failPendingRequest requestId => (s.failPendingRequest requestId).1
  | .updatePendingRequestId oldRequestId newRequestId =>
    (s.updatePendingRequestId oldRequestId newRequestId).1
  | .handleResponse encryptedData now => (s.handleResponse encryptedData now).1
  | .handleResponsePlaintext plaintext now => (s.handleResponsePlaintext plaintext now).1
  | .deliverResponseData requestId responseData now =>
    (s.deliverResponseData requestId responseData now).1
  | .updateRttFromPacket encryptedData jitter => (s.updateRttFromPacket encryptedData jitter).1
  | .markChannelCreated => s.markChannelCreated
  | .setResourceStrategy strategy => s.setResourceStrategy strategy
  | .trackIncomingResource resourceHash => s.trackIncomingResource resourceHash
  | .trackOutgoingResource resourceHash => s.trackOutgoingResource resourceHash
  | .untrackResource resourceHash => s.untrackResource resourceHash
  | .recordTx bytes now => s.recordTx bytes now
  | .recordTxKeepalive bytes now => s.recordTxKeepalive bytes now
  | .recordRx bytes => s.recordRx bytes
  | .trackPhyStats track => s.setTrackPhyStats track
  | .updatePhyStats rssi snr q => s.updatePhyStats rssi snr q
  | .updatePhyStatsForce rssi snr q => s.updatePhyStatsForce rssi snr q
  | .tick now iv => (s.tick now iv).1
  | .recordInbound now => s.recordInbound now
  | .teardown reason iv => (s.teardown reason iv).1
  | .receiveTeardown encryptedData => (s.receiveTeardown encryptedData).1
  | .markClosed reason => s.markClosed reason
  | .setSigningKey key => s.setSigningKey key
  | .addEstablishmentCost bytes => s.addEstablishmentCost bytes
  | .resourceConcluded size duration isIncoming => s.resourceConcluded size duration isIncoming
  | .registerOutgoingResource => s.registerOutgoingResource
  | .registerIncomingResource => s.registerIncomingResource
  | .updateOutgoingResourceState index state => s.updateOutgoingResourceState index state

/-- The session after a sequence of calls. -/
def after (s : LinkSession F) (calls : List (LinkCall F)) : LinkSession F := calls.foldl call s

end Calls

/-! ### Transitions -/

section Transitions

variable {s s' s'' : LinkSession F} {c : LinkCall F} {k : LinkCore}

/-- The two sessions differ in nothing but their receipts, of which none is new. -/
def Prunes (s s' : LinkSession F) : Prop :=
  ∃ requests, s'.core = { s.core with pendingRequests := requests } ∧
    (s.pendingRequests = [] → requests = [])

theorem Prunes.of_core_eq (h : s'.core = s.core) : Prunes s s' :=
  ⟨s.pendingRequests, h, id⟩

theorem Prunes.trans (h : Prunes s s') (h' : Prunes s' s'') : Prunes s s'' := by
  obtain ⟨requests, hcore, hempty⟩ := h
  obtain ⟨requests', hcore', hempty'⟩ := h'
  have hpending : s'.pendingRequests = requests := congrArg LinkCore.pendingRequests hcore
  rw [hpending] at hempty'
  exact ⟨requests', hcore'.trans (by rw [hcore]), fun h => hempty' (hempty h)⟩

variable (s) (requestId : Octets 16)

theorem prunes_modifyReceipt
    (f : RequestReceipt → RequestReceipt) : Prunes s (s.modifyReceipt requestId f).1 :=
  ⟨_, rfl, fun h => by simp [modifyReceipt, h]⟩

theorem prunes_discardPendingRequest : Prunes s (s.discardPendingRequest requestId) :=
  ⟨_, rfl, fun h => by simp [discardPendingRequest, h]⟩

theorem prunes_failPendingRequest : Prunes s (s.failPendingRequest requestId).1 := by
  have hmodify := s.prunes_modifyReceipt requestId (·.fail)
  unfold failPendingRequest
  dsimp only
  split_ifs
  · exact hmodify.trans (prunes_discardPendingRequest _ requestId)
  · exact hmodify

theorem prunes_deliverResponseData (responseData : Bytes) (now : ℕ) :
    Prunes s (s.deliverResponseData requestId responseData now).1 := by
  have hmodify := s.prunes_modifyReceipt requestId (·.receiveResponse responseData now)
  unfold deliverResponseData
  dsimp only
  split_ifs
  · exact hmodify.trans (prunes_discardPendingRequest _ requestId)
  · exact hmodify

theorem prunes_handleResponsePlaintext (plaintext : Bytes) (now : ℕ) :
    Prunes s (s.handleResponsePlaintext plaintext now).1 := by
  unfold handleResponsePlaintext
  split
  · exact .of_core_eq rfl
  · exact s.prunes_deliverResponseData _ _ now

variable [AesCbc] [Hmac]

theorem prunes_handleResponse (encryptedData : Bytes) (now : ℕ) :
    Prunes s (s.handleResponse encryptedData now).1 := by
  unfold handleResponse
  split
  · exact .of_core_eq rfl
  · exact s.prunes_handleResponsePlaintext _ now

variable {s}

theorem exists_sessionKeys_of_decrypt {ciphertext plaintext : Bytes}
    (h : s.decrypt ciphertext = .ok plaintext) : ∃ keys, s.sessionKeys = some keys := by
  unfold decrypt at h
  split at h
  · cases h
  · rename_i keys hkeys
    exact ⟨keys, hkeys⟩

variable [Ed25519]

/-- The identification packet that names `publicKey`, with a signature by its owner over the link. -/
def Identifies (s : LinkSession F) (encryptedData : Bytes) (publicKey : Octets 64) : Prop :=
  ∃ signature : Octets 64, s.decrypt encryptedData = .ok (publicKey.1 ++ signature.1) ∧
    Ed25519.verify (read 32 (publicKey.1.drop 32)) (s.linkId.1 ++ publicKey.1) signature =
      true

/-- What a call can do to a session. Only identification packets touch the remote identity, and only
`set_signing_key` sets a signing key. -/
inductive Transition (s : LinkSession F) : LinkCall F → LinkCore → Prop
  | stay (c : LinkCall F) (requests : List RequestReceipt)
      (h : s.pendingRequests = [] → s.state ≠ .active → requests = []) :
      Transition s c { s.core with pendingRequests := requests }
  | close (c : LinkCall F) (reason : CloseReason) : Transition s c (s.core.closed reason)
  | activate (c : LinkCall F) (keys : LinkKeys) (h : s.state = .pending ∨ s.state = .handshake) :
      Transition s c { s.core with state := .active, sessionKeys := some keys }
  | goStale (c : LinkCall F) (requests : List RequestReceipt) (h : s.state = .active) :
      Transition s c { s.core with state := .stale, pendingRequests := requests }
  | recover (c : LinkCall F) (h : s.state = .stale) :
      Transition s c { s.core with state := .active }
  | setSigningKey (key : Octets 32) (h : s.isInitiator = false) :
      Transition s (.setSigningKey key) { s.core with signingKey := some key }
  | identify (encryptedData : Bytes) (publicKey : Octets 64) (hrole : s.isInitiator = false)
      (hfirst : s.remoteIdentityPub = none) (h : s.Identifies encryptedData publicKey) :
      Transition s (.handleIdentification encryptedData)
        { s.core with remoteIdentity := some publicKey }

theorem Prunes.transition (c : LinkCall F) (h : Prunes s s') : Transition s c s'.core := by
  obtain ⟨requests, hcore, hempty⟩ := h
  rw [hcore]
  exact .stay c requests fun h _ => hempty h

theorem transition_of_core_eq (c : LinkCall F) (h : s'.core = s.core) : Transition s c s'.core :=
  (Prunes.of_core_eq h).transition c

/-! #### Requests -/

section Preparing

variable [Binary64Bits F] [Sha256] (s)

/-- A prepared request, encrypted or not, changes the receipts of an active link only. -/
theorem transition_prepareRequestValue (c : LinkCall F) (path : Bytes) (dataValue : Value)
    (timeout : ℕ) (timestamp : F) (now : ℕ) :
    Transition s c (s.prepareRequestValue path dataValue timeout timestamp now).1.core := by
  unfold prepareRequestValue
  split_ifs with hstate
  · exact transition_of_core_eq c rfl
  · exact .stay c _ fun _ h => absurd h hstate

theorem transition_encryptRequest (c : LinkCall F) (path : Bytes) (dataValue : Value)
    (timeout : ℕ) (timestamp : F) (now : ℕ) (iv : Octets 16) :
    Transition s c ((s.prepareRequestValue path dataValue timeout timestamp now).1.encryptRequest
      (s.prepareRequestValue path dataValue timeout timestamp now).2 iv).1.core := by
  unfold prepareRequestValue
  split_ifs with hstate
  · exact transition_of_core_eq c rfl
  · dsimp only [encryptRequest]
    split
    · exact .stay c _ fun _ h => absurd h hstate
    · exact .stay c _ fun _ h => absurd h hstate

end Preparing

/-! #### Closing -/

variable (s) (c) (reason : CloseReason)

theorem transition_markClosed : Transition s c (s.markClosed reason).core := by
  unfold markClosed
  split_ifs
  · exact .close c reason
  · exact transition_of_core_eq c rfl

theorem transition_teardown (iv : Octets 16) : Transition s c (s.teardown reason iv).1.core := by
  unfold teardown
  split_ifs
  · exact transition_of_core_eq c rfl
  · exact .close c reason

theorem transition_receiveTeardown (encryptedData : Bytes) :
    Transition s c (s.receiveTeardown encryptedData).1.core := by
  unfold receiveTeardown
  split
  · split_ifs
    · exact .close c .destinationClosed
    · exact transition_of_core_eq c rfl
  · exact transition_of_core_eq c rfl

theorem transition_recordInbound (now : ℕ) : Transition s c (s.recordInbound now).core := by
  unfold recordInbound
  dsimp only
  split_ifs with hstate
  · exact .recover c hstate
  · exact transition_of_core_eq c rfl

theorem transition_tick (now : ℕ) (iv : Octets 16) : Transition s c (s.tick now iv).1.core := by
  -- Before anything else the tick drops receipts.
  have hstay (requests : List RequestReceipt) (h : s.pendingRequests = [] → requests = []) :
      Transition s c { s.core with pendingRequests := requests } :=
    .stay c requests fun hempty _ => h hempty
  have hfilter : s.pendingRequests = [] →
      (s.pendingRequests.map (RequestReceipt.checkTimeout · now)).filter
        (!RequestReceipt.concluded ·) = [] := fun h => by rw [h]; rfl
  unfold tick
  dsimp only
  split
  · split_ifs
    · exact .close c .timeout
    · exact hstay _ hfilter
  · split_ifs
    · exact .close c .timeout
    · exact hstay _ hfilter
  · rename_i hactive
    split_ifs
    · exact hstay _ hfilter
    · exact .goStale c _ hactive
    · exact hstay _ hfilter
  · split
    · split_ifs
      · exact .close c .timeout
      · exact hstay _ hfilter
    · exact hstay _ hfilter
  · exact hstay _ hfilter

/-! #### Messages of the peer -/

section Messages

variable [Binary64Bits F]

theorem transition_tryExtendEstablishmentTimeout (s : LinkSession F) (c : LinkCall F)
    (additionalSecs : F) :
    Transition s c (s.tryExtendEstablishmentTimeout additionalSecs).1.core := by
  apply transition_of_core_eq
  unfold tryExtendEstablishmentTimeout
  split
  · rfl
  · split
    · rfl
    · split <;> rfl

theorem transition_validateProof [X25519] [Hkdf] (s : LinkSession F) (c : LinkCall F)
    (proofData : Bytes) (key keyBytes : Octets 32) (now : ℕ) (jitter : F) (iv : Octets 16) :
    Transition s c (s.validateProof proofData key keyBytes now jitter iv).1.core := by
  unfold validateProof
  dsimp only
  split
  · exact transition_of_core_eq c rfl
  · rename_i link encryptedRtt hproof
    obtain ⟨_, _, keys, _, hstate, -, -, -, -, -, rfl⟩ := Link.validateProof_eq_ok hproof
    exact .activate c keys (.inl hstate)

theorem transition_receiveRttPacket (s : LinkSession F) (c : LinkCall F) (encryptedData : Bytes)
    (now : ℕ) (jitter : F) :
    Transition s c (s.receiveRttPacket encryptedData now jitter).1.core := by
  unfold receiveRttPacket
  split_ifs with hstate
  · exact transition_of_core_eq c rfl
  · split
    · exact transition_of_core_eq c rfl
    · dsimp only
      split
      · exact transition_of_core_eq c rfl
      · rename_i plaintext hplaintext
        -- What decrypts was encrypted under session keys, which the packet leaves as they are.
        obtain ⟨keys, hkeys⟩ := exists_sessionKeys_of_decrypt hplaintext
        have hactivate := Transition.activate c keys (.inr (not_not.mp hstate))
        rw [← hkeys] at hactivate
        split
        · exact hactivate
        · exact hactivate

theorem transition_updateRttFromPacket (s : LinkSession F) (c : LinkCall F) (encryptedData : Bytes)
    (jitter : F) : Transition s c (s.updateRttFromPacket encryptedData jitter).1.core := by
  apply transition_of_core_eq
  unfold updateRttFromPacket
  split
  · rfl
  · split
    · rfl
    · dsimp only
      split <;> rfl

end Messages

theorem transition_handleIdentification (s : LinkSession F) (encryptedData : Bytes) :
    Transition s (.handleIdentification encryptedData)
      (s.handleIdentification encryptedData).1.core := by
  unfold handleIdentification
  split_ifs with hrole
  · exact transition_of_core_eq _ rfl
  · split
    · exact transition_of_core_eq _ rfl
    · rename_i plaintext hplaintext
      dsimp only
      split_ifs with hlen hvalid hverify
      · exact transition_of_core_eq _ rfl
      · exact transition_of_core_eq _ rfl
      · exact transition_of_core_eq _ rfl
      · split
        · exact transition_of_core_eq _ rfl
        · rename_i hfirst
          obtain ⟨publicKey, rest, rfl⟩ : ∃ (x : Octets 64) (rest : Bytes), plaintext = x.1 ++ rest :=
            exists_append (by omega)
          have hrest : rest.length = 64 := by
            rw [List.length_append, length_val] at hlen
            omega
          let signature : Octets 64 := ⟨rest, hrest⟩
          have hsignature : read 64 rest = signature := read_self signature
          rw [read_append, drop_append, hsignature, Bool.not_eq_true,
            Bool.not_eq_false'] at hverify
          rw [read_append]
          exact .identify encryptedData publicKey (by simpa using fun h => hrole (.inl h)) hfirst
            ⟨signature, hplaintext, hverify⟩

variable {s}

variable {c}

/-- No transition changes the name or the role of a link. -/
theorem Transition.name (h : Transition s c k) :
    k.linkId = s.linkId ∧ k.isInitiator = s.isInitiator := by
  cases h <;> exact ⟨rfl, rfl⟩

/-- The call sets a signing key on a responder that was closed. -/
def Rearms (s : LinkSession F) (c : LinkCall F) : Prop :=
  s.state = .closed ∧ s.isInitiator = false ∧ ∃ key, c = .setSigningKey key

/-- The transitions keep the invariant, but for a signing key on a closed link, and no transition
leaves the closed state. -/
theorem Transition.lifecycle (h : Transition s c k) (hs : s.core.Lifecycle) (hc : ¬ s.Rearms c) :
    k.Lifecycle ∧ (s.state = .closed → k.state = .closed) := by
  obtain ⟨hkeys, hpending, hhandshake, hclosed⟩ := hs
  cases h with
  | stay _ requests h =>
    refine ⟨⟨hkeys, hpending, hhandshake, fun hstate => ?_⟩, id⟩
    obtain ⟨hsession, hephemeral, hsigning, hrequests, hreason⟩ := hclosed hstate
    refine ⟨hsession, hephemeral, hsigning, h hrequests ?_, hreason⟩
    rintro hactive
    cases hstate.symm.trans hactive
  | close _ reason =>
    refine ⟨⟨?_, ?_, ?_, fun _ => ⟨rfl, rfl, rfl, rfl, Option.some_ne_none _⟩⟩, fun _ => rfl⟩
    · rintro (h | h) <;> cases h
    · rintro ⟨⟩
    · rintro ⟨⟩
  | activate _ keys h =>
    refine ⟨⟨fun _ => Option.some_ne_none _, ?_, ?_, ?_⟩, fun hstate => ?_⟩
    · rintro ⟨⟩
    · rintro ⟨⟩
    · rintro ⟨⟩
    · rcases h with h | h <;> cases hstate.symm.trans h
  | goStale _ requests h =>
    refine ⟨⟨fun _ => hkeys (.inl h), ?_, ?_, ?_⟩, fun hstate => ?_⟩
    · rintro ⟨⟩
    · rintro ⟨⟩
    · rintro ⟨⟩
    · cases hstate.symm.trans h
  | recover _ h =>
    refine ⟨⟨fun _ => hkeys (.inr h), ?_, ?_, ?_⟩, fun hstate => ?_⟩
    · rintro ⟨⟩
    · rintro ⟨⟩
    · rintro ⟨⟩
    · cases hstate.symm.trans h
  | setSigningKey key h =>
    exact ⟨⟨hkeys, hpending, hhandshake, fun hstate => absurd ⟨hstate, h, key, rfl⟩ hc⟩, id⟩
  | identify encryptedData publicKey hrole hfirst h =>
    exact ⟨⟨hkeys, hpending, hhandshake, hclosed⟩, id⟩

/-- Only the first identification by its owner changes the remote identity. -/
theorem Transition.remoteIdentity (h : Transition s c k) :
    k.remoteIdentity = s.remoteIdentityPub ∨
      s.isInitiator = false ∧ s.remoteIdentityPub = none ∧
        ∃ encryptedData publicKey, c = .handleIdentification encryptedData ∧
          s.Identifies encryptedData publicKey ∧ k.remoteIdentity = some publicKey := by
  cases h with
  | identify encryptedData publicKey hrole hfirst h =>
    exact .inr ⟨hrole, hfirst, encryptedData, publicKey, rfl, h, rfl⟩
  | _ => exact .inl rfl

variable [Binary64Bits F] [Sha256] [X25519] [Hkdf]

/-- A call makes one of the transitions. -/
theorem transition_call (s : LinkSession F) (c : LinkCall F) : Transition s c (s.call c).core := by
  cases c with
  | tryExtendEstablishmentTimeout secs => exact s.transition_tryExtendEstablishmentTimeout _ secs
  | validateProof proofData key keyBytes now jitter iv =>
    exact s.transition_validateProof _ proofData key keyBytes now jitter iv
  | receiveRttPacket encryptedData now jitter =>
    exact s.transition_receiveRttPacket _ encryptedData now jitter
  | handleIdentification encryptedData => exact s.transition_handleIdentification encryptedData
  | request path data timeout timestamp now iv =>
    exact s.transition_encryptRequest _ path _ timeout timestamp now iv
  | prepareRequest path data timeout timestamp now =>
    exact s.transition_prepareRequestValue _ path _ timeout timestamp now
  | requestStr path data timeout timestamp now iv =>
    exact s.transition_encryptRequest _ path _ timeout timestamp now iv
  | markRequestResourceSending requestId => exact (s.prunes_modifyReceipt requestId _).transition _
  | markRequestResourceSent requestId now => exact (s.prunes_modifyReceipt requestId _).transition _
  | failPendingRequest requestId => exact (s.prunes_failPendingRequest requestId).transition _
  | updatePendingRequestId oldRequestId newRequestId =>
    exact (s.prunes_modifyReceipt oldRequestId _).transition _
  | handleResponse encryptedData now => exact (s.prunes_handleResponse encryptedData now).transition _
  | handleResponsePlaintext plaintext now =>
    exact (s.prunes_handleResponsePlaintext plaintext now).transition _
  | deliverResponseData requestId responseData now =>
    exact (s.prunes_deliverResponseData requestId responseData now).transition _
  | updateRttFromPacket encryptedData jitter =>
    exact s.transition_updateRttFromPacket _ encryptedData jitter
  | updatePhyStats rssi snr q =>
    apply transition_of_core_eq
    unfold call updatePhyStats
    split_ifs <;> rfl
  | tick now iv => exact s.transition_tick _ now iv
  | recordInbound now => exact s.transition_recordInbound _ now
  | teardown reason iv => exact s.transition_teardown _ reason iv
  | receiveTeardown encryptedData => exact s.transition_receiveTeardown _ encryptedData
  | markClosed reason => exact s.transition_markClosed _ reason
  | setSigningKey key =>
    unfold call setSigningKey
    split_ifs with hrole
    · exact transition_of_core_eq _ rfl
    · exact .setSigningKey key (by simpa using hrole)
  | resourceConcluded size duration isIncoming =>
    apply transition_of_core_eq
    unfold call resourceConcluded
    dsimp only
    split_ifs <;> rfl
  -- The others account for traffic and resources.
  | _ => exact transition_of_core_eq _ rfl

end Transitions

/-! ### Lives -/

section Lives

variable [Binary64Bits F] [Sha256] [Ed25519] [X25519] [Hkdf]

/-- The session comes from one of the constructors. -/
inductive Created : LinkSession F → Prop
  | newInitiator (destinationHash : Octets 16) (hops : ℕ) (keys : EphemeralKeys) (now : ℕ)
      (jitter : F) : Created (newInitiator destinationHash hops keys now jitter).1
  | newResponder {requestData proofData : Bytes} {key : Octets 32} {destinationHash : Octets 16}
      {hops : ℕ} {keys : EphemeralKeys} {now : ℕ} {jitter : F} {s : LinkSession F}
      (h : newResponder requestData key destinationHash hops keys now jitter = .ok (s, proofData)) :
      Created s
  | newResponderWith {requestData proofData : Bytes} {identity : Octets 32}
      {destinationHash : Octets 16} {hops : ℕ} {signFn : Bytes → Option (Octets 64)}
      {keys : EphemeralKeys} {now : ℕ} {jitter : F} {s : LinkSession F}
      (h : newResponderWith requestData identity destinationHash hops signFn keys now jitter =
        .ok (s, proofData)) : Created s

variable {s : LinkSession F}

omit [Ed25519] in
theorem lifecycle_newResponderInner {requestData proofData : Bytes} {identity : Octets 32}
    {destinationHash : Octets 16} {hops : ℕ} {key : Option (Octets 32)}
    {signFn : Bytes → Option (Octets 64)} {keys : EphemeralKeys} {now : ℕ} {jitter : F}
    (h : newResponderInner requestData identity destinationHash hops key signFn
      keys now jitter = .ok (s, proofData)) : s.core.Lifecycle := by
  obtain ⟨⟨link, signedData, proof⟩, hlink, h⟩ := bind_eq_ok.mp h
  obtain ⟨rfl, -⟩ := Prod.mk.inj (pure_eq_ok.mp h)
  obtain ⟨hstate, hrole⟩ := Link.newResponderInner_role hlink
  have hcore : (ofLink link key (Binary64.add (establishmentSecs F hops)
      (KeepaliveState.keepaliveMax F)) none now jitter).core.state = .handshake := hstate
  refine ⟨?_, ?_, fun _ => hrole, ?_⟩
  · rw [hcore]
    rintro (h | h) <;> cases h
  · rw [hcore]
    rintro ⟨⟩
  · rw [hcore]
    rintro ⟨⟩

/-- Constructed sessions satisfy the invariant. -/
theorem Created.lifecycle (h : s.Created) : s.core.Lifecycle := by
  cases h with
  | newInitiator destinationHash hops keys now jitter =>
    refine ⟨?_, fun _ => rfl, ?_, ?_⟩
    · rintro (h | h) <;> cases h
    · rintro ⟨⟩
    · rintro ⟨⟩
  | newResponder h => exact lifecycle_newResponderInner h
  | newResponderWith h => exact lifecycle_newResponderInner h

variable [AesCbc] [Hmac] {s : LinkSession F}

theorem after_append (s : LinkSession F) (done later : List (LinkCall F)) :
    s.after (done ++ later) = (s.after done).after later :=
  List.foldl_append

theorem after_concat (s : LinkSession F) (done : List (LinkCall F)) (c : LinkCall F) :
    s.after (done ++ [c]) = (s.after done).call c :=
  s.after_append done [c]

/-- A link keeps its name and its role. -/
theorem after_name (s : LinkSession F) (calls : List (LinkCall F)) :
    (s.after calls).linkId = s.linkId ∧ (s.after calls).isInitiator = s.isInitiator := by
  induction calls using List.reverseRecOn with
  | nil => exact ⟨rfl, rfl⟩
  | append_singleton calls c ih =>
    rw [after_concat]
    obtain ⟨hid, hrole⟩ := ((s.after calls).transition_call c).name
    exact ⟨hid.trans ih.1, hrole.trans ih.2⟩

/-- **Lifecycle.** In the life of a constructed session, every state satisfies the invariant and the
closed state is never left, exactly when no signing key is set on it while it is a closed
responder. -/
theorem lifecycle_iff (hs : s.Created) (calls : List (LinkCall F)) :
    ((∀ done, done <+: calls → (s.after done).core.Lifecycle) ∧
        ∀ done c, done ++ [c] <+: calls → (s.after done).state = .closed →
          ((s.after done).call c).state = .closed) ↔
      ∀ done c, done ++ [c] <+: calls → ¬ (s.after done).Rearms c := by
  refine forall_prefix_iff (f := call) (I := fun s => s.core.Lifecycle)
    (G := fun s c => s.state = .closed → (s.call c).state = .closed)
    (C := fun s c => ¬ s.Rearms c) (fun s c hs => ?_) hs.lifecycle calls
  constructor
  · rintro ⟨hlife, -⟩ ⟨hstate, hrole, key, rfl⟩
    have hcall : s.setSigningKey key = { s with responderIdentitySigningKey := some key } := by
      rw [setSigningKey, if_neg (by simp [hrole])]
    have hclosed := hlife.closed
    rw [show s.call (.setSigningKey key) = s.setSigningKey key from rfl, hcall] at hclosed
    cases (hclosed hstate).2.2.1
  · exact fun hc => (s.transition_call c).lifecycle hs hc

/-- The session keys of an established link are never replaced. It has them after any calls, or it is
closed without keys. -/
theorem session_keys_kept (hs : s.state = .active ∨ s.state = .stale) (calls : List (LinkCall F)) :
    let t := s.after calls
    (t.state = .active ∨ t.state = .stale) ∧ t.sessionKeys = s.sessionKeys ∨
      t.state = .closed ∧ t.sessionKeys = none := by
  intro t
  induction calls using List.reverseRecOn with
  | nil => exact .inl ⟨hs, rfl⟩
  | append_singleton calls c ih =>
    have hstep := (s.after calls).transition_call c
    rw [← after_concat] at hstep
    change (t.core.state = .active ∨ t.core.state = .stale) ∧ t.core.sessionKeys = _ ∨
      t.core.state = .closed ∧ t.core.sessionKeys = none
    generalize t.core = k at hstep ⊢
    cases hstep with
    | close => exact .inr ⟨rfl, rfl⟩
    | activate _ _ h => grind
    | goStale _ _ h => grind [core]
    | recover _ h => grind [core]
    | _ => exact ih

end Lives

section Session

attribute [local instance] sessionBinary64 sessionSha256 sessionEd25519 sessionX25519 sessionHkdf
  sessionAesCbc sessionHmac

/-- A responder that was closed is given a signing key, and holds it. -/
theorem closed_responder_rearmed :
    ∃ s : LinkSession ℚ, s.Created ∧
      ¬ (s.after [.markClosed .timeout, .setSigningKey (replicate 32 4)]).core.Lifecycle := by
  obtain ⟨s, proofData, h, hcheck⟩ := exists_ok_of_any (x := sessionResponder) (p := fun s =>
      (s.after [.markClosed .timeout, .setSigningKey (replicate 32 4)]).state = .closed ∧
        (s.after [.markClosed .timeout,
          .setSigningKey (replicate 32 4)]).responderIdentitySigningKey ≠ none)
    (by decide +kernel)
  exact ⟨s, .newResponderWith h, fun hlife => hcheck.2 (hlife.closed hcheck.1).2.2.1⟩

/-- The link of the session is established, goes stale, is heard of again and is closed. -/
private def sessionLife : List (LinkCall ℚ) :=
  [.receiveRttPacket sessionRtt (250 * 10 ^ 6) 0, .tick (200 * 10 ^ 9) (replicate 16 0),
    .recordInbound (201 * 10 ^ 9), .markClosed .timeout]

/-- All of that life is in order. -/
theorem lifecycle_iff_session :
    ∃ s : LinkSession ℚ, s.Created ∧ (s.after sessionLife).state = .closed ∧
      ∀ done, done <+: sessionLife → (s.after done).core.Lifecycle := by
  obtain ⟨s, proofData, h, hcheck⟩ := exists_ok_of_any (x := sessionResponder)
    (p := fun s => (s.after sessionLife).state = .closed) (by decide +kernel)
  refine ⟨s, .newResponderWith h, hcheck, ((lifecycle_iff (.newResponderWith h) sessionLife).mpr ?_).1⟩
  rintro done c hprefix ⟨-, -, key, rfl⟩
  have hmem := hprefix.subset (List.mem_append_right _ (List.mem_singleton_self _))
  simp [sessionLife] at hmem

/-- The established link keeps its keys while it is stale and after that, and has none when it is
closed. -/
theorem session_keys_kept_session :
    ∃ (s : LinkSession ℚ) (proofData : Bytes), sessionResponder = .ok (s, proofData) ∧
      let established := s.after (sessionLife.take 1)
      established.sessionKeys.isSome ∧
        (established.after ((sessionLife.drop 1).take 1)).sessionKeys = established.sessionKeys ∧
        (established.after ((sessionLife.drop 1).take 2)).sessionKeys = established.sessionKeys ∧
        (established.after (sessionLife.drop 1)).sessionKeys = none := by
  obtain ⟨s, proofData, h, hactive, hkeys, hstates⟩ := exists_ok_of_any (x := sessionResponder)
    (p := fun s => (s.after (sessionLife.take 1)).state = .active ∧
      (s.after (sessionLife.take 1)).sessionKeys.isSome ∧
      [1, 2, 3].map (fun n => ((s.after (sessionLife.take 1)).after
        ((sessionLife.drop 1).take n)).state) = [.stale, .active, .closed]) (by decide +kernel)
  obtain ⟨hstale, hrecovered, hclosed, -⟩ :
      _ = LinkState.stale ∧ _ = LinkState.active ∧ _ = LinkState.closed ∧ _ := by
    simpa only [List.map_cons, List.map_nil, List.cons.injEq] using hstates
  have hkept := session_keys_kept (s := s.after (sessionLife.take 1)) (.inl hactive)
  refine ⟨s, proofData, h, hkeys, ?_, ?_, ?_⟩
  · exact ((hkept _).resolve_right fun hgone => by cases hgone.1.symm.trans hstale).2
  · exact ((hkept _).resolve_right fun hgone => by cases hgone.1.symm.trans hrecovered).2
  · refine ((hkept _).resolve_left fun hopen => ?_).2
    rcases hopen.1 with hopen | hopen <;> cases hopen.symm.trans hclosed

end Session

/-! ### The remote identity -/

section Identity

variable [Binary64Bits F] [Sha256] [Ed25519] [X25519] [Hkdf] [AesCbc] [Hmac]
  (s : LinkSession F) (calls : List (LinkCall F))

/-- An identity that is set stays. -/
theorem remoteIdentityPub_after {key : Octets 64}
    (h : s.remoteIdentityPub = some key) : (s.after calls).remoteIdentityPub = some key := by
  induction calls using List.reverseRecOn with
  | nil => exact h
  | append_singleton calls c ih =>
    rw [after_concat]
    rcases ((s.after calls).transition_call c).remoteIdentity with hsame | ⟨-, hnone, -⟩
    · exact hsame.trans ih
    · cases ih.symm.trans hnone

/-- An initiator learns no identity. -/
theorem remoteIdentityPub_after_initiator
    (h : s.isInitiator = true) : (s.after calls).remoteIdentityPub = s.remoteIdentityPub := by
  induction calls using List.reverseRecOn with
  | nil => rfl
  | append_singleton calls c ih =>
    rw [after_concat]
    rcases ((s.after calls).transition_call c).remoteIdentity with hsame | ⟨hresponder, -⟩
    · exact hsame.trans ih
    · rw [(s.after_name calls).2, h] at hresponder
      cases hresponder

/-- **Remote identity.** In the life of a session a call changes the remote identity only on a
responder that has none, and only if it is an identification packet with a signature, valid under
the key it presents, over the name of this link and that key; the new identity is this key. On an
initiator the remote identity never changes, and an identity that is set stays. -/
theorem remote_identity_once (s : LinkSession F) (calls : List (LinkCall F)) :
    (∀ done c, done ++ [c] <+: calls →
      (s.after (done ++ [c])).remoteIdentityPub = (s.after done).remoteIdentityPub ∨
        s.isInitiator = false ∧ (s.after done).remoteIdentityPub = none ∧
          ∃ (encryptedData : Bytes) (publicKey signature : Octets 64),
            c = .handleIdentification encryptedData ∧
            (s.after done).decrypt encryptedData = .ok (publicKey.1 ++ signature.1) ∧
            Ed25519.verify (read 32 (publicKey.1.drop 32)) (s.linkId.1 ++ publicKey.1)
              signature = true ∧
            (s.after (done ++ [c])).remoteIdentityPub = some publicKey) ∧
    (∀ done, done <+: calls → s.isInitiator = true →
      (s.after done).remoteIdentityPub = s.remoteIdentityPub) ∧
    ∀ done later key, done ++ later <+: calls → (s.after done).remoteIdentityPub = some key →
      (s.after (done ++ later)).remoteIdentityPub = some key := by
  refine ⟨fun done c _ => ?_, fun done _ hrole => s.remoteIdentityPub_after_initiator done hrole,
    fun done later key _ hkey => ?_⟩
  · obtain ⟨hid, hrole⟩ := s.after_name done
    rw [after_concat]
    rcases ((s.after done).transition_call c).remoteIdentity with
      hsame | ⟨hresponder, hnone, encryptedData, publicKey, hcall, ⟨signature, hplain, hverify⟩, hset⟩
    · exact .inl hsame
    · rw [hid] at hverify
      exact .inr ⟨hrole.symm.trans hresponder, hnone, encryptedData, publicKey, signature, hcall,
        hplain, hverify, hset⟩
  · rw [after_append]
    exact (s.after done).remoteIdentityPub_after later hkey

end Identity

end LinkSession

end Reticulum
