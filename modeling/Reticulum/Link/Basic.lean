import Reticulum.Link.Handshake

/-!
# Links

The two ends of a link and the three functions of `link.rs` of the `rns-link` crate that bring it
up: the initiator's constructor, the responder's constructor and the initiator's check of the
link proof. `identify` is here because it signs with the same kind of key as a responder does.

Randomness is an argument (ephemeral keys, initialisation vectors), and so is the encoded round
trip time. Timers, statistics and callbacks of a link are left out.
-/

namespace Reticulum

open Wire LinkMtu Octets

/-- `link_encrypt`: the token construction under an initialisation vector. -/
class LinkToken where
  /-- Encrypt a plaintext; it may fail. -/
  encrypt : (iv : Octets 16) → LinkKeys → Bytes → Option Bytes

/-- `LinkState`. -/
inductive LinkState
  | pending
  | handshake
  | active
  | stale
  | closed
  deriving DecidableEq, Repr

/-- The fields of `Link` that the handshake reads or writes. -/
structure Link where
  linkId : Octets 16
  state : LinkState
  isInitiator : Bool
  mode : ℕ
  offeredMode : ℕ
  offeredMtu : LinkMtu
  ephemeralKeys : Option EphemeralKeys
  peerX25519Pub : Option (Octets 32)
  peerPacketProofKey : Option (Octets 32)
  sessionKeys : Option LinkKeys
  mtu : ℕ
  mdu : ℕ
  establishmentCost : ℕ
  destinationHash : Octets 16
  deriving DecidableEq, Repr

namespace Link

/-! ### The functions of the source -/

variable [Sha256] [Ed25519] [X25519] [Hkdf] [LinkToken]

/-- `Link::new_initiator`: the link and the request data to transmit. -/
def newInitiator (destinationHash : Octets 16) (ephemeralKeys : EphemeralKeys) : Link × Bytes :=
  let signalling := SignallingData.new defaultMode Wire.mtu
  let requestData := LinkRequestData.pack ephemeralKeys signalling
  ({ linkId := computeLinkId destinationHash requestData
     state := .pending
     isInitiator := true
     mode := defaultMode
     offeredMode := defaultMode
     offeredMtu := .base
     ephemeralKeys := some ephemeralKeys
     peerX25519Pub := none
     peerPacketProofKey := none
     sessionKeys := none
     mtu := Wire.mtu
     mdu := linkMdu
     establishmentCost := requestData.length
     destinationHash }, requestData)

/-- What a link proof signs. -/
def proofMessage (linkId : Octets 16) (responderX25519Pub identityEd25519Pub : Octets 32)
    (trailer : Bytes) : Bytes :=
  linkId.1 ++ (responderX25519Pub.1 ++ (identityEd25519Pub.1 ++ trailer))

/-- `Link::validate_proof`: the activated link and the encrypted round trip time. -/
def validateProof (link : Link) (proofData : Bytes)
    (identityVerifyKey identityEd25519PubBytes : Octets 32) (rttBytes : Bytes) (iv : Octets 16) :
    Except HandshakeError (Link × Bytes) :=
  if link.state ≠ .pending then .error .invalidSignature
  else do
    let checked ← (parseProofSignalling proofData).mapError .signalling
    if checked.mode ≠ link.offeredMode then .error .invalidSignature
    else if checked.mode ∉ enabledModes then .error (.unsupportedMode checked.mode)
    else if link.offeredMtu.get < checked.mtu.get then
      .error (.signalling (.invalidMtu checked.mtu.get))
    else do
      let mdu ← checked.mtu.checkedMdu.mapError .signalling
      let proof ← LinkProofData.unpack proofData
      let signed := proofMessage link.linkId proof.responderX25519Pub identityEd25519PubBytes
        (proofData.drop 96)
      if ¬ Ed25519.verify identityVerifyKey signed proof.signature then .error .invalidSignature
      else
        match link.ephemeralKeys with
        | none => .error .invalidSignature
        | some ephemeral => do
          let keys ← (performHandshake ephemeral.x25519Prv proof.responderX25519Pub link.linkId
            checked.mode).mapError .keyDerivation
          match LinkToken.encrypt iv keys rttBytes with
          | none => .error .invalidSignature
          | some encryptedRtt =>
            return ({ link with
              establishmentCost := link.establishmentCost + proofData.length
              peerX25519Pub := some proof.responderX25519Pub
              peerPacketProofKey := some identityEd25519PubBytes
              sessionKeys := some keys
              mode := checked.mode
              mtu := checked.mtu.get
              mdu
              state := .active }, encryptedRtt)

/-- `Link::new_responder_inner`: the link, the message signed for the proof, and the proof. -/
def newResponderInner (requestData : Bytes) (identityEd25519Pub : Octets 32)
    (destinationHash : Octets 16) (signFn : Bytes → Option (Octets 64))
    (responderKeys : EphemeralKeys) : Except HandshakeError (Link × Bytes × Bytes) := do
  let request ← LinkRequestData.unpack requestData
  let linkId := computeLinkId destinationHash requestData
  if request.signalling.mode ∉ enabledModes then
    .error (.unsupportedMode request.signalling.mode)
  else do
    let offered ← (tryFromSignal (some request.signalling.mtu)).mapError .signalling
    let acceptedMtu := if offered.get ≤ base.get then offered else .base
    let acceptedMdu ← acceptedMtu.checkedMdu.mapError .signalling
    let sessionKeys ← (performHandshake responderKeys.x25519Prv request.peerX25519Pub linkId
      request.signalling.mode).mapError .keyDerivation
    let signalling ← (SignallingData.tryNew request.signalling.mode
      acceptedMtu.get).mapError .signalling
    let signedData := proofMessage linkId responderKeys.x25519Pub identityEd25519Pub
      signalling.pack
    match signFn signedData with
    | none => .error .invalidSignature
    | some signature =>
      let proofData := LinkProofData.pack
        { signature, responderX25519Pub := responderKeys.x25519Pub, signalling }
      return ({ linkId
                state := .handshake
                isInitiator := false
                mode := request.signalling.mode
                offeredMode := request.signalling.mode
                offeredMtu := acceptedMtu
                ephemeralKeys := some responderKeys
                peerX25519Pub := some request.peerX25519Pub
                peerPacketProofKey := some request.peerEd25519Pub
                sessionKeys := some sessionKeys
                mtu := acceptedMtu.get
                mdu := acceptedMdu
                establishmentCost := requestData.length + proofData.length
                destinationHash }, signedData, proofData)

/-- The message that `Link::identify` signs; only an active initiator signs one. -/
def identifyMessage (link : Link) (identityPubKey : Octets 64) : Option Bytes :=
  if ¬ link.isInitiator ∨ link.state ≠ .active then none
  else some (link.linkId.1 ++ identityPubKey.1)

/-! ### What the two checks establish -/

variable {link link' : Link} {proofData rttBytes encryptedRtt : Bytes} {key keyBytes : Octets 32}

omit [Sha256] in
/-- What an accepted proof passes, and the link it leaves. -/
theorem validateProof_eq_ok {iv : Octets 16}
    (h : link.validateProof proofData key keyBytes rttBytes iv = .ok (link', encryptedRtt)) :
    ∃ signal ephemeral keys mdu, link.state = .pending ∧
      parseProofSignalling proofData = .ok signal ∧
      Ed25519.verify key (proofMessage link.linkId (read 32 (proofData.drop 64)) keyBytes
        (proofData.drop 96)) (read 64 proofData) = true ∧
      link.ephemeralKeys = some ephemeral ∧
      performHandshake ephemeral.x25519Prv (read 32 (proofData.drop 64)) link.linkId
        signal.mode = .ok keys ∧
      signal.mtu.checkedMdu = .ok mdu ∧
      link' = { link with
        establishmentCost := link.establishmentCost + proofData.length
        peerX25519Pub := some (read 32 (proofData.drop 64))
        peerPacketProofKey := some keyBytes
        sessionKeys := some keys
        mode := signal.mode
        mtu := signal.mtu.get
        mdu
        state := .active } := by
  obtain ⟨hstate, h⟩ := ite_error_eq_ok.mp h
  obtain ⟨signal, hsignal, h⟩ := bind_eq_ok.mp h
  obtain ⟨-, h⟩ := ite_error_eq_ok.mp h
  obtain ⟨-, h⟩ := ite_error_eq_ok.mp h
  obtain ⟨-, h⟩ := ite_error_eq_ok.mp h
  obtain ⟨mdu, hmdu, h⟩ := bind_eq_ok.mp h
  obtain ⟨proof, hproof, h⟩ := bind_eq_ok.mp h
  obtain ⟨hverify, h⟩ := ite_error_eq_ok.mp h
  obtain ⟨hsig, hpub⟩ := LinkProofData.unpack_ok hproof
  rw [hsig, hpub] at hverify
  cases he : link.ephemeralKeys with
  | none =>
    rw [he] at h
    cases h
  | some ephemeral =>
    rw [he] at h
    obtain ⟨keys, hkeys, h⟩ := bind_eq_ok.mp h
    rw [hpub] at hkeys h
    cases henc : LinkToken.encrypt iv keys rttBytes with
    | none =>
      rw [henc] at h
      cases h
    | some encrypted =>
      rw [henc] at h
      obtain ⟨rfl, -⟩ := Prod.mk.inj (pure_eq_ok.mp h)
      exact ⟨signal, ephemeral, keys, mdu, not_not.mp hstate, mapError_eq_ok.mp hsignal,
        not_not.mp hverify, rfl, mapError_eq_ok.mp hkeys, mapError_eq_ok.mp hmdu, rfl⟩

omit [Sha256] in
/-- An accepted proof is signed over the link id, the named responder key and the trailer it came
with, and the link takes mode and MTU from that trailer. -/
theorem validateProof_ok {iv : Octets 16}
    (h : link.validateProof proofData key keyBytes rttBytes iv = .ok (link', encryptedRtt)) :
    ∃ signal ephemeral keys, link.state = .pending ∧ parseProofSignalling proofData = .ok signal ∧
      Ed25519.verify key (proofMessage link.linkId (read 32 (proofData.drop 64)) keyBytes
        (proofData.drop 96)) (read 64 proofData) = true ∧
      link.ephemeralKeys = some ephemeral ∧
      performHandshake ephemeral.x25519Prv (read 32 (proofData.drop 64)) link.linkId
        signal.mode = .ok keys ∧
      signal.mtu.checkedMdu = .ok link'.mdu ∧ link'.linkId = link.linkId ∧
      link'.destinationHash = link.destinationHash ∧ link'.sessionKeys = some keys ∧
      link'.mode = signal.mode ∧ link'.mtu = signal.mtu.get ∧ link'.state = .active := by
  obtain ⟨signal, ephemeral, keys, mdu, hstate, hsignal, hverify, hephemeral, hkeys, hmdu, rfl⟩ :=
    validateProof_eq_ok h
  exact ⟨signal, ephemeral, keys, hstate, hsignal, hverify, hephemeral, hkeys, hmdu, rfl, rfl, rfl,
    rfl, rfl, rfl⟩

variable {requestData signedData proofData : Bytes} {signFn : Bytes → Option (Octets 64)}
  {destinationHash : Octets 16} {identity : Octets 32} {keys : EphemeralKeys}

omit [Ed25519] [LinkToken] in
/-- A responder signs its link id, its ephemeral key, its identity and the trailer it accepts,
which offers the base MTU. -/
theorem newResponderInner_ok
    (h : newResponderInner requestData identity destinationHash signFn keys =
      .ok (link, signedData, proofData)) :
    ∃ sessionKeys, 64 ≤ requestData.length ∧
      link.linkId = computeLinkId destinationHash requestData ∧ link.mode ≤ 7 ∧
      signedData = proofMessage link.linkId keys.x25519Pub identity
        (SignallingData.pack { mode := link.mode, mtu := base.get }) ∧
      performHandshake keys.x25519Prv (read 32 requestData) link.linkId link.mode =
        .ok sessionKeys ∧
      base.checkedMdu = .ok link.mdu ∧ link.sessionKeys = some sessionKeys ∧
      link.mtu = base.get ∧ link.destinationHash = destinationHash := by
  obtain ⟨request, hrequest, h⟩ := bind_eq_ok.mp h
  obtain ⟨hlen, hpeer⟩ := LinkRequestData.unpack_ok hrequest
  obtain ⟨hmode, h⟩ := ite_error_eq_ok.mp h
  obtain ⟨offered, -, h⟩ := bind_eq_ok.mp h
  have haccepted : (if offered.get ≤ base.get then offered else .base) = base := by
    split_ifs with hle
    · exact ext (Nat.le_antisymm hle offered.base_le)
    · rfl
  simp only [haccepted] at h
  obtain ⟨mdu, hmdu, h⟩ := bind_eq_ok.mp h
  obtain ⟨sessionKeys, hkeys, h⟩ := bind_eq_ok.mp h
  obtain ⟨signalling, hsignalling, h⟩ := bind_eq_ok.mp h
  obtain ⟨hseven, hsignalling⟩ := ite_error_eq_ok.mp (mapError_eq_ok.mp hsignalling)
  obtain rfl : { mode := request.signalling.mode, mtu := base.get } = signalling := by
    rw [tryFromSignal_get] at hsignalling
    exact pure_eq_ok.mp hsignalling
  rw [hpeer] at hkeys
  split at h
  next => cases h
  next signature =>
    obtain ⟨rfl, hrest⟩ := Prod.mk.inj (pure_eq_ok.mp h)
    obtain ⟨rfl, -⟩ := Prod.mk.inj hrest
    exact ⟨sessionKeys, hlen, rfl, Nat.le_of_not_lt hseven, rfl, mapError_eq_ok.mp hkeys,
      mapError_eq_ok.mp hmdu, rfl, rfl, rfl⟩

omit [Ed25519] [LinkToken] in
/-- A responder starts in the handshake. -/
theorem newResponderInner_role
    (h : newResponderInner requestData identity destinationHash signFn keys =
      .ok (link, signedData, proofData)) :
    link.state = .handshake ∧ link.isInitiator = false := by
  obtain ⟨request, -, h⟩ := bind_eq_ok.mp h
  obtain ⟨-, h⟩ := ite_error_eq_ok.mp h
  obtain ⟨offered, -, h⟩ := bind_eq_ok.mp h
  dsimp only at h
  generalize (if offered.get ≤ base.get then offered else base) = accepted at h
  obtain ⟨mdu, -, h⟩ := bind_eq_ok.mp h
  obtain ⟨sessionKeys, -, h⟩ := bind_eq_ok.mp h
  obtain ⟨signalling, -, h⟩ := bind_eq_ok.mp h
  split at h
  next => cases h
  next signature =>
    obtain ⟨rfl, -⟩ := Prod.mk.inj (pure_eq_ok.mp h)
    exact ⟨rfl, rfl⟩

end Link

end Reticulum
