import Reticulum.Crypto.Primitives
import Reticulum.Foundation.Fallible
import Reticulum.Wire.LinkSignalling

/-!
# Messages and keys of the link handshake

A link request carries two ephemeral public keys and a signalling trailer, a link proof the
responder's ephemeral key and a signature of the destination's identity. The codecs follow
`handshake.rs` of the `rns-link` crate, the session keys `key_derivation.rs`.
-/

namespace Reticulum

open Wire X25519 Octets

/-- `ECPUBSIZE`: the two ephemeral public keys. -/
def ecpubsize : ℕ := 64

/-- `LINK_MTU_SIZE`: the signalling trailer. -/
def linkMtuSize : ℕ := 3

/-- `MODE_AES128_CBC`. -/
def modeAes128Cbc : ℕ := 0

/-- `MODE_AES256_CBC`. -/
def modeAes256Cbc : ℕ := 1

/-- `ENABLED_MODES`. -/
def enabledModes : List ℕ := [modeAes256Cbc]

/-- `DEFAULT_MODE`. -/
def defaultMode : ℕ := modeAes256Cbc

/-! ### Session keys -/

/-- `LinkKeyError`. -/
inductive LinkKeyError
  | unsupportedMode (mode : ℕ)
  | hkdfFailed
  deriving DecidableEq, Repr

/-- `HandshakeError`. -/
inductive HandshakeError
  | signalling (e : LinkSignallingError)
  | tooShort
  | invalidLength (length : ℕ)
  | invalidSignature
  | keyDerivation (e : LinkKeyError)
  | unsupportedMode (mode : ℕ)
  deriving DecidableEq, Repr

/-- The session keys of a link. -/
structure LinkKeys where
  signingKey : Bytes
  encryptionKey : Bytes
  deriving DecidableEq, Repr

section Keys

variable [X25519] [Hkdf]

/-- The key material of a link, cut in two halves. -/
def LinkKeys.split (length : ℕ) (sharedKey : Octets 32) (linkId : Octets 16) :
    Except LinkKeyError LinkKeys :=
  match hkdfSha256 length sharedKey.1 (some linkId.1) none with
  | .error _ => .error .hkdfFailed
  | .ok derived =>
    let half := length / 2
    .ok { signingKey := derived.1.take half, encryptionKey := derived.1.drop half }

/-- `LinkKeys::derive`. -/
def LinkKeys.derive (myPrv peerPub : Octets 32) (linkId : Octets 16) (mode : ℕ) :
    Except LinkKeyError LinkKeys :=
  if mode = modeAes128Cbc then LinkKeys.split 32 (exchange myPrv peerPub) linkId
  else if mode = modeAes256Cbc then LinkKeys.split 64 (exchange myPrv peerPub) linkId
  else .error (.unsupportedMode mode)

/-- `perform_handshake`. -/
def performHandshake (myX25519Prv peerX25519Pub : Octets 32) (linkId : Octets 16) (mode : ℕ) :
    Except LinkKeyError LinkKeys :=
  LinkKeys.derive myX25519Prv peerX25519Pub linkId mode

/-- Both ends of an exchange that commutes derive the same keys. -/
theorem LinkKeys.derive_comm
    (hdh : ∀ a b, exchange a (publicKey b) = exchange b (publicKey a))
    (a b : Octets 32) (linkId : Octets 16) (mode : ℕ) :
    derive a (publicKey b) linkId mode = derive b (publicKey a) linkId mode := by
  simp only [derive, hdh a b]

end Keys

/-! ### Messages -/

/-- `EphemeralKeys`, given by its two private keys. -/
structure EphemeralKeys where
  x25519Prv : Octets 32
  ed25519Prv : Octets 32
  deriving DecidableEq, Repr

namespace EphemeralKeys

/-- The X25519 public key. -/
def x25519Pub [X25519] (keys : EphemeralKeys) : Octets 32 := publicKey keys.x25519Prv

/-- The Ed25519 public key. -/
def ed25519Pub [Ed25519] (keys : EphemeralKeys) : Octets 32 := Ed25519.publicKey keys.ed25519Prv

end EphemeralKeys

/-- `LinkRequestData`. -/
structure LinkRequestData where
  peerX25519Pub : Octets 32
  peerEd25519Pub : Octets 32
  signalling : SignallingData
  deriving DecidableEq, Repr

namespace LinkRequestData

/-- `LinkRequestData::pack`. -/
def pack [X25519] [Ed25519] (keys : EphemeralKeys) (signalling : SignallingData) : Bytes :=
  keys.x25519Pub.1 ++ (keys.ed25519Pub.1 ++ signalling.pack)

/-- `LinkRequestData::unpack`. -/
def unpack (data : Bytes) : Except HandshakeError LinkRequestData :=
  if data.length < ecpubsize then .error .tooShort
  else if data.length ≠ ecpubsize ∧ data.length ≠ ecpubsize + linkMtuSize then
    .error (.invalidLength data.length)
  else
    match parseRequestSignalling data with
    | .error e => .error (.signalling e)
    | .ok _ =>
      let signalling :=
        if data.length = ecpubsize + linkMtuSize then
          (SignallingData.unpack ((data.drop ecpubsize).take linkMtuSize)).getD
            (.new defaultMode mtu)
        else .new defaultMode mtu
      .ok { peerX25519Pub := read 32 data
            peerEd25519Pub := read 32 (data.drop 32)
            signalling }

/-- An accepted request has one of the two shapes and names the peer's keys. -/
theorem unpack_ok {data : Bytes} {request : LinkRequestData} (h : unpack data = .ok request) :
    64 ≤ data.length ∧ request.peerX25519Pub = read 32 data := by
  obtain ⟨hlen, h⟩ := ite_error_eq_ok.mp h
  obtain ⟨-, h⟩ := ite_error_eq_ok.mp h
  cases hp : parseRequestSignalling data with
  | error e =>
    rw [hp] at h
    cases h
  | ok signal =>
    rw [hp] at h
    obtain rfl := Except.ok.inj h
    exact ⟨Nat.le_of_not_lt hlen, rfl⟩

end LinkRequestData

/-- `compute_link_id`. -/
def computeLinkId [Sha256] (destinationHash : Octets 16) (requestData : Bytes) : Octets 16 :=
  let flagsLowNibble : UInt8 := 0x02
  let context : UInt8 := 0x00
  let dataLen := min requestData.length ecpubsize
  truncatedHash (flagsLowNibble :: (destinationHash.1 ++ context :: requestData.take dataLen))

/-- The bytes that a link id is the hash of. -/
def linkIdInput (destinationHash : Octets 16) (requestData : Bytes) : Bytes :=
  0x02 :: (destinationHash.1 ++ 0x00 :: requestData.take 64)

theorem computeLinkId_eq [Sha256] (destinationHash : Octets 16) (requestData : Bytes) :
    computeLinkId destinationHash requestData =
      truncatedHash (linkIdInput destinationHash requestData) := by
  have htake : requestData.take (min requestData.length ecpubsize) = requestData.take 64 := by
    rw [ecpubsize, List.take_eq_take_iff]
    omega
  rw [computeLinkId, linkIdInput, htake]

/-- The input of a link id determines destination and key block. -/
theorem linkIdInput_inj {d d' : Octets 16} {r r' : Bytes} (h : linkIdInput d r = linkIdInput d' r') :
    d = d' ∧ r.take 64 = r'.take 64 := by
  obtain ⟨hd, hr⟩ := List.append_inj (List.cons.inj h).2 (by simp)
  exact ⟨Subtype.ext hd, (List.cons.inj hr).2⟩

/-- `LinkProofData`. -/
structure LinkProofData where
  signature : Octets 64
  responderX25519Pub : Octets 32
  signalling : SignallingData
  deriving DecidableEq, Repr

namespace LinkProofData

/-- `LinkProofData::pack`. -/
def pack (proof : LinkProofData) : Bytes :=
  proof.signature.1 ++ (proof.responderX25519Pub.1 ++ proof.signalling.pack)

/-- `LinkProofData::unpack`. -/
def unpack (data : Bytes) : Except HandshakeError LinkProofData :=
  if data.length < 96 then .error .tooShort
  else if data.length ≠ 96 ∧ data.length ≠ 96 + linkMtuSize then
    .error (.invalidLength data.length)
  else
    match parseProofSignalling data with
    | .error e => .error (.signalling e)
    | .ok _ =>
      let signalling :=
        if data.length = 96 + linkMtuSize then
          (SignallingData.unpack ((data.drop 96).take linkMtuSize)).getD (.new defaultMode mtu)
        else .new defaultMode mtu
      .ok { signature := read 64 data
            responderX25519Pub := read 32 (data.drop 64)
            signalling }

/-- An accepted proof names signature and key by position. -/
theorem unpack_ok {data : Bytes} {proof : LinkProofData} (h : unpack data = .ok proof) :
    proof.signature = read 64 data ∧
      proof.responderX25519Pub = read 32 (data.drop 64) := by
  obtain ⟨-, h⟩ := ite_error_eq_ok.mp h
  obtain ⟨-, h⟩ := ite_error_eq_ok.mp h
  cases hp : parseProofSignalling data with
  | error e =>
    rw [hp] at h
    cases h
  | ok signal =>
    rw [hp] at h
    obtain rfl := Except.ok.inj h
    exact ⟨rfl, rfl⟩

end LinkProofData

end Reticulum
