import Reticulum.Crypto.Primitives
import Reticulum.Foundation.Fallible

/-!
# Announces

An announce binds a destination to the keys of its owner: `announce.rs` of the `rns-identity` crate,
with the parts of `identity.rs`, `name_hash.rs` and `destination.rs` that it uses. The signature
covers the destination hash and the fields of the announce one after the other. Whether a ratchet is
among them is not signed: the receiver is told by the context flag of the packet. A signature
therefore fixes the ratchet and the application data only as one string.

## Main definitions

* `Identity`, `nameHash`, `Destination.computeHash`.
* `AnnounceData`, `createAt`, `pack`, `unpack`, `verifySignature`, `validate`.
* `Creation` — a call of `createAt` by the owner of an identity.

## Main results

* `AnnounceData.announce_authentic_iff` — when an accepted announce is the one that was created.
-/

namespace Reticulum

open Octets Option

/-! ### Identities and destinations -/

/-- `Identity`, without the encryption key. -/
structure Identity where
  sigPrv : Option (Octets 32)
  pubKey : Octets 32
  sigPub : Octets 32
  hash : Octets 16
  /-- `LocalKeyBackend::sign_ed25519` of an identity whose key is not in memory. -/
  backend : Option (Bytes → Option (Octets 64))

namespace Identity

/-- `Identity::get_public_key`. -/
def getPublicKey (identity : Identity) : Octets 64 :=
  ⟨identity.pubKey.1 ++ identity.sigPub.1, by simp⟩

/-- `Identity::compute_hash`. -/
def computeHash [Sha256] (pubKey sigPub : Octets 32) : Octets 16 :=
  truncatedHash (pubKey.1 ++ sigPub.1)

/-- `Identity::from_public_key` of 64 bytes. -/
def fromPublicKey [Sha256] [Ed25519] (key : Octets 64) : Option Identity :=
  let pubKey := read 32 key.1
  let sigPub := read 32 (key.1.drop 32)
  if Ed25519.validKey sigPub then
    some { sigPrv := none, pubKey, sigPub, hash := computeHash pubKey sigPub, backend := none }
  else none

/-- `Identity::sign`. -/
def sign [Ed25519] (identity : Identity) (message : Bytes) : Option (Octets 64) :=
  match identity.sigPrv with
  | some key => some (Ed25519.sign key message)
  | none => identity.backend.bind fun signEd25519 => signEd25519 message

/-- `Identity::verify`. -/
def verify [Ed25519] (identity : Identity) (message : Bytes) (signature : Octets 64) : Bool :=
  Ed25519.verify identity.sigPub message signature

end Identity

/-- `name_hash` of a name in UTF-8. -/
def nameHash [Sha256] (appName : Bytes) : Octets 10 := read 10 (Sha256.digest appName).1

namespace Destination

variable [Sha256]

/-- `Destination::compute_hash`. -/
def computeHash (nameHash : Octets 10) : Option (Octets 16) → Octets 16
  | some identityHash => truncatedHash (nameHash.1 ++ identityHash.1)
  | none => truncatedHash nameHash.1

/-- `Destination::hash_from_name_and_identity`. -/
def hashFromNameAndIdentity (appName : Bytes) (identityHash : Option (Octets 16)) : Octets 16 :=
  computeHash (nameHash appName) identityHash

end Destination

/-! ### Announces -/

/-- `AnnounceError`. -/
inductive AnnounceError
  | tooShort (length : ℕ)
  | signatureInvalid
  | hashMismatch
  | noPrivateKey
  | invalidPublicKey
  | hashCollision
  | invalidWireTime (time : ℕ)
  deriving DecidableEq, Repr

/-- `ANNOUNCE_TIME_MAX`. -/
def announceTimeMax : ℕ := 2 ^ 40 - 1

/-- `MIN_ANNOUNCE_SIZE`: key, name hash, random hash and signature. -/
def minAnnounceSize : ℕ := 64 + 10 + 10 + 64

/-- `RATCHET_SIZE`. -/
def ratchetSize : ℕ := 32

/-- `AnnounceData`. -/
structure AnnounceData where
  publicKey : Octets 64
  nameHash : Octets 10
  randomHash : Octets 10
  ratchet : Option (Octets 32)
  signature : Octets 64
  appData : Option Bytes
  deriving DecidableEq, Repr

namespace AnnounceData

/-- The bytes of an optional field. -/
def ratchetBytes (ratchet : Option (Octets 32)) : Bytes := (ratchet.map Subtype.val).getD []

/-- The bytes that a signature covers. -/
def signedBytes (destHash : Octets 16) (publicKey : Octets 64) (nameHash randomHash : Octets 10)
    (ratchet : Option (Octets 32)) (appData : Option Bytes) : Bytes :=
  destHash.1 ++ (publicKey.1 ++ (nameHash.1 ++ (randomHash.1 ++
    (ratchetBytes ratchet ++ appData.getD []))))

/-- The signed bytes of an announce for a destination. -/
def signedData (a : AnnounceData) (destHash : Octets 16) : Bytes :=
  signedBytes destHash a.publicKey a.nameHash a.randomHash a.ratchet a.appData

/-- `AnnounceData::create_at` with the random bytes that it draws. -/
def createAt [Sha256] [Ed25519] (identity : Identity) (appName : Bytes) (appData : Option Bytes)
    (ratchetPub : Option (Octets 32)) (wireTime : ℕ) (randomBytes : Octets 5) :
    Except AnnounceError AnnounceData :=
  if announceTimeMax < wireTime then .error (.invalidWireTime wireTime)
  else
    let publicKey := identity.getPublicKey
    let nh := Reticulum.nameHash appName
    let randomHash : Octets 10 := ⟨randomBytes.1 ++ bigEndian 5 wireTime, by simp⟩
    let destHash := Destination.hashFromNameAndIdentity appName (some identity.hash)
    match identity.sign (signedBytes destHash publicKey nh randomHash ratchetPub appData) with
    | none => .error .noPrivateKey
    | some signature =>
      .ok { publicKey, nameHash := nh, randomHash, ratchet := ratchetPub, signature, appData }

/-- `AnnounceData::pack`. -/
def pack (a : AnnounceData) : Bytes :=
  a.publicKey.1 ++ (a.nameHash.1 ++ (a.randomHash.1 ++ (ratchetBytes a.ratchet ++
    (a.signature.1 ++ a.appData.getD []))))

/-- `AnnounceData::unpack`. -/
def unpack (data : Bytes) (hasRatchet : Bool) : Except AnnounceError AnnounceData :=
  let minSize := if hasRatchet then minAnnounceSize + ratchetSize else minAnnounceSize
  if data.length < minSize then .error (.tooShort data.length)
  else
    let rest := data.drop 84
    let body := if hasRatchet then rest.drop 32 else rest
    .ok
      { publicKey := read 64 data
        nameHash := read 10 (data.drop 64)
        randomHash := read 10 (data.drop 74)
        ratchet := if hasRatchet then some (read 32 rest) else none
        signature := read 64 body
        appData := if minSize < data.length then some (body.drop 64) else none }

section

variable [Sha256] [Ed25519]

/-- `AnnounceData::verify_signature`. -/
def verifySignature (a : AnnounceData) (packetDestHash : Octets 16) :
    Except AnnounceError Identity :=
  match Identity.fromPublicKey a.publicKey with
  | none => .error .invalidPublicKey
  | some identity =>
    if ¬ identity.verify (a.signedData packetDestHash) a.signature then .error .signatureInvalid
    else .ok identity

/-- `AnnounceData::validate_destination_binding`. -/
def validateDestinationBinding (a : AnnounceData) (packetDestHash : Octets 16) (identity : Identity)
    (knownPublicKey : Option (Octets 64)) : Except AnnounceError Unit :=
  if truncatedHash (a.nameHash.1 ++ identity.hash.1) ≠ packetDestHash then .error .hashMismatch
  else if ∃ knownKey ∈ knownPublicKey, knownKey ≠ a.publicKey then .error .hashCollision
  else .ok ()

/-- `AnnounceData::validate_with_known_key`. -/
def validateWithKnownKey (a : AnnounceData) (packetDestHash : Octets 16)
    (knownPublicKey : Option (Octets 64)) : Except AnnounceError Identity := do
  let identity ← a.verifySignature packetDestHash
  a.validateDestinationBinding packetDestHash identity knownPublicKey
  return identity

/-- `AnnounceData::validate`. -/
def validate (a : AnnounceData) (packetDestHash : Octets 16) : Except AnnounceError Identity :=
  a.validateWithKnownKey packetDestHash none

end

/-! ### What parsing returns -/

variable {a : AnnounceData}

/-- The context flag decides about the ratchet, and empty application data is not returned. -/
theorem of_unpack {data : Bytes} {hasRatchet : Bool} (h : unpack data hasRatchet = .ok a) :
    a.ratchet.isSome = hasRatchet ∧ a.appData ≠ some [] := by
  obtain ⟨-, h⟩ := ite_error_eq_ok.mp h
  obtain rfl := Except.ok.inj h
  refine ⟨by cases hasRatchet <;> rfl, fun hnil => ?_⟩
  -- The application data is what is longer than the shortest announce.
  obtain ⟨hlong, hdrop⟩ := ite_none_right_eq_some.mp hnil
  have hlength := congrArg List.length (some.inj hdrop)
  cases hasRatchet <;>
    simp only [Bool.false_eq_true, ↓reduceIte, List.length_drop, List.length_nil, minAnnounceSize,
      ratchetSize] at hlong hlength <;>
    omega

/-! ### What a signature fixes -/

variable {ratchet ratchet' : Option (Octets 32)} {appData appData' : Option Bytes}

/-- Signed bytes fix the destination, the key and the two hashes, and the ratchet and the application
data as one string. -/
theorem signedBytes_inj {destHash destHash' : Octets 16} {publicKey publicKey' : Octets 64}
    {nameHash nameHash' randomHash randomHash' : Octets 10}
    (h : signedBytes destHash publicKey nameHash randomHash ratchet appData =
      signedBytes destHash' publicKey' nameHash' randomHash' ratchet' appData') :
    destHash = destHash' ∧ publicKey = publicKey' ∧ nameHash = nameHash' ∧
      randomHash = randomHash' ∧
      ratchetBytes ratchet ++ appData.getD [] = ratchetBytes ratchet' ++ appData'.getD [] := by
  obtain ⟨hdest, h⟩ := List.append_inj h (by simp)
  obtain ⟨hkey, h⟩ := List.append_inj h (by simp)
  obtain ⟨hname, h⟩ := List.append_inj h (by simp)
  obtain ⟨hrandom, h⟩ := List.append_inj h (by simp)
  exact ⟨Subtype.ext hdest, Subtype.ext hkey, Subtype.ext hname, Subtype.ext hrandom, h⟩

/-- With the ratchet flag, the string fixes both. -/
theorem ratchet_appData_inj
    (h : ratchetBytes ratchet ++ appData.getD [] = ratchetBytes ratchet' ++ appData'.getD [])
    (hflag : ratchet.isSome = ratchet'.isSome) (hdata : appData ≠ some [])
    (hdata' : appData' ≠ some []) : ratchet = ratchet' ∧ appData = appData' := by
  have happData (h : appData.getD [] = appData'.getD []) : appData = appData' := by
    cases appData <;> cases appData' <;> simp_all
  cases ratchet with
  | none =>
    obtain rfl : ratchet' = none := by simpa using hflag.symm
    exact ⟨rfl, happData h⟩
  | some r =>
    obtain ⟨r', rfl⟩ := isSome_iff_exists.mp hflag.symm
    obtain ⟨hr, h⟩ := List.append_inj h (by simp [ratchetBytes])
    exact ⟨congrArg some (Subtype.ext hr), happData h⟩

/-! ### Authenticity -/

section

variable [Sha256] [Ed25519] {destHash : Octets 16} {identity : Identity}

/-- What a validated announce has passed. -/
theorem of_validate (h : a.validate destHash = .ok identity) :
    Ed25519.verify (read 32 (a.publicKey.1.drop 32)) (a.signedData destHash) a.signature =
      true := by
  obtain ⟨identity, hverify, -⟩ := bind_eq_ok.mp h
  unfold verifySignature at hverify
  cases hkey : Identity.fromPublicKey a.publicKey with
  | none =>
    rw [hkey] at hverify
    cases hverify
  | some key =>
    rw [hkey] at hverify
    obtain ⟨hvalid, -⟩ := ite_error_eq_ok.mp hverify
    unfold Identity.fromPublicKey at hkey
    simp only [ite_none_right_eq_some, some.injEq] at hkey
    obtain ⟨-, rfl⟩ := hkey
    exact not_not.mp hvalid

/-- An announce that is signed and bound to its destination is valid, whatever key was known. -/
theorem validate_of_binding {known : Option (Octets 64)}
    (hsigned : a.verifySignature destHash = .ok identity)
    (hbinding : a.validateDestinationBinding destHash identity known = .ok ()) :
    a.validate destHash = .ok identity := by
  have hfresh : a.validateDestinationBinding destHash identity none = .ok () := by
    unfold validateDestinationBinding at hbinding ⊢
    split_ifs at hbinding with hmismatch
    simp [hmismatch]
  unfold validate validateWithKnownKey
  rw [hsigned]
  change (a.validateDestinationBinding destHash identity none >>= fun _ => pure identity) = _
  rw [hfresh]
  rfl

end

/-- A call of `createAt`. -/
structure Creation where
  identity : Identity
  appName : Bytes
  appData : Option Bytes
  ratchetPub : Option (Octets 32)
  wireTime : ℕ
  randomBytes : Octets 5

section

variable [Sha256] [Ed25519]

namespace Creation

/-- What the call returns. -/
def result (c : Creation) : Except AnnounceError AnnounceData :=
  createAt c.identity c.appName c.appData c.ratchetPub c.wireTime c.randomBytes

/-- The destination that is announced. -/
def destHash (c : Creation) : Octets 16 :=
  Destination.hashFromNameAndIdentity c.appName (some c.identity.hash)

theorem of_result {c : Creation} (h : c.result = .ok a) :
    a.publicKey = c.identity.getPublicKey ∧ a.ratchet = c.ratchetPub ∧ a.appData = c.appData ∧
      c.identity.sign (a.signedData c.destHash) = some a.signature := by
  obtain ⟨-, h⟩ := ite_error_eq_ok.mp h
  split at h
  · cases h
  · obtain rfl := Except.ok.inj h
    exact ⟨rfl, rfl, rfl, by assumption⟩

end Creation

/-- The signature of a presented announce is not forged: if it verifies under the key of the announce,
the owner of the key has created an announce with the same signed bytes. Nothing is asked of other
messages, which the owner may have signed as well. -/
def Unforged (creations : Set Creation) (a : AnnounceData) (destHash : Octets 16) : Prop :=
  Ed25519.verify (read 32 (a.publicKey.1.drop 32)) (a.signedData destHash) a.signature = true →
    ∃ c ∈ creations, ∃ created, c.result = .ok created ∧
      c.identity.sigPub = read 32 (a.publicKey.1.drop 32) ∧
      created.signedData c.destHash = a.signedData destHash

/-- An accepted announce has the signed bytes of one that its owner has created. It is that announce
exactly when one with these bytes was created with the ratchet that the context flag tells, and not
with empty application data. -/
theorem announce_authentic_iff {creations : Set Creation} {payload : Bytes} {contextFlag : Bool}
    {destHash : Octets 16} {a : AnnounceData} {identity : Identity}
    (hunpack : unpack payload contextFlag = .ok a) (hvalid : a.validate destHash = .ok identity)
    (hunforged : Unforged creations a destHash) :
    (∃ c ∈ creations, ∃ created, c.result = .ok created ∧
      created.signedData c.destHash = a.signedData destHash) ∧
    ((∃ c ∈ creations, ∃ created, c.result = .ok created ∧ c.destHash = destHash ∧
        created.publicKey = a.publicKey ∧ created.nameHash = a.nameHash ∧
        created.randomHash = a.randomHash ∧ c.ratchetPub = a.ratchet ∧ c.appData = a.appData) ↔
      ∃ c ∈ creations, ∃ created, c.result = .ok created ∧
        created.signedData c.destHash = a.signedData destHash ∧
        c.ratchetPub.isSome = contextFlag ∧ c.appData ≠ some []) := by
  obtain ⟨hratchet, happData⟩ := of_unpack hunpack
  constructor
  · obtain ⟨c, hc, created, hcreated, -, hsigned⟩ := hunforged (of_validate hvalid)
    exact ⟨c, hc, created, hcreated, hsigned⟩
  constructor
  · rintro ⟨c, hc, created, hcreated, hdest, hkey, hname, hrandom, hr, hd⟩
    obtain ⟨-, hr', hd', -⟩ := Creation.of_result hcreated
    refine ⟨c, hc, created, hcreated, ?_, by rw [hr, hratchet], by rwa [hd]⟩
    rw [signedData, signedData, hdest, hkey, hname, hrandom, hr', hd', hr, hd]
  · rintro ⟨c, hc, created, hcreated, hsigned, hflag, hempty⟩
    obtain ⟨-, hr', hd', -⟩ := Creation.of_result hcreated
    obtain ⟨hdest, hkey, hname, hrandom, hrest⟩ := signedBytes_inj hsigned
    obtain ⟨hr, hd⟩ := ratchet_appData_inj hrest (by rw [hr', hflag, hratchet]) (hd' ▸ hempty)
      happData
    exact ⟨c, hc, created, hcreated, hdest, hkey, hname, hrandom, hr' ▸ hr, hd' ▸ hd⟩

end

/-- A key pair, the name `app.test` and a ratchet key. -/
private def samplePub : Octets 32 :=
  .ofNat 0x7b4e909bbe7ffe44c465a220037d608ee35897d31ef972f07f74892cb0f73f13

private def sampleSigPub : Octets 32 :=
  .ofNat 0xa09aa5f47a6759802ff955f8dc2d2a14a5c99d23be97f864127ff9383455a4f0

private def sampleName : Bytes := [97, 112, 112, 46, 116, 101, 115, 116]

private def sampleRatchet : Octets 32 :=
  .ofNat 0x7b0d47d93427f8311160781c7c733fd89f88970aef490d8aa0ee19a4cb8a1b14

/-- SHA-256 of the name, of the public key, and of the name hash with the identity hash. -/
@[reducible] private def sampleSha : Sha256 where
  digest input :=
    if input.length = 8 then
      .ofNat 0xd8831c869830cf84ecc2092736621c41f0e6eefd7c4d137f268a893fa75d68ad
    else if input.length = 64 then
      .ofNat 0x0b586e4a729968b321ffc949fc7088b8c50041639d830e675f29ac1da8ead8b8
    else
      .ofNat 0xab8b2958aea423b76b6db20dc1773ba3494bf9fbff14d0aaf60f741031ee6de2

private def sampleSignature : Octets 64 :=
  .ofNat (2 ^ 256 * 0xc048ade9dac9c175f3e06a8415e297a70475d4d19fa836b40de25ae0d5919932
    + 0x633da2c5ac8c7585bc03f7bb75fbcc6d5b7d5f3d9dc938899f9ca75137a6e20e)

/-- The bytes that the owner signs. -/
private def sampleMessage : Bytes :=
  [171, 139, 41, 88, 174, 164, 35, 183, 107, 109, 178, 13, 193, 119, 59, 163, 123, 78, 144,
    155, 190, 127, 254, 68, 196, 101, 162, 32, 3, 125, 96, 142, 227, 88, 151, 211, 30, 249,
    114, 240, 127, 116, 137, 44, 176, 247, 63, 19, 160, 154, 165, 244, 122, 103, 89, 128,
    47, 249, 85, 248, 220, 45, 42, 20, 165, 201, 157, 35, 190, 151, 248, 100, 18, 127, 249,
    56, 52, 85, 164, 240, 216, 131, 28, 134, 152, 48, 207, 132, 236, 194, 1, 2, 3, 4, 5, 0,
    101, 83, 241, 0, 123, 13, 71, 217, 52, 39, 248, 49, 17, 96, 120, 28, 124, 115, 63, 216,
    159, 136, 151, 10, 239, 73, 13, 138, 160, 238, 25, 164, 203, 138, 27, 20]

/-- The owner has signed nothing else. -/
@[reducible] private def sampleEd25519 : Ed25519 where
  publicKey _ := sampleSigPub
  sign _ _ := sampleSignature
  verify key message signature :=
    key == sampleSigPub && message == sampleMessage && signature == sampleSignature

private def sampleIdentity : Identity :=
  let _ := sampleSha
  { sigPrv := some (replicate 32 0x22)
    pubKey := samplePub
    sigPub := sampleSigPub
    hash := Identity.computeHash samplePub sampleSigPub
    backend := none }

/-- An announce with a ratchet and no application data. -/
private def sampleCreation : Creation where
  identity := sampleIdentity
  appName := sampleName
  appData := none
  ratchetPub := some sampleRatchet
  wireTime := 1700000000
  randomBytes := ⟨[1, 2, 3, 4, 5], rfl⟩

private theorem unforged_sample (a : AnnounceData) :
    letI := sampleSha
    letI := sampleEd25519
    Unforged {sampleCreation} a sampleCreation.destHash := by
  let _ := sampleSha
  let _ := sampleEd25519
  intro h
  simp only [Ed25519.verify, Bool.and_eq_true, beq_iff_eq] at h
  obtain ⟨⟨hkey, hmessage⟩, -⟩ := h
  have heval : sampleCreation.result.toOption.any (fun created =>
      created.signedData sampleCreation.destHash == sampleMessage) = true := by decide +kernel
  obtain ⟨created, hcreated, heval⟩ := (any_eq_true _ _).mp heval
  exact ⟨_, rfl, created, toOption_eq_some.mp hcreated, hkey.symm,
    (beq_iff_eq.mp heval).trans hmessage.symm⟩

/-- The genuine announce is accepted for what it is. -/
theorem announce_authentic_iff_sample :
    letI := sampleSha
    letI := sampleEd25519
    ∃ genuine identity,
      sampleCreation.result = .ok genuine ∧ unpack genuine.pack true = .ok genuine ∧
      genuine.validate sampleCreation.destHash = .ok identity ∧
      Unforged {sampleCreation} genuine sampleCreation.destHash ∧
      ∃ c ∈ ({sampleCreation} : Set Creation), ∃ created, c.result = .ok created ∧
        c.destHash = sampleCreation.destHash ∧ created.publicKey = genuine.publicKey ∧
        created.nameHash = genuine.nameHash ∧ created.randomHash = genuine.randomHash ∧
        c.ratchetPub = genuine.ratchet ∧ c.appData = genuine.appData := by
  let _ := sampleSha
  let _ := sampleEd25519
  have heval : sampleCreation.result.toOption.any (fun genuine =>
      (unpack genuine.pack true).toOption == some genuine &&
      (genuine.validate sampleCreation.destHash).toOption.isSome) = true := by decide +kernel
  obtain ⟨genuine, hgenuine, heval⟩ := (any_eq_true _ _).mp heval
  simp only [Bool.and_eq_true, beq_iff_eq, isSome_iff_exists, toOption_eq_some] at heval
  obtain ⟨hunpack, identity, hvalid⟩ := heval
  rw [toOption_eq_some] at hgenuine
  refine ⟨genuine, identity, hgenuine, hunpack, hvalid, unforged_sample genuine, ?_⟩
  exact (announce_authentic_iff hunpack hvalid (unforged_sample genuine)).2.mpr
    ⟨sampleCreation, rfl, genuine, hgenuine, rfl, rfl, by decide⟩

/-- The same signature is accepted with the ratchet moved behind it, although the owner has created
no announce without a ratchet. -/
theorem moved_ratchet_accepted :
    letI := sampleSha
    letI := sampleEd25519
    ∃ genuine payload moved identity,
      sampleCreation.result = .ok genuine ∧
      payload = genuine.publicKey.1 ++ (genuine.nameHash.1 ++ (genuine.randomHash.1 ++
        (genuine.signature.1 ++ sampleRatchet.1))) ∧
      unpack payload false = .ok moved ∧ moved.validate sampleCreation.destHash = .ok identity ∧
      Unforged {sampleCreation} moved sampleCreation.destHash ∧
      moved.ratchet = none ∧ moved.appData = some sampleRatchet.1 ∧
      ¬ ∃ c ∈ ({sampleCreation} : Set Creation), ∃ created, c.result = .ok created ∧
        c.ratchetPub = moved.ratchet ∧ c.appData = moved.appData := by
  let _ := sampleSha
  let _ := sampleEd25519
  have heval : sampleCreation.result.toOption.any (fun genuine =>
      (unpack (genuine.publicKey.1 ++ (genuine.nameHash.1 ++ (genuine.randomHash.1 ++
        (genuine.signature.1 ++ sampleRatchet.1)))) false).toOption.any fun moved =>
          (moved.validate sampleCreation.destHash).toOption.isSome && moved.ratchet.isNone &&
            moved.appData == some sampleRatchet.1) = true := by decide +kernel
  obtain ⟨genuine, hgenuine, heval⟩ := (any_eq_true _ _).mp heval
  obtain ⟨moved, hmoved, heval⟩ := (any_eq_true _ _).mp heval
  simp only [Bool.and_eq_true, beq_iff_eq, isSome_iff_exists, isNone_iff_eq_none,
    toOption_eq_some] at heval
  obtain ⟨⟨⟨identity, hvalid⟩, hratchet⟩, happData⟩ := heval
  rw [toOption_eq_some] at hgenuine hmoved
  refine ⟨genuine, _, moved, identity, hgenuine, rfl, hmoved, hvalid, unforged_sample moved,
    hratchet, happData, ?_⟩
  rintro ⟨c, rfl, created, -, hcreated, -⟩
  rw [hratchet] at hcreated
  cases hcreated

end AnnounceData

end Reticulum
