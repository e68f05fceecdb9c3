import Reticulum.Foundation.Octets

/-!
# Cryptographic primitives

The `rns-crypto` crate wraps primitives of other crates. Each of those is a class here: its
operations are arbitrary deterministic functions with the lengths that the types of the source
fix, and what a result needs of them beyond that is a hypothesis of that result. The functions
the crate itself defines on top of them (`truncatedHash`, `hkdfSha256`) are translated.
-/

namespace Reticulum

/-- SHA-256. -/
class Sha256 where
  /-- The digest of a byte string. -/
  digest : Bytes → Octets 32

/-- `rns_crypto::sha::full_hash`. -/
def fullHash [Sha256] (data : Bytes) : Octets 32 := Sha256.digest data

/-- `rns_crypto::sha::truncated_hash`: the first 16 bytes of the SHA-256 digest. -/
def truncatedHash [Sha256] (data : Bytes) : Octets 16 := Octets.read 16 (fullHash data).1

/-- Ed25519 over 32-byte seeds and 32-byte public keys. -/
class Ed25519 where
  /-- The public key of a seed. -/
  publicKey : Octets 32 → Octets 32
  /-- The signature of a message under a seed. -/
  sign : Octets 32 → Bytes → Octets 64
  /-- Whether a signature of a message is valid under a public key. -/
  verify : Octets 32 → Bytes → Octets 64 → Bool
  /-- Whether bytes are the encoding of a public key. -/
  validKey : Octets 32 → Bool := fun _ => true

/-- X25519 over 32-byte private and public keys. -/
class X25519 where
  /-- The public key of a private key. -/
  publicKey : Octets 32 → Octets 32
  /-- The shared secret of a private key and a peer's public key. -/
  exchange : Octets 32 → Octets 32 → Octets 32

/-- HKDF-SHA256 extract and expand; the expansion may refuse. -/
class Hkdf where
  /-- Expand `ikm` under `salt` and `info` to `length` bytes. -/
  expand : (salt : Option Bytes) → (ikm info : Bytes) → (length : ℕ) → Option (Octets length)

/-- `rns_crypto::hkdf::HkdfError`. -/
inductive HkdfError
  | outputTooLong (length : ℕ)
  | expansionFailed
  deriving DecidableEq, Repr

/-- `MAX_OUTPUT_LENGTH` of HKDF-SHA256. -/
def hkdfMaxOutputLength : ℕ := 255 * 32

/-- `rns_crypto::hkdf::hkdf_sha256`. -/
def hkdfSha256 [Hkdf] (length : ℕ) (ikm : Bytes) (salt info : Option Bytes) :
    Except HkdfError (Octets length) :=
  if hkdfMaxOutputLength < length then .error (.outputTooLong length)
  else
    match Hkdf.expand salt ikm (info.getD []) length with
    | some okm => .ok okm
    | none => .error .expansionFailed

theorem length_le_of_hkdfSha256 [Hkdf] {length : ℕ} {ikm : Bytes} {salt info : Option Bytes}
    {okm : Octets length} (h : hkdfSha256 length ikm salt info = .ok okm) :
    length ≤ hkdfMaxOutputLength := by
  unfold hkdfSha256 at h
  split at h
  · cases h
  · omega

end Reticulum
