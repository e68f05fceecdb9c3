import Reticulum.Crypto.Primitives
import Reticulum.Wire.LinkSignalling

/-!
# Resources: states, flags, errors, hashes and compression

The vocabulary shared by the sending and the receiving side of a resource transfer, from
`resource.rs` and `compression.rs` of `rns-protocol`. The bzip2 coder is another crate's.
-/

namespace Reticulum.Resource

/-! ### Constants -/

/-- `WINDOW_INITIAL`. -/
def windowInitial : ℕ := 4

/-- `WINDOW_MIN`. -/
def windowMin : ℕ := 2

/-- `WINDOW_MAX_SLOW`. -/
def windowMaxSlow : ℕ := 10

/-- `WINDOW_MAX_VERY_SLOW`. -/
def windowMaxVerySlow : ℕ := 4

/-- `WINDOW_MAX_FAST`. -/
def windowMaxFast : ℕ := 75

/-- `WINDOW_MAX`. -/
def windowMax : ℕ := 75

/-- `FAST_RATE_THRESHOLD`. -/
def fastRateThreshold : ℕ := 4

/-- `VERY_SLOW_RATE_THRESHOLD`. -/
def verySlowRateThreshold : ℕ := 2

/-- `RATE_FAST`, in bytes per second. -/
def rateFast : ℕ := 6250

/-- `RATE_VERY_SLOW`, in bytes per second. -/
def rateVerySlow : ℕ := 250

/-- `WINDOW_FLEXIBILITY`. -/
def windowFlexibility : ℕ := 4

/-- `SDU`, the `MDU` of the wire format. -/
def sdu : ℕ := Wire.mtu - Wire.headerMaxsize - 1

/-- `MAX_EFFICIENT_SIZE`. -/
def maxEfficientSize : ℕ := 1048575

/-- `METADATA_MAX_SIZE`. -/
def metadataMaxSize : ℕ := 16777215

/-- `MAX_RESOURCE_SIZE`. -/
def maxResourceSize : ℕ := 134217727

/-- `MAX_SEGMENTS`. -/
def maxSegments : ℕ := 128

/-- `MAX_RETRIES`. -/
def maxRetries : ℕ := 16

/-- `MAX_ADV_RETRIES`. -/
def maxAdvRetries : ℕ := 4

/-- `HASHMAP_IS_NOT_EXHAUSTED`. -/
def hashmapIsNotExhausted : UInt8 := 0x00

/-- `HASHMAP_IS_EXHAUSTED`. -/
def hashmapIsExhausted : UInt8 := 0xff

/-- `usize::div_ceil`. -/
def divCeil (a b : ℕ) : ℕ := if a % b = 0 then a / b else a / b + 1

theorem divCeil_eq {b : ℕ} (hb : 0 < b) (a : ℕ) : divCeil a b = (a + b - 1) / b := by
  have ha := Nat.div_add_mod a b
  have hlt := Nat.mod_lt a hb
  unfold divCeil
  split_ifs with h
  · refine (Nat.div_eq_of_lt_le ?_ ?_).symm <;> rw [Nat.mul_comm] <;> grind
  · refine (Nat.div_eq_of_lt_le ?_ ?_).symm <;> rw [Nat.mul_comm] <;> grind

theorem divCeil_mono {a a' : ℕ} (h : a ≤ a') (b : ℕ) : divCeil a b ≤ divCeil a' b := by
  have hdiv := Nat.div_le_div_right (c := b) h
  unfold divCeil
  split_ifs with h1 h2 h2
  · exact hdiv
  · omega
  · -- Equal quotients with a remainder on the left only would put `a` above `a'`.
    have ha := Nat.div_add_mod a b
    have ha' := Nat.div_add_mod a' b
    rcases hdiv.lt_or_eq with hlt | heq
    · exact hlt
    · rw [heq] at ha
      omega
  · omega

/-! ### States and flags -/

/-- `ResourceState`. -/
inductive ResourceState
  | none
  | queued
  | advertised
  | transferring
  | awaitingProof
  | assembling
  | complete
  | failed
  | corrupt
  | rejected
  deriving DecidableEq, Repr

/-- The states in which a transfer has ended. -/
def ResourceState.isTerminal : ResourceState → Bool
  | complete | failed | rejected | corrupt => true
  | none | queued | advertised | transferring | awaitingProof | assembling => false

/-- `ResourceFlags`. -/
structure ResourceFlags where
  encrypted : Bool := false
  compressed : Bool := false
  split : Bool := false
  isRequest : Bool := false
  isResponse : Bool := false
  hasMetadata : Bool := false
  deriving DecidableEq, Repr

namespace ResourceFlags

/-- `ResourceFlags::to_byte`. -/
def toByte (f : ResourceFlags) : UInt8 :=
  (if f.encrypted then 0x01 else 0) ||| (if f.compressed then 0x02 else 0) |||
    (if f.split then 0x04 else 0) ||| (if f.isRequest then 0x08 else 0) |||
    (if f.isResponse then 0x10 else 0) ||| (if f.hasMetadata then 0x20 else 0)

/-- `ResourceFlags::from_byte`. -/
def fromByte (b : UInt8) : ResourceFlags where
  encrypted := b &&& 0x01 != 0
  compressed := b &&& 0x02 != 0
  split := b &&& 0x04 != 0
  isRequest := b &&& 0x08 != 0
  isResponse := b &&& 0x10 != 0
  hasMetadata := b &&& 0x20 != 0

@[simp] theorem fromByte_toByte (f : ResourceFlags) : fromByte f.toByte = f := by
  obtain ⟨a, b, c, d, e, g⟩ := f
  revert a b c d e g
  decide

/-- The flags byte leaves the two upper bits clear. -/
theorem toByte_lt (f : ResourceFlags) : f.toByte.toNat < 64 := by
  obtain ⟨a, b, c, d, e, g⟩ := f
  revert a b c d e g
  decide

end ResourceFlags

/-! ### Errors -/

/-- The name of a packet context as `Debug` prints it. -/
def contextName : Wire.PacketContext → String
  | .none => "None"
  | .resource => "Resource"
  | .resourceAdv => "ResourceAdv"
  | .resourceReq => "ResourceReq"
  | .resourceHmu => "ResourceHmu"
  | .resourcePrf => "ResourcePrf"
  | .resourceIcl => "ResourceIcl"
  | .resourceRcl => "ResourceRcl"
  | .cacheRequest => "CacheRequest"
  | .request => "Request"
  | .response => "Response"
  | .pathResponse => "PathResponse"
  | .command => "Command"
  | .commandStatus => "CommandStatus"
  | .channel => "Channel"
  | .keepalive => "Keepalive"
  | .linkIdentify => "LinkIdentify"
  | .linkClose => "LinkClose"
  | .linkProof => "LinkProof"
  | .lrrtt => "Lrrtt"
  | .lrproof => "Lrproof"
  | .unknown byte => "Unknown(" ++ toString byte.toNat ++ ")"

/-- `ResourceError`. -/
inductive ResourceError
  | tooLarge
  | incomplete
  | corrupt
  | decryptFailed
  | hashMismatch
  | decompressionFailed
  | invalidMetadata (declared available : ℕ)
  | controlFrameTooLarge (context : Wire.PacketContext) (encodedLen mtu : ℕ)
  | invalidAdvertisement
  | mapHashCollision
  | metadataTooLarge
  | duplicateSegment
  deriving DecidableEq, Repr

/-- `ResourceError::to_string`. -/
def ResourceError.message : ResourceError → String
  | tooLarge => "resource too large"
  | incomplete => "resource transfer incomplete"
  | corrupt => "resource data corrupt"
  | decryptFailed => "resource decrypt failed"
  | hashMismatch => "resource hash mismatch"
  | decompressionFailed => "decompression failed"
  | invalidMetadata declared available => "invalid metadata prefix: declared " ++
      toString declared ++ " bytes, available " ++ toString available ++ " bytes"
  | controlFrameTooLarge context encodedLen mtu => "resource control " ++ contextName context ++
      " requires " ++ toString encodedLen ++ " packet bytes, MTU is " ++ toString mtu
  | invalidAdvertisement => "invalid advertisement"
  | mapHashCollision => "map hash collision persists after retries"
  | metadataTooLarge => "metadata exceeds maximum size"
  | duplicateSegment => "segment already received"

/-! ### Hashes -/

section Hashes

variable [Sha256]

/-- `get_map_hash`. -/
def getMapHash (data randomHash : Bytes) : Octets 4 :=
  Octets.read 4 (fullHash (data ++ randomHash)).1

/-- `compute_resource_hash`. -/
def computeResourceHash (data randomHash : Bytes) : Octets 32 := fullHash (data ++ randomHash)

/-- `compute_expected_proof`. -/
def computeExpectedProof (data : Bytes) (resourceHash : Octets 32) : Octets 32 :=
  fullHash (data ++ resourceHash.1)

end Hashes

/-! ### Compression -/

/-- The bzip2 coder. `decoder` gives all bytes that decoding yields, and whether it ends without
an error. -/
class Bzip2 where
  compress : Bytes → Option Bytes
  decoder : Bytes → Bytes × Bool

/-- What the bzip2 coder has compressed, it decodes to the same bytes without an error. -/
def Bzip2.Lossless [Bzip2] : Prop :=
  ∀ data compressed, Bzip2.compress data = some compressed → Bzip2.decoder compressed = (data, true)

/-- The output of the compressor is never empty: it starts with a header. -/
def Bzip2.HasHeader [Bzip2] : Prop :=
  ∀ data compressed, Bzip2.compress data = some compressed → compressed ≠ []

/-- `CompressionError`. -/
inductive CompressionError
  | compressFailed
  | decompressFailed
  | decompressedTooLarge
  deriving DecidableEq, Repr

/-- `AUTO_COMPRESS_MAX_SIZE`. -/
def autoCompressMaxSize : ℕ := 67108864

section Compression

variable [Bzip2]

/-- `bz2_compress`. -/
def bz2Compress (data : Bytes) : Except CompressionError Bytes :=
  match Bzip2.compress data with
  | some out => .ok out
  | none => .error .compressFailed

/-- `bz2_decompress`. Decoding stops at the read that exceeds `maxSize`, so an error of the decoder
counts only when the output before it fits. -/
def bz2Decompress (data : Bytes) (maxSize : ℕ) : Except CompressionError Bytes :=
  let (output, ended) := Bzip2.decoder data
  if maxSize < output.length then .error .decompressedTooLarge
  else if ended then .ok output
  else .error .decompressFailed

/-- `try_compress`. -/
def tryCompress (data : Bytes) : Bytes × Bool :=
  if autoCompressMaxSize < data.length then (data, false)
  else
    match bz2Compress data with
    | .ok compressed => if compressed.length < data.length then (compressed, true) else (data, false)
    | .error _ => (data, false)

theorem length_tryCompress_le (data : Bytes) : (tryCompress data).1.length ≤ data.length := by
  unfold tryCompress
  split_ifs
  · exact le_rfl
  · cases bz2Compress data with
    | error e => exact le_rfl
    | ok compressed =>
      simp only
      split_ifs with h
      · exact h.le
      · exact le_rfl

end Compression

end Reticulum.Resource
