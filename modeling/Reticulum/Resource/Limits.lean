import Reticulum.Crypto.Token
import Reticulum.Resource.Calls
import Reticulum.Resource.Soundness

/-!
# The limits of the two sides agree

The sender bounds the content of a segment; the receiver bounds the size of the transfer, the number
of its parts and the output of the decompressor. Whatever a sender can build, the receiver admits
and assembles.

## Main definitions

* `HookPair` — the hooks of the two ends: none, or encryption into tokens and its inverse.
* `linkEncryptFn`, `linkDecryptFn` — the hooks of the two ends of a link.

## Main results

* `limits_agree`.
-/

namespace Reticulum.Resource

open OutboundResource InboundResource

/-! ### The parameters -/

/-- The encryption hook of a sender with the decryption hook of its receiver: both are missing, or
ciphertexts have the size of tokens and decrypt to what was encrypted. -/
inductive HookPair : Option (ℕ → Bytes → Bytes) →
    Option (Bytes → Except ResourceError Bytes) → Prop
  | plain : HookPair none none
  | cipher {enc : ℕ → Bytes → Bytes} {dec : Bytes → Except ResourceError Bytes}
      (hlen : ∀ k data, (enc k data).length = (data.length / 16 + 1) * 16 + 48)
      (hinverse : ∀ k data, dec (enc k data) = .ok data) : HookPair (some enc) (some dec)

/-- The encryption hook of a link: tokens under the session key; the `k`-th use of the hook takes
`iv k` as its initialisation vector. -/
def linkEncryptFn [AesCbc] [Hmac] (key : Bytes) (iv : ℕ → Octets 16) (k : ℕ) (data : Bytes) : Bytes :=
  match tokenEncrypt (iv k) data key with
  | .ok token => token
  | .error _ => data

/-- The decryption hook of a link. -/
def linkDecryptFn [AesCbc] [Hmac] (key data : Bytes) : Except ResourceError Bytes :=
  (tokenDecrypt data key).mapError fun _ => .decryptFailed

/-- Under a session key, the hooks of a link fit together. -/
theorem HookPair.link [AesCbc] [Hmac] (haes : AesCbc.Inverts) {key : Bytes}
    (hkey : key.length = 64 ∨ key.length = 32) (iv : ℕ → Octets 16) :
    HookPair (some (linkEncryptFn key iv)) (some (linkDecryptFn key)) := by
  refine .cipher (fun k data => ?_) fun k data => ?_
  all_goals
    obtain ⟨token, htoken⟩ := exists_tokenEncrypt (iv k) data hkey
    simp only [linkEncryptFn, htoken]
  · exact length_tokenEncrypt htoken
  · rw [linkDecryptFn, tokenDecrypt_tokenEncrypt haes htoken]
    rfl

/-! ### Sizes -/

theorem divCeil_le_iff {a b n : ℕ} (hb : 0 < b) : divCeil a b ≤ n ↔ a ≤ b * n := by
  rw [divCeil_eq hb, Nat.div_le_iff_le_mul_add_pred hb]
  omega

/-- Larger parts are fewer. -/
theorem divCeil_anti {a b b' : ℕ} (hb : 0 < b) (h : b ≤ b') : divCeil a b' ≤ divCeil a b := by
  rw [divCeil_le_iff (hb.trans_le h)]
  exact ((divCeil_le_iff hb).mp le_rfl).trans (Nat.mul_le_mul_right _ h)

theorem divCeil_pos {a b : ℕ} (ha : 0 < a) (hb : 0 < b) : 0 < divCeil a b := by
  rw [divCeil_eq hb]
  exact Nat.div_pos (by omega) hb

namespace OutboundResource

variable {data : Bytes} {metadata : Option Bytes} {linkSdu : Option ℕ} {encrypted : Bool}

/-- The content of a segment is bounded. -/
theorem length_fullData_le_of_check (h : check data metadata linkSdu encrypted = .ok ()) :
    (fullData data metadata).length ≤ maxEfficientSize := by
  simp only [check, ite_error_eq_ok, bind_eq_ok] at h
  obtain ⟨-, _, -, -, hle, -⟩ := h
  rw [length_fullData]
  exact Nat.le_of_not_lt hle

variable [Bzip2]

/-- The receiver undoes the compression within its limit. -/
theorem unprocess_process (hbz : Bzip2.Lossless) (autoCompress : Bool) {full : Bytes}
    (hfull : full.length ≤ maxEfficientSize) :
    unprocess (process autoCompress full).2 (process autoCompress full).1 = .ok full := by
  unfold process
  split_ifs
  · unfold tryCompress
    split_ifs
    · rfl
    · cases hcompress : Bzip2.compress full with
      | none => simp [bz2Compress, hcompress, unprocess]
      | some compressed =>
        simp only [bz2Compress, hcompress]
        split_ifs
        · simp [unprocess, bz2Decompress, hbz full compressed hcompress, Nat.not_lt.mpr hfull]
        · rfl
  · rfl

end OutboundResource

namespace InboundResource

variable [Sha256] [Bzip2] {r : InboundResource}

/-- The calls keep what the advertisement has fixed. -/
theorem after_offer (r : InboundResource) (calls : List ResourceCall) :
    (r.after calls).flags = r.flags ∧ (r.after calls).randomHash = r.randomHash ∧
      (r.after calls).resourceHash = r.resourceHash := by
  induction calls generalizing r with
  | nil => exact ⟨rfl, rfl, rfl⟩
  | cons c calls ih =>
    obtain ⟨hflags, hrandom, hhash⟩ := ih (r.call c).1
    have hcall : (r.call c).1.flags = r.flags ∧ (r.call c).1.randomHash = r.randomHash ∧
        (r.call c).1.resourceHash = r.resourceHash := by
      cases c with
      | receivePart data =>
        rcases receivePart_cases r data with ⟨i, -, heq⟩ | heq
        · rw [call, heq]
          exact ⟨rfl, rfl, rfl⟩
        · rw [call, heq]
          exact ⟨rfl, rfl, rfl⟩
      | handleCancel => exact ⟨rfl, rfl, rfl⟩
      | assemble decryptFn =>
        obtain ⟨state, metadata, heq, -⟩ := InboundTransfer.assemble_fst r decryptFn
        rw [call, heq]
        exact ⟨rfl, rfl, rfl⟩
      | adjust window mapHashes => exact ⟨rfl, rfl, rfl⟩
    exact ⟨hflags.trans hcall.1, hrandom.trans hcall.2.1, hhash.trans hcall.2.2⟩

omit [Sha256] [Bzip2] in
/-- Framed content splits into the payload, whatever metadata the resource had before. -/
theorem payload_of_fullData {data : Bytes} {metadata : Option Bytes}
    (hflag : r.flags.hasMetadata = metadata.isSome)
    (hlen : ∀ m ∈ metadata, m.length ≤ metadataMaxSize) :
    (r.splitMetadata (fullData data metadata)).2 = .ok data := by
  have hsame : (r.splitMetadata (fullData data metadata)).2 =
      ({ r with metadata := none }.splitMetadata (fullData data metadata)).2 := by
    unfold splitMetadata
    split
    · split
      · dsimp only
        split <;> rfl
      · rfl
    · rfl
  rw [hsame]
  exact congrArg Prod.snd
    (splitMetadata_fullData (r := { r with metadata := none }) hflag (fun _ => rfl) hlen)

end InboundResource

/-! ### The two sides -/

section

variable [Sha256] [Bzip2] {rng : ℕ → Octets 4} {encryptFn : Option (ℕ → Bytes → Bytes)}
  {decryptFn : Option (Bytes → Except ResourceError Bytes)} {data : Bytes} {autoCompress : Bool}
  {metadata : Option Bytes} {linkSdu : Option ℕ} {r : OutboundResource}

/-- The parts of a resource are cut from bytes that decrypt to the tag and the processed content. -/
theorem HookPair.build (hhooks : HookPair encryptFn decryptFn) (randomHash : Octets 4) (k : ℕ)
    (hr : r = .build randomHash (encryptFn.map (· k)) data autoCompress metadata linkSdu) :
    let plain := randomHash.1 ++
      (process autoCompress (fullData data metadata)).1
    ∃ blob, r.parts = chunks r.sdu blob ∧ r.totalSize = blob.length ∧
      (decryptFn.getD .ok) blob = .ok plain ∧ plain.length ≤ blob.length ∧
      blob.length ≤ plain.length + 64 := by
  intro plain
  subst hr
  cases hhooks with
  | plain => exact ⟨plain, rfl, rfl, rfl, le_rfl, Nat.le_add_right _ _⟩
  | @cipher enc dec hlen hinverse =>
    have hsize := hlen k plain
    exact ⟨enc k plain, rfl, rfl, hinverse k plain, by omega, by omega⟩

/-- **The limits of the two sides.** Let a sender have built a resource, with parts of at least 32
bytes. Then the receiver with the same part size accepts the advertised sizes, and whenever it has
the parts of the sender, whatever happened before, it assembles the payload. -/
theorem limits_agree (hbz : Bzip2.Lossless) (hhooks : HookPair encryptFn decryptFn)
    (hresource : withOptions rng encryptFn data autoCompress metadata linkSdu =
      .ok r) (hsdu : 32 ≤ r.sdu) (mapHashes : List (Octets 4)) :
    ∃ inbound, withSdu r.numParts r.totalSize r.advertisementDataSize r.randomHash
        r.resourceHash r.flags mapHashes (some r.sdu) = .ok inbound ∧
      ∀ calls, (inbound.after calls).parts = r.parts.map some →
        ((inbound.after calls).assemble decryptFn).2 = .ok data := by
  obtain ⟨hcheck, k, hr⟩ := withOptions_ok hresource
  have hfull := length_fullData_le_of_check hcheck
  have hshrink := length_process_le autoCompress
    (fullData data metadata)
  obtain ⟨blob, hparts, htotal, hdecrypt, hlarge, hsmall⟩ := hhooks.build (rng k) k hr
  rw [List.length_append, Octets.length_val] at hlarge hsmall
  have hnum : r.numParts = divCeil blob.length r.sdu := by
    rw [numParts, hparts, length_chunks (by omega), divCeil_eq (by omega)]
  -- The sizes are within the bounds of the receiver.
  have hmax : maxTotalSize = maxEfficientSize + 68 := rfl
  have hbounds : 0 < r.numParts ∧ r.totalSize ≤ maxTotalSize ∧
      r.numParts ≤ maxParts r.totalSize := by
    refine ⟨?_, ?_, ?_⟩
    · rw [hnum]
      exact divCeil_pos (by omega) (by omega)
    · rw [htotal, hmax]
      omega
    · rw [hnum, htotal, maxParts]
      exact (divCeil_anti (by decide) hsdu).trans (Nat.le_add_right _ _)
  obtain ⟨inbound, hinbound⟩ : ∃ inbound, withSdu r.numParts r.totalSize
      r.advertisementDataSize r.randomHash r.resourceHash r.flags mapHashes (some r.sdu) =
        .ok inbound := ⟨_, withSdu_eq_ok_iff.mpr ⟨hbounds, rfl⟩⟩
  refine ⟨inbound, hinbound, fun calls hreceived => ?_⟩
  -- All parts have arrived, and they decrypt to the tag and the processed content.
  have hpresent : ((inbound.after calls).Full) := by
    refine ((Settled.of_withSdu hinbound).after calls).full ?_
    simp [hreceived]
  have hstream : (inbound.after calls).decrypted decryptFn = .ok ((rng k).1 ++
      (process autoCompress (fullData data metadata)).1) := by
    rw [decrypted, hreceived, List.filterMap_map, Function.id_comp,
      List.filterMap_some, hparts, flatten_chunks (by omega), hdecrypt]
  obtain ⟨hflags, hrandom, hhash⟩ : (inbound.after calls).flags = r.flags ∧
      (inbound.after calls).randomHash = r.randomHash ∧
      (inbound.after calls).resourceHash = r.resourceHash := by
    obtain ⟨-, heq⟩ := withSdu_eq_ok_iff.mp hinbound
    obtain ⟨hflags, hrandom, hhash⟩ := inbound.after_offer calls
    exact ⟨hflags.trans (by rw [heq]), hrandom.trans (by rw [heq]), hhash.trans (by rw [heq])⟩
  have hcompressed : r.flags.compressed =
      (process autoCompress (fullData data metadata)).2 := by
    rw [hr]
    rfl
  have hmetadata : r.flags.hasMetadata = metadata.isSome := by
    rw [hr]
    rfl
  have hdigest : computeResourceHash (fullData data metadata) r.randomHash.1 = r.resourceHash := by
    rw [hr]
    rfl
  rw [assemble_of_full hpresent hstream, hflags, hrandom, hhash,
    if_neg (by simp), Octets.drop_append]
  simp only [hcompressed, unprocess_process hbz autoCompress hfull, hdigest, ne_eq,
    not_true_eq_false, if_false]
  exact payload_of_fullData hmetadata (metadata_le_of_check hcheck)

end

/-! ### A transfer over a link

Forty bytes `42` under the session key `09…09`, in three parts. -/

/-- SHA-256 on the data with the tag, on the data with that digest, and on the parts with the tag. -/
@[reducible] private def partsSha : Sha256 where
  digest input :=
    if input.length = 44 then
      .ofNat 0x4829ba67e376b24a39d6e61ad5f290f89ce4c4f437c3ace85cdc263b1c9b6a7a
    else if input.length = 72 then
      .ofNat 0xb53aa309526bb9d81865596ab298180301c04ff4580a686a8494b8d7de650dae
    else if input.head? = some 1 then
      .ofNat 0x6a73b9ed7802ad558454bd82517161ba6fd4bf232d477eeae8a980365506f60d
    else if input.head? = some 206 then
      .ofNat 0x413466366e81c7057219ac126b41e736e6009c94f08d7b3fcc7939e78997cace
    else
      .ofNat 0x02422ea1722e8c5c391c59ab269451c0db8194f8da70ceaedf50210e0dfa50f6

/-- AES-256 on the tag and the data, padded. -/
@[reducible] private def partsAesCbc : AesCbc :=
  .swapping ([1, 2, 3, 4] ++ List.replicate 40 0x42 ++ List.replicate 4 4)
    [155, 64, 104, 208, 223, 186, 60, 127, 233, 232, 53, 78, 107, 187, 151, 73, 206, 157, 137, 98, 70,
    234, 61, 13, 3, 8, 103, 160, 237, 22, 214, 116, 173, 242, 103, 100, 176, 13, 20, 11, 109, 253, 34,
    228, 83, 229, 219, 179] rfl

@[reducible] private def partsHmac : Hmac where
  mac _ _ := .ofNat 0x38460f590435f6fdcee75f12b843d5796be1a385506fc0e637b3cc2ede3e1e18

/-- The three parts arrive, the last one first. -/
theorem limits_agree_parts :
    letI := partsSha
    letI := sampleBzip2
    letI := partsAesCbc
    letI := partsHmac
    let key := List.replicate 64 9
    ∃ r inbound, withOptions (fun _ => sampleTag)
        (some (linkEncryptFn key fun _ => Octets.replicate 16 1)) (List.replicate 40 0x42) false none
        (some 32) = .ok r ∧ r.numParts = 3 ∧
      withSdu r.numParts r.totalSize r.advertisementDataSize r.randomHash
        r.resourceHash r.flags r.mapHashes (some r.sdu) = .ok inbound ∧
      ((inbound.after (r.parts.reverse.map .receivePart)).assemble
        (some (linkDecryptFn key))).2 = .ok (List.replicate 40 0x42) := by
  let _ := partsSha
  let _ := sampleBzip2
  let _ := partsAesCbc
  let _ := partsHmac
  have hresource : withOptions (fun _ => sampleTag)
      (some (linkEncryptFn (List.replicate 64 9) fun _ => Octets.replicate 16 1))
      (List.replicate 40 0x42) false none (some 32) =
      .ok (.build sampleTag (some (linkEncryptFn (List.replicate 64 9)
        (fun _ => Octets.replicate 16 1) 0)) (List.replicate 40 0x42) false none (some 32)) := by
    decide +kernel
  obtain ⟨inbound, hinbound, hassemble⟩ := limits_agree (by rintro _ _ ⟨⟩)
    (HookPair.link (AesCbc.inverts_swapping _ _ _) (.inl (by decide)) _) hresource (by decide) _
  refine ⟨_, inbound, hresource, by decide +kernel, hinbound, hassemble _ ?_⟩
  obtain ⟨-, rfl⟩ := withSdu_eq_ok_iff.mp hinbound
  decide +kernel

end Reticulum.Resource
