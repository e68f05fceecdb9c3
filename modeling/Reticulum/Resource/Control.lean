import Reticulum.Crypto.Token
import Reticulum.Resource.Advertisement

/-!
# Resource control messages

Hash map updates and the check, made before anything is allocated, that all control messages of an
outgoing resource will fit their frames (`resource_control.rs`).

## Main definitions

* `encodeHashmapUpdate`, `parseHashmapUpdate`.
* `preflightOutbound`, `preflightOutboundWithSdu`.

## Main results

* `parseHashmapUpdate_encodeHashmapUpdate` — what is encoded is parsed.
* `token_exact` — what an encrypted body is, and how long.
* `control_messages_round_trip` — which advertisements and hash map updates survive coding.
-/

namespace Reticulum.Resource

open MessagePack ResourceAdvertisement Octets List Wire

/-! ### Encrypted bodies -/

/-- Under a key of either length everything can be encrypted, to a token of the length that the
frame check counts, and is decrypted again; and a byte string decrypts exactly when it is the token
of the returned plaintext under the initialisation vector that it starts with. -/
theorem token_exact [AesCbc] [Hmac] (haes : AesCbc.Inverts) (key : Bytes)
    (hkey : key.length = 32 ∨ key.length = 64) :
    (∀ (iv : Octets 16) (plaintext : Bytes), ∃ token,
      tokenEncrypt iv plaintext key = .ok token ∧ tokenDecrypt token key = .ok plaintext ∧
        (token.length ≤ usizeMax → encryptedLen plaintext.length = .ok token.length)) ∧
    ∀ token plaintext : Bytes, tokenDecrypt token key = .ok plaintext ↔
      tokenEncrypt (read 16 token) plaintext key = .ok token := by
  refine ⟨fun iv plaintext => ?_, fun token plaintext => tokenDecrypt_eq_ok_iff haes⟩
  obtain ⟨token, htoken⟩ := exists_tokenEncrypt iv plaintext hkey.symm
  refine ⟨token, htoken, tokenDecrypt_tokenEncrypt haes htoken, fun hlen => ?_⟩
  rw [length_tokenEncrypt htoken] at hlen ⊢
  rw [encryptedLen, if_neg (Nat.not_lt.mpr hlen)]

/-- AES-128 on the padded bytes `05 06` under the key `09…09`. -/
@[reducible] private def blockAesCbc : AesCbc := .swapping ([5, 6] ++ List.replicate 14 14)
  [18, 6, 240, 130, 68, 193, 100, 77, 73, 3, 243, 10, 220, 2, 126, 173] rfl

@[reducible] private def blockHmac : Hmac where
  mac _ _ := .ofNat 0x7c1e6b2118e58ad4f74413fe9471562e64ed50924eb3302eee6d3a66517bf487

theorem token_exact_block :
    letI := blockAesCbc
    letI := blockHmac
    ∃ token, tokenEncrypt (replicate 16 1) [5, 6] (List.replicate 32 9) = .ok token ∧
      tokenDecrypt token (List.replicate 32 9) = .ok [5, 6] ∧
      (token.drop 16).take 4 = [18, 6, 240, 130] := by
  let _ := blockAesCbc
  let _ := blockHmac
  have haes : AesCbc.Inverts := AesCbc.inverts_swapping _ _ _
  obtain ⟨token, henc, hdec, -⟩ := (token_exact haes (List.replicate 32 9)
    (.inl (by decide))).1 (replicate 16 1) [5, 6]
  have hblock : (tokenEncrypt (replicate 16 1) [5, 6] (List.replicate 32 9)).toOption.map
      (fun token => (token.drop 16).take 4) = some [18, 6, 240, 130] := by decide +kernel
  rw [henc] at hblock
  exact ⟨token, henc, hdec, Option.some.inj hblock⟩

/-! ### Hash map updates -/

/-- `HASHMAP_STRIDE`. -/
def hashmapStride : ℕ := 74

/-- `encode_hashmap_update`. -/
def encodeHashmapUpdate (resourceHash : Octets 32) (segment : ℕ) (hashes : Bytes) : Bytes :=
  resourceHash.1 ++ writeArrayLen 2 ++ writeUint segment ++ writeBin hashes

/-- `parse_hashmap_update`. -/
def parseHashmapUpdate (data : Bytes) : Except ResourceError (Octets 32 × ℕ × Bytes) :=
  if data.length < 32 then .error .corrupt
  else
    match readValue maxDepth (data.drop 32) with
    | some (.array [segment, hashmap], _) =>
      match segment.asU64, hashmap.asSlice with
      | some segment, some hashmap => .ok (read 32 data, segment, hashmap)
      | _, _ => .error .corrupt
    | _ => .error .corrupt

@[simp] theorem parseHashmapUpdate_encodeHashmapUpdate (resourceHash : Octets 32) {segment : ℕ}
    {hashes : Bytes} (hsegment : segment < 2 ^ 64) (hhashes : hashes.length < 2 ^ 32) :
    parseHashmapUpdate (encodeHashmapUpdate resourceHash segment hashes) =
      .ok (resourceHash, segment, hashes) := by
  have hfits : ∀ f ∈ [Field.uint segment, Field.bin hashes], f.Fits := by
    rintro f hf
    rcases mem_pair.mp hf with rfl | rfl
    · exact hsegment
    · exact hhashes
  have hread := readValue_array 1023 [] (by simp) fun f hf rest =>
    Field.readValue_write (hfits f hf) 1022 rest
  have hlen : ¬ (encodeHashmapUpdate resourceHash segment hashes).length < 32 := by
    simp only [encodeHashmapUpdate, length_append, length_val]
    omega
  have hdrop : (encodeHashmapUpdate resourceHash segment hashes).drop 32 =
      writeArrayLen 2 ++ writeUint segment ++ writeBin hashes := by
    simp [encodeHashmapUpdate]
  have hhash : read 32 (encodeHashmapUpdate resourceHash segment hashes) = resourceHash := by
    simp [encodeHashmapUpdate]
  simp only [length_cons, length_nil, flatMap_cons, flatMap_nil, Field.write,
    append_nil, map_cons, map_nil, Field.value] at hread
  rw [parseHashmapUpdate, if_neg hlen, hdrop, hhash, append_assoc,
    show maxDepth = 1023 + 1 from rfl, hread]
  simp [Value.asSlice]

/-- An advertisement is unpacked from its packed form, up to the size of its metadata, exactly when
it passes the check of its frame and its random tag has four bytes or more. A hash map update is
parsed as it was encoded while its length fits the four length bytes of MessagePack. -/
theorem control_messages_round_trip (a : ResourceAdvertisement) (ha : a.Sized)
    (resourceHash : Octets 32) (segment : ℕ) (hashes : Bytes) (hsegment : segment ≤ usizeMax)
    (hhashes : hashes.length < 2 ^ 32) :
    (unpack a.pack = .ok { a with metadataSize := 0 } ↔
      checkControlFrame .resourceAdv a.pack.length true headerMinsize mtu = .ok () ∧
        4 ≤ a.randomHash.length) ∧
    parseHashmapUpdate (encodeHashmapUpdate resourceHash segment hashes) =
      .ok (resourceHash, segment, hashes) := by
  have hu : usizeMax = 2 ^ 64 - 1 := rfl
  refine ⟨⟨of_unpack_eq_ok, ?_⟩,
    parseHashmapUpdate_encodeHashmapUpdate resourceHash (by omega) hhashes⟩
  rintro ⟨hframe, htag⟩
  exact unpack_pack (wellFormed_of_frame ha hframe htag)
    hframe

/-- The advertisement of a one-part resource with a given random tag. -/
def tagged (randomHash : Bytes) : ResourceAdvertisement :=
  .new 16 16 1 (replicate 32 1) randomHash (.fromByte 1) [replicate 4 2] 431

theorem control_messages_round_trip_tagged :
    unpack (tagged [1, 2, 3, 4]).pack = .ok (tagged [1, 2, 3, 4]) ∧
      parseHashmapUpdate (encodeHashmapUpdate (replicate 32 1) 300 [5, 6, 7, 8]) =
        .ok (replicate 32 1, 300, [5, 6, 7, 8]) := by
  have hsized : (tagged [1, 2, 3, 4]).Sized :=
    ⟨by decide, by decide, by decide, by decide, by decide⟩
  have h := control_messages_round_trip _ hsized (replicate 32 1) 300 [5, 6, 7, 8]
    (by decide) (by decide)
  exact ⟨h.1.mpr (by decide +kernel), h.2⟩

/-- With a shorter tag the advertisement passes the check of its frame and is not unpacked. -/
theorem short_tag_not_unpacked :
    checkControlFrame .resourceAdv (tagged [1, 2, 3]).pack.length true headerMinsize mtu = .ok () ∧
      unpack (tagged [1, 2, 3]).pack = .error (.short 'r' 4 3) := by
  decide +kernel

/-! ### Preflight -/

/-- The size of framed metadata, when it can be counted. -/
def metadataWire (metadataLen : Option ℕ) : Except ResourceError ℕ :=
  match metadataLen with
  | none => .ok 0
  | some n => if usizeMax < n + 3 then .error .metadataTooLarge else .ok (n + 3)

/-- The number of segments of `dataLen` bytes behind `metadataWire` bytes of metadata. -/
def segmentCount (dataLen metadataWire : ℕ) : ℕ :=
  1 + divCeil (dataLen - min dataLen (maxEfficientSize - metadataWire)) maxEfficientSize

/-- The check of a request id on its own. -/
def checkRequestId (requestId : Option Bytes) (mtu : ℕ) : Except ResourceError Unit :=
  match requestId with
  | some id => checkControlFrame .resourceAdv id.length true headerMinsize mtu
  | none => .ok ()

/-- The largest advertisement of a segment: all sizes and counts are bounds. -/
def largestAdvertisement (transferSize totalData totalSegments : ℕ) (requestId : Option Bytes)
    (isResponse encrypted hasMetadata : Bool) (partSdu : ℕ) : ResourceAdvertisement :=
  let parts := divCeil transferSize partSdu
  { new transferSize totalData parts (replicate 32 0) (List.replicate 4 0)
      { encrypted, compressed := false, split := decide (1 < totalSegments)
        isRequest := requestId.isSome && !isResponse, isResponse, hasMetadata }
      (List.replicate (min parts hashmapStride) (replicate 4 0)) linkMdu with
    segmentIndex := totalSegments, totalSegments, requestId }

/-- The checks of the control messages other than the advertisement. -/
def checkControls (parts mtu : ℕ) : Except ResourceError Unit := do
  let maxMapSegment := (parts - 1) / hashmapStride
  let hmu := encodeHashmapUpdate (replicate 32 0) maxMapSegment
    (List.replicate (hashmapStride * 4) 0)
  checkControlFrame .resourceHmu hmu.length true headerMinsize mtu
  checkControlFrame .resourceReq (1 + 4 + 32 + windowMax * 4) true headerMinsize mtu
  checkControlFrame .resourcePrf 64 false headerMinsize mtu
  checkControlFrame .resourceIcl 32 true headerMinsize mtu

/-- `preflight_outbound_with_sdu`. -/
def preflightOutboundWithSdu (dataLen : ℕ) (metadataLen : Option ℕ) (requestId : Option Bytes)
    (isResponse encrypted : Bool) (partSdu mtu : ℕ) : Except ResourceError Unit :=
  if partSdu = 0 then .error .invalidAdvertisement
  else if maxResourceSize < dataLen then .error .tooLarge
  else do
    let metadataWire ← metadataWire metadataLen
    if maxEfficientSize < metadataWire then .error .metadataTooLarge
    else if usizeMax < dataLen + metadataWire then .error .tooLarge
    else
      let totalData := dataLen + metadataWire
      let totalSegments := segmentCount dataLen metadataWire
      if usizeMax < totalSegments then .error .tooLarge
      else if maxSegments < totalSegments then .error .tooLarge
      else do
        checkRequestId requestId mtu
        let blob := min totalData maxEfficientSize + 4
        if usizeMax < blob then .error .tooLarge
        else do
          let transferSize ← bodyLen encrypted blob
          checkAdvertisement (largestAdvertisement transferSize totalData totalSegments requestId
            isResponse encrypted metadataLen.isSome partSdu) mtu
          checkControls (divCeil transferSize partSdu) mtu

/-- `preflight_outbound`. -/
def preflightOutbound (dataLen : ℕ) (metadataLen : Option ℕ) (requestId : Option Bytes)
    (isResponse encrypted : Bool) (mtu : ℕ) : Except ResourceError Unit :=
  preflightOutboundWithSdu dataLen metadataLen requestId isResponse encrypted sdu mtu

end Reticulum.Resource
