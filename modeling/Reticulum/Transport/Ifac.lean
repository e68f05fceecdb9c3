import Reticulum.Crypto.Primitives

/-!
# Interface access codes

A packet leaving an interface with an access code is signed with the interface key. The last
`ifacSize` bytes of the signature, the *tag*, are put behind the two-byte header and stay clear;
header and payload are masked with bytes expanded from the tag, and bit 7 of the first byte is
set. This file translates `try_ifac_sign` and `ifac_verify` and shows that they are an exact
encoding: verification inverts signing, and a byte string it accepts is the signed form of the
packet it returns.

Signing and mask expansion are the arbitrary functions of `Ed25519` and `Hkdf`.

## Main results

* `tryIfacSign_eq_ok_iff`, `ifacVerify_eq_some_iff` — both functions in terms of header, tag and
  masked payload.
* `ifac_exact` — the two inverse directions together.
-/

namespace Reticulum.Transport

open Octets List

/-- `IFAC_FLAG`: bit 7 of the first byte marks a packet with an access code. -/
def ifacFlag : UInt8 := 0x80

/-- `MAX_IFAC_WIRE_BYTES`. -/
def maxIfacWireBytes : ℕ := 255 * 32

/-! ### Masking -/

/-- `l` masked with the bytes of `mask` from index `k` on. -/
def maskFrom (mask : Bytes) (k : ℕ) (l : Bytes) : Bytes :=
  l.mapIdx fun i byte => byte ^^^ mask.getD (i + k) 0

@[simp] theorem length_maskFrom (mask : Bytes) (k : ℕ) (l : Bytes) :
    (maskFrom mask k l).length = l.length := by
  simp [maskFrom]

/-- Masking twice with the same bytes restores the list. -/
@[simp] theorem maskFrom_maskFrom (mask : Bytes) (k : ℕ) (l : Bytes) :
    maskFrom mask k (maskFrom mask k l) = l := by
  apply ext_getElem (by simp)
  intro i h1 h2
  simp [maskFrom]

/-- A loop over the bytes behind the header that leaves the tag clear and masks the rest. -/
private theorem mapIdx_tag_append (mask tag rest : Bytes) (f : ℕ → UInt8 → UInt8)
    (htag : ∀ i, 2 ≤ i → i ≤ tag.length + 1 → ∀ b, f i b = b)
    (hrest : ∀ i, tag.length + 1 < i → ∀ b, f i b = b ^^^ mask.getD i 0) :
    ((tag ++ rest).mapIdx fun i => f (i + 1 + 1)) =
      tag ++ maskFrom mask (tag.length + 2) rest := by
  rw [mapIdx_append]
  congr 1
  · apply ext_getElem (by simp)
    intro i h1 h2
    rw [getElem_mapIdx]
    exact htag _ (by omega) (by omega) _
  · apply ext_getElem (by simp)
    intro i h1 h2
    simp only [maskFrom, getElem_mapIdx]
    rw [hrest _ (by omega)]
    congr 2

/-! ### The flag bit -/

/-- Setting the flag, masking, setting it again, unmasking and clearing it keeps the low bits.
Unmasking, clearing the flag, setting it, masking and setting it again sets the flag. -/
private theorem masked_flag (p m : UInt8) :
    ((((p ||| ifacFlag) ^^^ m) ||| ifacFlag) ^^^ m) &&& ~~~ifacFlag = p &&& ~~~ifacFlag ∧
      (((((p ^^^ m) &&& ~~~ifacFlag) ||| ifacFlag) ^^^ m) ||| ifacFlag) = p ||| ifacFlag := by
  constructor
  all_goals
    apply UInt8.toBitVec_inj.mp
    apply BitVec.eq_of_getLsbD_eq
    intro i hi
    simp only [ifacFlag, UInt8.toBitVec_and, UInt8.toBitVec_xor, UInt8.toBitVec_or,
      UInt8.toBitVec_not, BitVec.getLsbD_and, BitVec.getLsbD_xor, BitVec.getLsbD_or,
      BitVec.getLsbD_not]
    cases BitVec.getLsbD (UInt8.toBitVec 128) i <;> simp [hi]

private theorem or_flag_of_and_ne_zero : ∀ r : UInt8, r &&& ifacFlag ≠ 0 → r ||| ifacFlag = r :=
  UInt8.forall_of_forall_lt (by decide +kernel)

private theorem and_not_flag_of_and_eq_zero :
    ∀ p : UInt8, p &&& ifacFlag = 0 → p &&& ~~~ifacFlag = p :=
  UInt8.forall_of_forall_lt (by decide +kernel)

private theorem or_flag_and_ne_zero : ∀ r : UInt8, (r ||| ifacFlag) &&& ifacFlag ≠ 0 :=
  UInt8.forall_of_forall_lt (by decide +kernel)

/-! ### Signing and verification -/

/-- Why a packet cannot be signed. -/
inductive IfacSignError
  | invalidTagSize
  | shortPacket
  | packetTooLarge
  deriving DecidableEq, Repr

section Exact

variable [Ed25519] [Hkdf]

/-- The tag of a packet: the last `ifacSize` bytes of its signature under the seed in bytes
32 to 63 of the interface key. -/
def ifacTag (packet : Bytes) (ifacKey : Octets 64) (ifacSize : ℕ) : Bytes :=
  (Ed25519.sign (read 32 (ifacKey.1.drop 32)) packet).1.drop (64 - ifacSize)

/-- The mask of a tag, salted with the whole interface key. -/
def ifacMask (maskLen : ℕ) (tag : Bytes) (ifacKey : Octets 64) : Except HkdfError Bytes :=
  (hkdfSha256 maskLen tag (some ifacKey.1) none).map (·.1)

/-- `try_ifac_sign`. -/
def tryIfacSign (packet : Bytes) (ifacKey : Octets 64) (ifacSize : ℕ) :
    Except IfacSignError Bytes :=
  if ¬(1 ≤ ifacSize ∧ ifacSize ≤ 64) then .error .invalidTagSize
  else
    match packet with
    | p0 :: p1 :: rest =>
      let maskLen := packet.length + ifacSize
      if maxIfacWireBytes < maskLen then .error .packetTooLarge
      else
        let tag := ifacTag packet ifacKey ifacSize
        match ifacMask maskLen tag ifacKey with
        | .error _ => .error .packetTooLarge
        | .ok mask =>
          let newRaw := (p0 ||| ifacFlag) :: p1 :: (tag ++ rest)
          .ok (newRaw.mapIdx fun i byte =>
            if i = 0 then (byte ^^^ mask.getD i 0) ||| ifacFlag
            else if i = 1 ∨ ifacSize + 1 < i then byte ^^^ mask.getD i 0
            else byte)
    | _ => .error .shortPacket

/-- `ifac_verify`. -/
def ifacVerify (raw : Bytes) (ifacKey : Octets 64) (ifacSize : ℕ) : Option Bytes :=
  if ifacSize = 0 ∨ 64 < ifacSize then none
  else if raw.length ≤ 2 + ifacSize then none
  else if raw.getD 0 0 &&& ifacFlag = 0 then none
  else
    let ifac := (raw.drop 2).take ifacSize
    match ifacMask raw.length ifac ifacKey with
    | .error _ => none
    | .ok mask =>
      let unmaskedRaw := raw.mapIdx fun i byte =>
        if i ≤ 1 ∨ ifacSize + 1 < i then byte ^^^ mask.getD i 0 else byte
      let newHeader := [unmaskedRaw.getD 0 0 &&& ~~~ifacFlag, unmaskedRaw.getD 1 0]
      let newRaw := newHeader ++ unmaskedRaw.drop (2 + ifacSize)
      if ifac = ifacTag newRaw ifacKey ifacSize then some newRaw else none

variable {ifacSize : ℕ}

omit [Hkdf] in
@[simp] theorem length_ifacTag (packet : Bytes) (ifacKey : Octets 64)
    (h : ifacSize ≤ 64) : (ifacTag packet ifacKey ifacSize).length = ifacSize := by
  simp only [ifacTag, length_drop, length_val]
  omega

variable {ifacKey : Octets 64}

omit [Ed25519] in
theorem le_of_ifacMask {n : ℕ} {tag : Bytes} {mask : Bytes}
    (h : ifacMask n tag ifacKey = .ok mask) : n ≤ maxIfacWireBytes := by
  unfold ifacMask at h
  cases hk : hkdfSha256 n tag (some ifacKey.1) none with
  | error e => rw [hk] at h; cases h
  | ok okm => exact length_le_of_hkdfSha256 hk

/-- A packet signs to `raw` exactly when the sizes fit and `raw` is the masked header, the tag
and the masked payload. -/
theorem tryIfacSign_eq_ok_iff {packet raw : Bytes} :
    tryIfacSign packet ifacKey ifacSize = .ok raw ↔
      (1 ≤ ifacSize ∧ ifacSize ≤ 64) ∧ ∃ p0 p1 rest mask, packet = p0 :: p1 :: rest ∧
        ifacMask (packet.length + ifacSize) (ifacTag packet ifacKey ifacSize) ifacKey
          = .ok mask ∧
        raw = (((p0 ||| ifacFlag) ^^^ mask.getD 0 0) ||| ifacFlag) :: (p1 ^^^ mask.getD 1 0) ::
          (ifacTag packet ifacKey ifacSize ++ maskFrom mask (ifacSize + 2) rest) := by
  unfold tryIfacSign
  by_cases hsize : 1 ≤ ifacSize ∧ ifacSize ≤ 64
  swap
  · simp [hsize]
  rw [if_neg (not_not_intro hsize)]
  match packet with
  | [] => simp
  | [p0] => simp
  | p0 :: p1 :: rest =>
    simp only
    set packet := p0 :: p1 :: rest
    set tag := ifacTag packet ifacKey ifacSize with htag
    have hlen : tag.length = ifacSize := length_ifacTag packet ifacKey hsize.2
    cases hm : ifacMask (packet.length + ifacSize) tag ifacKey with
    | error e =>
      simp only [hsize, true_and]
      constructor
      · intro h
        split at h <;> cases h
      · rintro ⟨_, _, _, _, _, h, _⟩
        cases h
    | ok mask =>
      have hle := le_of_ifacMask hm
      rw [if_neg (by omega)]
      have hmap : ((p0 ||| ifacFlag) :: p1 :: (tag ++ rest)).mapIdx (fun i byte =>
            if i = 0 then (byte ^^^ mask.getD i 0) ||| ifacFlag
            else if i = 1 ∨ ifacSize + 1 < i then byte ^^^ mask.getD i 0 else byte) =
          (((p0 ||| ifacFlag) ^^^ mask.getD 0 0) ||| ifacFlag) :: (p1 ^^^ mask.getD 1 0) ::
            (tag ++ maskFrom mask (ifacSize + 2) rest) := by
        rw [mapIdx_cons, mapIdx_cons]
        congr 2
        have h := mapIdx_tag_append mask tag rest (fun i byte =>
            if i = 0 then (byte ^^^ mask.getD i 0) ||| ifacFlag
            else if i = 1 ∨ ifacSize + 1 < i then byte ^^^ mask.getD i 0 else byte)
          (fun i h1 h2 b => by rw [if_neg (by omega), if_neg (by omega)])
          (fun i h1 b => by rw [if_neg (by omega), if_pos (by omega)])
        rwa [hlen] at h
      simp only [hmap, Except.ok.injEq, hsize, true_and]
      constructor
      · rintro rfl
        exact ⟨p0, p1, rest, mask, rfl, rfl, rfl⟩
      · rintro ⟨q0, q1, rest', mask', he, hm', rfl⟩
        obtain ⟨rfl, rfl, rfl⟩ : p0 = q0 ∧ p1 = q1 ∧ rest = rest' := by simpa [packet] using he
        cases hm'
        rfl

/-- A byte string with a header, a tag and a payload verifies to `p` exactly when it has the flag
and payload and `p` is the unmasked header and payload, signed with that tag. -/
theorem ifacVerify_eq_some_iff {r0 r1 : UInt8} {tag rest p : Bytes}
    (hsize : 1 ≤ ifacSize ∧ ifacSize ≤ 64) (htag : tag.length = ifacSize) :
    ifacVerify (r0 :: r1 :: (tag ++ rest)) ifacKey ifacSize = some p ↔
      rest ≠ [] ∧ r0 &&& ifacFlag ≠ 0 ∧ ∃ mask,
        ifacMask (rest.length + 2 + ifacSize) tag ifacKey = .ok mask ∧
        p = ((r0 ^^^ mask.getD 0 0) &&& ~~~ifacFlag) :: (r1 ^^^ mask.getD 1 0) ::
          maskFrom mask (ifacSize + 2) rest ∧
        tag = ifacTag p ifacKey ifacSize := by
  have hlen : (r0 :: r1 :: (tag ++ rest)).length = rest.length + 2 + ifacSize := by
    simp only [length_cons, length_append]
    omega
  have hmap (mask : Bytes) : (r0 :: r1 :: (tag ++ rest)).mapIdx (fun i byte =>
        if i ≤ 1 ∨ ifacSize + 1 < i then byte ^^^ mask.getD i 0 else byte) =
      (r0 ^^^ mask.getD 0 0) :: (r1 ^^^ mask.getD 1 0) ::
        (tag ++ maskFrom mask (ifacSize + 2) rest) := by
    rw [mapIdx_cons, mapIdx_cons]
    congr 2
    have h := mapIdx_tag_append mask tag rest
      (fun i byte => if i ≤ 1 ∨ ifacSize + 1 < i then byte ^^^ mask.getD i 0 else byte)
      (fun i h1 h2 b => by rw [if_neg (by omega)])
      (fun i h1 b => by rw [if_pos (by omega)])
    rwa [htag] at h
  unfold ifacVerify
  rw [if_neg (by omega), hlen]
  by_cases hrest : rest = []
  · simp [hrest]
  rw [if_neg (by have := length_pos_iff.mpr hrest; omega)]
  have hifac : ((r0 :: r1 :: (tag ++ rest)).drop 2).take ifacSize = tag := by
    simp [← htag]
  have hdrop (a b : UInt8) (l : Bytes) : (a :: b :: (tag ++ l)).drop (2 + ifacSize) = l := by
    rw [Nat.add_comm]
    simp [← htag]
  simp only [hifac, hmap, getD_cons_zero, getD_cons_succ, hdrop]
  by_cases hflag : r0 &&& ifacFlag = 0
  · simp [hflag]
  rw [if_neg hflag]
  cases hm : ifacMask (rest.length + 2 + ifacSize) tag ifacKey with
  | error e => simp
  | ok mask =>
    simp only [cons_append, nil_append, ne_eq, hrest, not_false_eq_true, hflag,
      true_and, Except.ok.injEq, exists_eq_left', Option.ite_none_right_eq_some, Option.some.injEq]
    constructor
    · rintro ⟨ht, rfl⟩
      exact ⟨rfl, ht⟩
    · rintro ⟨rfl, ht⟩
      exact ⟨ht, rfl⟩

omit [Ed25519] [Hkdf] in
/-- Every byte string with room for a header and a tag splits into header, tag and payload. -/
private theorem exists_header_tag {raw : Bytes} (h : 2 + ifacSize < raw.length) :
    ∃ r0 r1 tag rest, raw = r0 :: r1 :: (tag ++ rest) ∧ tag.length = ifacSize := by
  match raw with
  | [] => simp at h
  | [_] => simp at h
  | r0 :: r1 :: body =>
    simp only [length_cons] at h
    refine ⟨r0, r1, body.take ifacSize, body.drop ifacSize, by simp, ?_⟩
    rw [length_take]
    omega

/-- Access codes are an exact encoding: verifying a signed packet returns the packet, and every
byte string that verifies is the signed form of the packet it verifies to. -/
theorem ifac_exact (ifacKey : Octets 64) {ifacSize : ℕ} (hsize : 1 ≤ ifacSize ∧ ifacSize ≤ 64) :
    (∀ packet raw : Bytes, 3 ≤ packet.length → packet.getD 0 0 &&& ifacFlag = 0 →
      tryIfacSign packet ifacKey ifacSize = .ok raw →
        ifacVerify raw ifacKey ifacSize = some packet) ∧
    (∀ raw packet : Bytes, ifacVerify raw ifacKey ifacSize = some packet →
      tryIfacSign packet ifacKey ifacSize = .ok raw) := by
  constructor
  · intro packet raw hlen hflag h
    obtain ⟨-, p0, p1, rest, mask, rfl, hmask, rfl⟩ := tryIfacSign_eq_ok_iff.mp h
    rw [ifacVerify_eq_some_iff hsize (length_ifacTag _ _ hsize.2)]
    refine ⟨?_, or_flag_and_ne_zero _, mask, by simpa using hmask, ?_, rfl⟩
    · apply ne_nil_of_length_pos
      simp only [length_cons] at hlen
      simp only [length_maskFrom]
      omega
    · rw [(masked_flag _ _).1, and_not_flag_of_and_eq_zero p0 hflag, maskFrom_maskFrom,
        UInt8.xor_assoc, UInt8.xor_self, UInt8.xor_zero]
  · intro raw packet h
    have hlen : 2 + ifacSize < raw.length := by
      by_contra hle
      unfold ifacVerify at h
      rw [if_neg (by omega), if_pos (by omega)] at h
      cases h
    obtain ⟨r0, r1, tag, rest, rfl, htag⟩ := exists_header_tag hlen
    obtain ⟨hrest, hflag, mask, hmask, hp, ht⟩ := (ifacVerify_eq_some_iff hsize htag).mp h
    rw [tryIfacSign_eq_ok_iff]
    refine ⟨hsize, _, _, _, mask, hp, ?_, ?_⟩
    · rw [← ht, hp]
      simpa using hmask
    · rw [← ht, (masked_flag _ _).2, or_flag_of_and_ne_zero r0 hflag, maskFrom_maskFrom,
        UInt8.xor_assoc, UInt8.xor_self, UInt8.xor_zero]

end Exact

/-- The signature of `01 03 aa bb` under the all-zero seed. -/
@[reducible] private def zeroSeedEd25519 : Ed25519 where
  publicKey seed := seed
  sign _ _ :=
    .ofNat (2 ^ 256 * 0x90cc4aef0d4ff3cb63aa3b4858a6b35372de88c0712d433ef3b82337548ca342
      + 0x9d2e97b230561554ccf0fdc0cd4082f7faafdd19cbcbd83cc5a02a70db64aa09)
  verify _ _ _ := true

/-- The first eight mask bytes of the tag `db 64 aa 09` under the all-zero key. -/
@[reducible] private def zeroKeyHkdf : Hkdf where
  expand _ _ _ length := some (read length [17, 149, 190, 8, 151, 135, 199, 197])

theorem ifac_exact_zero_key :
    letI := zeroSeedEd25519
    letI := zeroKeyHkdf
    tryIfacSign [0x01, 0x03, 0xaa, 0xbb] (replicate 64 0) 4 =
        .ok [144, 150, 219, 100, 170, 9, 109, 126] ∧
      ifacVerify [144, 150, 219, 100, 170, 9, 109, 126] (replicate 64 0) 4 =
        some [0x01, 0x03, 0xaa, 0xbb] := by
  let _ := zeroSeedEd25519
  let _ := zeroKeyHkdf
  have hsign : tryIfacSign [0x01, 0x03, 0xaa, 0xbb] (replicate 64 0) 4 =
      .ok [144, 150, 219, 100, 170, 9, 109, 126] := by rfl
  exact ⟨hsign, (ifac_exact (replicate 64 0) (by decide)).1 _ _ (by decide) (by decide)
    hsign⟩

end Reticulum.Transport
