import Reticulum.Crypto.Primitives
import Reticulum.Foundation.Fallible

/-!
# Encryption tokens

The authenticated tokens of `token.rs`: an initialisation vector, the padded plaintext under AES in
CBC mode, and an HMAC over both. Padding (`pkcs7.rs`) and the checks around the cipher
(`aes_cbc.rs`) are the crate's own; the cipher and the HMAC are other crates'.
-/

namespace Reticulum

open Octets List

/-- AES in CBC mode on a buffer, in place. -/
class AesCbc where
  /-- Encrypt a buffer under a key and an initialisation vector. -/
  encrypt : (key : Bytes) → (iv : Octets 16) → {n : ℕ} → Octets n → Octets n
  /-- Decrypt a buffer. -/
  decrypt : (key : Bytes) → (iv : Octets 16) → {n : ℕ} → Octets n → Octets n

/-- Decryption inverts encryption, on whole blocks under keys of the two admitted lengths. -/
def AesCbc.Inverts [AesCbc] : Prop :=
  ∀ (key : Bytes) (iv : Octets 16) {n : ℕ} (x : Octets n),
    (key.length = 16 ∨ key.length = 32) → n % 16 = 0 →
      AesCbc.decrypt key iv (AesCbc.encrypt key iv x) = x

/-- A cipher of which one plaintext with its ciphertext is known: it swaps the two. -/
@[reducible] def AesCbc.swapping (plain cipher : Bytes) (h : plain.length = cipher.length) : AesCbc :=
  let swap {n : ℕ} (x : Octets n) : Octets n := ⟨Equiv.swap plain cipher x.1, by
    have hx := x.2
    rw [Equiv.swap_apply_def]
    split_ifs <;> simp_all⟩
  { encrypt := fun _ _ _ x => swap x, decrypt := fun _ _ _ x => swap x }

theorem AesCbc.inverts_swapping (plain cipher : Bytes) (h : plain.length = cipher.length) :
    @AesCbc.Inverts (.swapping plain cipher h) :=
  fun _ _ _ x _ _ => Subtype.ext (Equiv.swap_swap plain cipher ▸ rfl :
    (Equiv.swap plain cipher).trans (Equiv.swap plain cipher) x.1 = x.1)

/-- A cipher on buffers sees their bytes, however their length is written. -/
theorem inPlace_congr (f : ∀ {n : ℕ}, Octets n → Octets n) {buffer : Bytes} {n m : ℕ}
    (hn : buffer.length = n) (hm : buffer.length = m) :
    (f ⟨buffer, hn⟩ : Octets n).1 = (f ⟨buffer, hm⟩ : Octets m).1 := by
  subst hn hm
  rfl

/-- On finitely many buffers of one length a left inverse is a right inverse. -/
theorem AesCbc.Inverts.encrypt_decrypt [AesCbc] (haes : AesCbc.Inverts) {key : Bytes}
    (iv : Octets 16) {n : ℕ} (x : Octets n) (hkey : key.length = 16 ∨ key.length = 32)
    (hn : n % 16 = 0) : AesCbc.encrypt key iv (AesCbc.decrypt key iv x) = x := by
  have hleft : Function.LeftInverse (AesCbc.decrypt key iv (n := n)) (AesCbc.encrypt key iv) :=
    fun x => haes key iv x hkey hn
  have hbyte : Finite UInt8 := Finite.of_injective UInt8.toFin fun _ _ => UInt8.toFin_inj.mp
  have hfinite : Finite (Octets n) := inferInstanceAs (Finite (List.Vector UInt8 n))
  exact hleft.rightInverse_of_injective (Finite.injective_iff_surjective.mpr hleft.surjective) x

/-- HMAC-SHA256. -/
class Hmac where
  /-- The tag of a message under a key. -/
  mac : (key data : Bytes) → Octets 32

/-! ### Padding -/

/-- `Pkcs7Error`. -/
inductive Pkcs7Error
  | invalidPaddingValue (value : UInt8)
  | inconsistentPadding
  | emptyInput
  deriving DecidableEq, Repr

/-- The number of padding bytes behind a plaintext. -/
def padLen (len : ℕ) : ℕ := 16 - len % 16

/-- `pkcs7::pad`. -/
def pkcs7Pad (data : Bytes) : Bytes :=
  data ++ List.replicate (padLen data.length) (UInt8.ofNat (padLen data.length))

/-- `pkcs7::unpad`. -/
def pkcs7Unpad (data : Bytes) : Except Pkcs7Error Bytes :=
  match data.getLast? with
  | none => .error .emptyInput
  | some padByte =>
    if padByte = 0 ∨ 16 < padByte.toNat then .error (.invalidPaddingValue padByte)
    else if data.length < padByte.toNat then .error (.invalidPaddingValue padByte)
    else
      let start := data.length - padByte.toNat
      if (data.drop start).any (· ≠ padByte) then .error .inconsistentPadding
      else .ok (data.take start)

theorem padLen_bounds (len : ℕ) : 1 ≤ padLen len ∧ padLen len ≤ 16 := by
  unfold padLen
  omega

theorem length_pkcs7Pad (data : Bytes) :
    (pkcs7Pad data).length = (data.length / 16 + 1) * 16 := by
  rw [pkcs7Pad, length_append, length_replicate, padLen]
  omega

@[simp] theorem pkcs7Unpad_pkcs7Pad (data : Bytes) : pkcs7Unpad (pkcs7Pad data) = .ok data := by
  obtain ⟨hpos, hle⟩ := padLen_bounds data.length
  set n := padLen data.length with hn
  have hbyte : (UInt8.ofNat n).toNat = n := by
    rw [UInt8.toNat_ofNat']
    omega
  have hpad : pkcs7Pad data = data ++ List.replicate n (UInt8.ofNat n) := by
    rw [pkcs7Pad, ← hn]
  have hlast : (pkcs7Pad data).getLast? = some (UInt8.ofNat n) := by
    obtain ⟨m, hm⟩ := Nat.exists_eq_succ_of_ne_zero (show n ≠ 0 by omega)
    rw [hpad, hm, replicate_succ', ← append_assoc, getLast?_concat]
  have hvalue : ¬ (UInt8.ofNat n = 0 ∨ 16 < n) := by
    rintro (hzero | hlarge)
    · rw [hzero, UInt8.toNat_zero] at hbyte
      omega
    · omega
  have hlen : (pkcs7Pad data).length = data.length + n := by
    rw [hpad, length_append, length_replicate]
  rw [pkcs7Unpad, hlast]
  simp only [hbyte, hlen]
  rw [if_neg hvalue, if_neg (by omega), Nat.add_sub_cancel, hpad]
  simp

/-- Whole blocks that have a valid padding are the padded form of what is left without it. -/
theorem pkcs7Pad_of_pkcs7Unpad {padded data : Bytes} (hblocks : padded.length % 16 = 0)
    (h : pkcs7Unpad padded = .ok data) : pkcs7Pad data = padded := by
  rw [pkcs7Unpad] at h
  split at h
  · cases h
  · rename_i padByte _
    simp only [ite_error_eq_ok] at h
    obtain ⟨hvalue, hle, hall, hdata⟩ := h
    obtain rfl := Except.ok.inj hdata
    have hpos : padByte.toNat ≠ 0 := fun h0 => hvalue (.inl (UInt8.toNat_inj.mp h0))
    have hlen : (padded.take (padded.length - padByte.toNat)).length =
        padded.length - padByte.toNat := by
      rw [length_take]
      omega
    have hpad : padLen (padded.length - padByte.toNat) = padByte.toNat := by
      rw [padLen]
      omega
    have hrun : padded.drop (padded.length - padByte.toNat) =
        List.replicate padByte.toNat padByte := by
      refine eq_replicate_iff.mpr ⟨?_, ?_⟩
      · rw [length_drop]
        omega
      · intro b hb
        by_contra hne
        exact hall (any_eq_true.mpr ⟨b, hb, by simpa using hne⟩)
    rw [pkcs7Pad, hlen, hpad, UInt8.ofNat_toNat, ← hrun, take_append_drop]

/-! ### The cipher -/

/-- `AesCbcError`. -/
inductive AesCbcError
  | invalidKeyLength (length : ℕ)
  | invalidIvLength (length : ℕ)
  | notBlockAligned
  | decryptionFailed
  | encryptionFailed
  deriving DecidableEq, Repr

variable [AesCbc] [Hmac]

/-- `aes_cbc::encrypt`, under an initialisation vector of the right length. -/
def aesCbcEncrypt (key : Bytes) (iv : Octets 16) (plaintext : Bytes) : Except AesCbcError Bytes :=
  if plaintext.length = 0 ∨ plaintext.length % 16 ≠ 0 then .error .notBlockAligned
  else if key.length ≠ 16 ∧ key.length ≠ 32 then .error (.invalidKeyLength key.length)
  else .ok (AesCbc.encrypt key iv ⟨plaintext, rfl⟩).1

/-- `aes_cbc::decrypt`. -/
def aesCbcDecrypt (key : Bytes) (iv : Octets 16) (ciphertext : Bytes) : Except AesCbcError Bytes :=
  if ciphertext.length = 0 ∨ ciphertext.length % 16 ≠ 0 then .error .notBlockAligned
  else if key.length ≠ 16 ∧ key.length ≠ 32 then .error (.invalidKeyLength key.length)
  else .ok (AesCbc.decrypt key iv ⟨ciphertext, rfl⟩).1

variable {key plaintext ciphertext : Bytes} {iv : Octets 16}

omit [Hmac] in
theorem aesCbcEncrypt_ok (h : aesCbcEncrypt key iv plaintext = .ok ciphertext) :
    ciphertext.length = plaintext.length ∧ (key.length = 16 ∨ key.length = 32) ∧
      plaintext.length ≠ 0 ∧ plaintext.length % 16 = 0 := by
  obtain ⟨haligned, h⟩ := ite_error_eq_ok.mp h
  obtain ⟨hkey, h⟩ := ite_error_eq_ok.mp h
  obtain rfl := Except.ok.inj h
  exact ⟨length_val _, by omega, by omega, by omega⟩

omit [Hmac] in
theorem aesCbcDecrypt_aesCbcEncrypt (haes : AesCbc.Inverts)
    (h : aesCbcEncrypt key iv plaintext = .ok ciphertext) :
    aesCbcDecrypt key iv ciphertext = .ok plaintext := by
  obtain ⟨hlen, hkey, hpos, haligned⟩ := aesCbcEncrypt_ok h
  obtain ⟨-, h⟩ := ite_error_eq_ok.mp h
  obtain ⟨-, h⟩ := ite_error_eq_ok.mp h
  have hbuffer : (⟨ciphertext, hlen⟩ : Octets plaintext.length) =
      AesCbc.encrypt key iv ⟨plaintext, rfl⟩ := Subtype.ext (Except.ok.inj h).symm
  have hinverse := haes key iv (⟨plaintext, rfl⟩ : Octets plaintext.length) hkey haligned
  rw [← hbuffer] at hinverse
  rw [aesCbcDecrypt, if_neg (by omega), if_neg (by omega)]
  rw [inPlace_congr (AesCbc.decrypt key iv) rfl hlen, hinverse]

omit [Hmac] in
theorem aesCbcEncrypt_aesCbcDecrypt (haes : AesCbc.Inverts)
    (h : aesCbcDecrypt key iv ciphertext = .ok plaintext) :
    plaintext.length % 16 = 0 ∧ aesCbcEncrypt key iv plaintext = .ok ciphertext := by
  obtain ⟨haligned, h⟩ := ite_error_eq_ok.mp h
  obtain ⟨hkey, h⟩ := ite_error_eq_ok.mp h
  obtain rfl := Except.ok.inj h
  have hinverse := haes.encrypt_decrypt iv ⟨ciphertext, rfl⟩ (show
    key.length = 16 ∨ key.length = 32 by omega) (by omega)
  set padded := AesCbc.decrypt key iv (⟨ciphertext, rfl⟩ : Octets ciphertext.length)
  have hlen : padded.1.length = ciphertext.length := length_val _
  refine ⟨by omega, ?_⟩
  rw [aesCbcEncrypt, if_neg (by omega), if_neg (by omega)]
  rw [inPlace_congr (AesCbc.encrypt key iv) rfl hlen, Subtype.coe_eta, hinverse]

/-! ### Tokens -/

/-- `TokenError`. -/
inductive TokenError
  | invalidKeyLength (length : ℕ)
  | tooShort
  | authenticationFailed
  | decryptionFailed
  | encryptionFailed
  deriving DecidableEq, Repr

/-- `split_key`: the signing key and the encryption key. -/
def splitKey (key : Bytes) : Except TokenError (Bytes × Bytes) :=
  if key.length = 64 then .ok (key.take 32, key.drop 32)
  else if key.length = 32 then .ok (key.take 16, key.drop 16)
  else .error (.invalidKeyLength key.length)

/-- `token::encrypt` under an initialisation vector. -/
def tokenEncrypt (iv : Octets 16) (plaintext key : Bytes) : Except TokenError Bytes := do
  let (signingKey, encryptionKey) ← splitKey key
  let ciphertext ← (aesCbcEncrypt encryptionKey iv (pkcs7Pad plaintext)).mapError
    fun _ => .encryptionFailed
  let signedParts := iv.1 ++ ciphertext
  return signedParts ++ (Hmac.mac signingKey signedParts).1

/-- `token::decrypt`. -/
def tokenDecrypt (token key : Bytes) : Except TokenError Bytes := do
  let (signingKey, encryptionKey) ← splitKey key
  if token.length < 64 then .error .authenticationFailed
  else
    let splitPoint := token.length - 32
    let signedParts := token.take splitPoint
    if (Hmac.mac signingKey signedParts).1 ≠ token.drop splitPoint then .error .authenticationFailed
    else
      let iv := read 16 signedParts
      let ciphertext := signedParts.drop 16
      if ciphertext.length = 0 ∨ ciphertext.length % 16 ≠ 0 then .error .authenticationFailed
      else do
        let padded ← (aesCbcDecrypt encryptionKey iv ciphertext).mapError
          fun _ => .authenticationFailed
        (pkcs7Unpad padded).mapError fun _ => .authenticationFailed

variable {plaintext key token : Bytes}

/-- A token is the padded plaintext with 48 more bytes. -/
theorem length_tokenEncrypt (h : tokenEncrypt iv plaintext key = .ok token) :
    token.length = (plaintext.length / 16 + 1) * 16 + 48 := by
  obtain ⟨⟨signingKey, encryptionKey⟩, -, h⟩ := bind_eq_ok.mp h
  obtain ⟨ciphertext, hcipher, h⟩ := bind_eq_ok.mp h
  obtain rfl := pure_eq_ok.mp h
  have hlen := (aesCbcEncrypt_ok (mapError_eq_ok.mp hcipher)).1
  rw [length_pkcs7Pad] at hlen
  simp only [length_append, length_val]
  omega

/-- Keys of the two admitted lengths encrypt everything. -/
theorem exists_tokenEncrypt (iv : Octets 16) (plaintext : Bytes) {key : Bytes}
    (hkey : key.length = 64 ∨ key.length = 32) :
    ∃ token, tokenEncrypt iv plaintext key = .ok token := by
  have hpad := length_pkcs7Pad plaintext
  have hcipher (encryptionKey : Bytes) (h : encryptionKey.length = 16 ∨ encryptionKey.length = 32) :
      aesCbcEncrypt encryptionKey iv (pkcs7Pad plaintext) =
        .ok (AesCbc.encrypt encryptionKey iv ⟨pkcs7Pad plaintext, rfl⟩).1 := by
    rw [aesCbcEncrypt, if_neg (by omega), if_neg (by omega)]
  have hsplit : ∃ signingKey encryptionKey, splitKey key = .ok (signingKey, encryptionKey) ∧
      (encryptionKey.length = 16 ∨ encryptionKey.length = 32) := by
    rcases hkey with hkey | hkey
    · refine ⟨key.take 32, key.drop 32, if_pos hkey, ?_⟩
      rw [length_drop]
      omega
    · refine ⟨key.take 16, key.drop 16, ?_, ?_⟩
      · rw [splitKey, if_neg (by omega), if_pos hkey]
      · rw [length_drop]
        omega
  obtain ⟨signingKey, encryptionKey, hsplit, hlen⟩ := hsplit
  rw [tokenEncrypt, hsplit, ok_bind]
  simp only [hcipher encryptionKey hlen, mapError_ok, ok_bind]
  exact ⟨_, rfl⟩

/-- A token decrypts to what was encrypted. -/
theorem tokenDecrypt_tokenEncrypt (haes : AesCbc.Inverts)
    (h : tokenEncrypt iv plaintext key = .ok token) : tokenDecrypt token key = .ok plaintext := by
  have hlen := length_tokenEncrypt h
  obtain ⟨⟨signingKey, encryptionKey⟩, hkey, h⟩ := bind_eq_ok.mp h
  obtain ⟨ciphertext, hcipher, h⟩ := bind_eq_ok.mp h
  obtain rfl := pure_eq_ok.mp h
  obtain ⟨hcipherLen, -, hpos, haligned⟩ := aesCbcEncrypt_ok (mapError_eq_ok.mp hcipher)
  set signedParts := iv.1 ++ ciphertext with hparts
  set mac := Hmac.mac signingKey signedParts with hmac
  have hsplit : (signedParts ++ mac.1).length - 32 = signedParts.length := by
    rw [length_append, length_val, Nat.add_sub_cancel]
  rw [tokenDecrypt, hkey, ok_bind]
  simp only [hsplit, take_left, drop_left, ← hmac]
  rw [if_neg (by omega), if_neg (by simp)]
  have hdrop : signedParts.drop 16 = ciphertext := drop_append iv ciphertext
  have hread : read 16 signedParts = iv := read_append iv ciphertext
  rw [hdrop, hread, if_neg (by omega),
    aesCbcDecrypt_aesCbcEncrypt haes (mapError_eq_ok.mp hcipher), mapError_ok, ok_bind,
    pkcs7Unpad_pkcs7Pad]
  rfl

/-- What decrypts is the token of the returned plaintext under the initialisation vector it starts
with. -/
theorem tokenEncrypt_of_tokenDecrypt (haes : AesCbc.Inverts)
    (h : tokenDecrypt token key = .ok plaintext) :
    tokenEncrypt (read 16 token) plaintext key = .ok token := by
  obtain ⟨⟨signingKey, encryptionKey⟩, hkey, h⟩ := bind_eq_ok.mp h
  simp only [ite_error_eq_ok, ne_eq, not_not] at h
  obtain ⟨hlen, hmac, -, h⟩ := h
  obtain ⟨padded, hpadded, hdata⟩ := bind_eq_ok.mp h
  obtain ⟨hblocks, hcipher⟩ := aesCbcEncrypt_aesCbcDecrypt haes (mapError_eq_ok.mp hpadded)
  have hpad := pkcs7Pad_of_pkcs7Unpad hblocks (mapError_eq_ok.mp hdata)
  have hshort : 16 ≤ (token.take (token.length - 32)).length := by
    rw [length_take]
    omega
  have hiv : read 16 (token.take (token.length - 32)) = read 16 token := by
    refine Subtype.ext ?_
    rw [read_val hshort, read_val (by omega), take_take, Nat.min_eq_left (by omega)]
  have hparts : (read 16 token).1 ++ (token.take (token.length - 32)).drop 16 =
      token.take (token.length - 32) := by
    rw [← hiv, read_val hshort, take_append_drop]
  rw [tokenEncrypt, hkey, ok_bind]
  simp only [hpad, ← hiv, hcipher, mapError_ok, ok_bind]
  rw [hiv, hparts, hmac, take_append_drop]
  rfl

/-- The tokens of a plaintext are exactly what decrypts to it. -/
theorem tokenDecrypt_eq_ok_iff (haes : AesCbc.Inverts) :
    tokenDecrypt token key = .ok plaintext ↔
      tokenEncrypt (read 16 token) plaintext key = .ok token :=
  ⟨tokenEncrypt_of_tokenDecrypt haes, tokenDecrypt_tokenEncrypt haes⟩

end Reticulum
