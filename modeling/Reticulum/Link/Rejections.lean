import Reticulum.Link.Agreement
import Reticulum.Link.Session

/-!
# Rejected messages

Four operations of a link take bytes from the network and answer with an error when they reject
them. Three of them write nothing before their last check. The fourth counts the bytes of a round
trip packet before it decrypts them.
-/

namespace Reticulum

open Wire Octets

/-- The messages of the peer that a link may reject with an error. -/
inductive LinkMessage
  | proof (proofData : Bytes) (identityVerifyKey identityEd25519PubBytes : Octets 32)
  | rttPacket (encryptedData : Bytes)
  | identification (encryptedData : Bytes)
  | rttUpdate (encryptedData : Bytes)
  deriving DecidableEq, Repr

/-- The error of a rejected message. -/
inductive LinkRejection
  | handshake (e : HandshakeError)
  | crypto (e : LinkCryptoError)
  deriving DecidableEq, Repr

namespace LinkSession

variable {F : Type} [Binary64Bits F] [Ed25519] [X25519] [Hkdf] [AesCbc] [Hmac]

/-- The session after a message of the peer, and whether it was rejected. -/
def receive (s : LinkSession F) (now : ℕ) (jitter : F) (iv : Octets 16) :
    LinkMessage → LinkSession F × Except LinkRejection Unit
  | .proof proofData key keyBytes =>
    let (s, result) := s.validateProof proofData key keyBytes now jitter iv
    (s, (result.mapError .handshake).map fun _ => ())
  | .rttPacket encryptedData =>
    let (s, result) := s.receiveRttPacket encryptedData now jitter
    (s, result.mapError .handshake)
  | .identification encryptedData =>
    let (s, result) := s.handleIdentification encryptedData
    (s, (result.mapError .crypto).map fun _ => ())
  | .rttUpdate encryptedData =>
    let (s, result) := s.updateRttFromPacket encryptedData jitter
    (s, (result.mapError .crypto).map fun _ => ())

/-- The message is a round trip packet for a responder in the handshake that does not decrypt, and
its length was counted before that showed. -/
def RejectsLate (s : LinkSession F) (m : LinkMessage) : Prop :=
  ∃ encryptedData, m = .rttPacket encryptedData ∧ encryptedData ≠ [] ∧ s.state = .handshake ∧
    (∃ mdu, LinkMtu.tryFromSignal (some s.mtu) >>= LinkMtu.checkedMdu = .ok mdu) ∧
    ∃ e, s.decrypt encryptedData = .error e

variable {s : LinkSession F}

theorem validateProof_atomic (s : LinkSession F) (proofData : Bytes) (key keyBytes : Octets 32)
    (now : ℕ) (jitter : F) (iv : Octets 16) :
    (s.validateProof proofData key keyBytes now jitter iv).1 = s ∨
      ∃ rtt, (s.validateProof proofData key keyBytes now jitter iv).2 = .ok rtt := by
  unfold validateProof
  dsimp only
  split
  · exact .inl rfl
  · exact .inr ⟨_, rfl⟩

omit [Binary64Bits F] [X25519] [Hkdf] in
theorem handleIdentification_atomic (s : LinkSession F) (encryptedData : Bytes) :
    (s.handleIdentification encryptedData).1 = s ∨
      ∃ key, (s.handleIdentification encryptedData).2 = .ok key := by
  unfold handleIdentification
  split_ifs
  · exact .inl rfl
  · split
    · exact .inl rfl
    · dsimp only
      split_ifs
      · exact .inl rfl
      · exact .inl rfl
      · exact .inl rfl
      · split
        · exact .inl rfl
        · exact .inr ⟨_, rfl⟩

omit [Ed25519] [X25519] [Hkdf] in
theorem updateRttFromPacket_atomic (s : LinkSession F) (encryptedData : Bytes) (jitter : F) :
    (s.updateRttFromPacket encryptedData jitter).1 = s ∨
      ∃ rtt, (s.updateRttFromPacket encryptedData jitter).2 = .ok rtt := by
  unfold updateRttFromPacket
  split
  · exact .inl rfl
  · split
    · exact .inl rfl
    · dsimp only
      split
      · exact .inl rfl
      · exact .inr ⟨_, rfl⟩

omit [Ed25519] [X25519] [Hkdf] in
/-- A round trip packet leaves no trace, or succeeds, or fails after its length was counted. -/
theorem receiveRttPacket_cases (s : LinkSession F) (encryptedData : Bytes) (now : ℕ) (jitter : F) :
    (s.receiveRttPacket encryptedData now jitter).1 = s ∧
        (s.state ≠ .handshake ∨
          ∃ e, LinkMtu.tryFromSignal (some s.mtu) >>= LinkMtu.checkedMdu = .error e) ∨
      (s.receiveRttPacket encryptedData now jitter).2 = .ok () ∧
        (∃ plaintext, s.decrypt encryptedData = .ok plaintext) ∨
      s.state = .handshake ∧
        (∃ mdu, LinkMtu.tryFromSignal (some s.mtu) >>= LinkMtu.checkedMdu = .ok mdu) ∧
        (∃ e, s.decrypt encryptedData = .error e) ∧
        s.receiveRttPacket encryptedData now jitter =
          ({ s with establishmentCost := s.establishmentCost + encryptedData.length },
            .error .invalidSignature) := by
  unfold receiveRttPacket
  split_ifs with hstate
  · exact .inl ⟨rfl, .inl hstate⟩
  · split
    · rename_i e he
      exact .inl ⟨rfl, .inr ⟨e, he⟩⟩
    · rename_i mdu hmdu
      dsimp only
      split
      · rename_i e he
        exact .inr (.inr ⟨not_not.mp hstate, ⟨mdu, hmdu⟩, ⟨e, he⟩, rfl⟩)
      · rename_i plaintext hplaintext
        exact .inr (.inl ⟨rfl, plaintext, hplaintext⟩)

/-- **Rejected messages.** A message that a link rejects leaves every field as it was, exactly when
it is not a nonempty round trip packet that fails to decrypt in the handshake. -/
theorem rejected_unchanged_iff (s : LinkSession F) (now : ℕ) (jitter : F) (iv : Octets 16)
    (m : LinkMessage) :
    ((∃ e, (s.receive now jitter iv m).2 = .error e) → (s.receive now jitter iv m).1 = s) ↔
      ¬ s.RejectsLate m := by
  cases m with
  | proof proofData key keyBytes =>
    refine iff_of_true ?_ (by rintro ⟨_, ⟨⟩, -⟩)
    rintro ⟨e, he⟩
    rcases s.validateProof_atomic proofData key keyBytes now jitter iv with h | ⟨rtt, h⟩
    · exact h
    · simp only [receive, h] at he
      cases he
  | rttPacket encryptedData =>
    constructor
    · rintro h ⟨_, ⟨⟩, hne, hstate, ⟨mdu, hmdu⟩, e, he⟩
      rcases s.receiveRttPacket_cases encryptedData now jitter with
        ⟨-, hearly | ⟨e', he'⟩⟩ | ⟨-, plaintext, hplain⟩ | ⟨-, -, -, hlate⟩
      · exact hearly hstate
      · cases hmdu.symm.trans he'
      · cases he.symm.trans hplain
      · simp only [receive, hlate] at h
        have hcost := congrArg (fun s => s.establishmentCost) (h ⟨_, rfl⟩)
        exact hne (List.length_eq_zero_iff.mp (by simpa using hcost))
    · rintro hlate ⟨e, he⟩
      rcases s.receiveRttPacket_cases encryptedData now jitter with
        ⟨hsame, -⟩ | ⟨hok, -⟩ | ⟨hstate, hmdu, hdecrypt, heq⟩
      · exact hsame
      · simp only [receive, hok] at he
        cases he
      · have hempty : encryptedData = [] := by
          by_contra hne
          exact hlate ⟨encryptedData, rfl, hne, hstate, hmdu, hdecrypt⟩
        subst hempty
        simp only [receive, heq]
        rfl
  | identification encryptedData =>
    refine iff_of_true ?_ (by rintro ⟨_, ⟨⟩, -⟩)
    rintro ⟨e, he⟩
    rcases s.handleIdentification_atomic encryptedData with h | ⟨key, h⟩
    · exact h
    · simp only [receive, h] at he
      cases he
  | rttUpdate encryptedData =>
    refine iff_of_true ?_ (by rintro ⟨_, ⟨⟩, -⟩)
    rintro ⟨e, he⟩
    rcases s.updateRttFromPacket_atomic encryptedData jitter with h | ⟨rtt, h⟩
    · exact h
    · simp only [receive, h] at he
      cases he

end LinkSession

/-! ### A rejected packet

A responder on the request of the session above. -/

/-- Exact arithmetic; the round-trip time is the one number that is read from bits. -/
@[reducible] def sessionBinary64 : Binary64Bits ℚ where
  isNan _ := false
  ofBits bits := if bits = 0x3FD0000000000000 then 1 / 4 else 0
  ofBits32 _ := 0
  toBits _ := 0
  tryFromSecs secs := if 0 ≤ secs then some (secs * 10 ^ 9).floor.toNat else none

/-- AES on the round-trip time, padded to a block. -/
@[reducible] def sessionAesCbc : AesCbc :=
  .swapping [203, 63, 208, 0, 0, 0, 0, 0, 0, 7, 7, 7, 7, 7, 7, 7] ((sessionRtt.drop 16).take 16) rfl

@[reducible] def sessionHmac : Hmac where
  mac _ _ := read 32 (sessionRtt.drop 32)

/-- The construction of the responder. -/
def sessionResponder [Binary64Bits ℚ] [Sha256] [Ed25519] [X25519] [Hkdf] :
    Except HandshakeError (LinkSession ℚ × Bytes) :=
  let keys : EphemeralKeys := ⟨replicate 32 1, replicate 32 2⟩
  LinkSession.newResponderWith (Link.newInitiator (replicate 16 0xaa) keys).2 sessionIdentity
    (replicate 16 0xaa) 1 (fun _ => some sessionSignature)
    ⟨replicate 32 3, replicate 32 5⟩ 0 0

attribute [local instance] sessionBinary64 sessionSha256 sessionEd25519 sessionX25519 sessionHkdf
  sessionAesCbc sessionHmac

/-- One byte that is no token: the packet is rejected, and its length was counted. -/
theorem rejected_packet_counted :
    ∃ s proofData, sessionResponder = .ok (s, proofData) ∧
      (s.receive 0 0 (replicate 16 0) (.rttPacket [0])).2 =
        .error (.handshake .invalidSignature) ∧
      (s.receive 0 0 (replicate 16 0) (.rttPacket [0])).1.establishmentCost =
        s.establishmentCost + 1 := by
  exact exists_ok_of_any (by decide +kernel)

end Reticulum
