import Reticulum.Foundation.Octets

/-!
# Envelopes and sequence numbers

A channel wraps each message in an envelope with a message type, a 16-bit sequence number and a
length that nobody reads. The coding follows `channel.rs` of the `rns-protocol` crate.

Sequence numbers wrap around: the `i`-th message of a channel has the number `seqOf i`. Within a
window the number identifies the message.
-/

namespace Reticulum

/-! ### Sequence numbers -/

/-- `SEQ_MODULUS`. -/
def seqModulus : ℕ := 0x10000

/-- The sequence number of the `i`-th message. -/
def seqOf (i : ℕ) : UInt16 := UInt16.ofNat (i % seqModulus)

/-- The number after `seq`, as both ends compute it. -/
def nextSeq (seq : UInt16) : UInt16 := UInt16.ofNat ((seq.toNat + 1) % seqModulus)

/-- How far `seq` lies ahead of `next`, going round. -/
def seqDistance (next seq : UInt16) : ℕ :=
  if next ≤ seq then seq.toNat - next.toNat else seqModulus - next.toNat + seq.toNat

theorem toNat_seqOf (i : ℕ) : (seqOf i).toNat = i % 65536 := by
  simp only [seqOf, seqModulus, UInt16.toNat_ofNat']
  omega

@[simp] theorem nextSeq_seqOf (i : ℕ) : nextSeq (seqOf i) = seqOf (i + 1) := by
  apply UInt16.toNat_inj.mp
  simp only [nextSeq, seqModulus, UInt16.toNat_ofNat', toNat_seqOf]
  omega

theorem seqOf_eq_iff {i j : ℕ} : seqOf i = seqOf j ↔ i % 65536 = j % 65536 := by
  rw [← toNat_seqOf, ← toNat_seqOf, UInt16.toNat_inj]

/-- Numbers less than a full turn apart differ. -/
theorem seqOf_inj {i j : ℕ} (h : seqOf i = seqOf j) (hij : i < j + 65536) (hji : j < i + 65536) :
    i = j := by
  have h' := seqOf_eq_iff.mp h
  omega

theorem seqDistance_seqOf (r i : ℕ) :
    seqDistance (seqOf r) (seqOf i) = (i + 65536 - r % 65536) % 65536 := by
  simp only [seqDistance, UInt16.le_iff_toNat_le, toNat_seqOf, seqModulus]
  split_ifs <;> omega

/-! ### Envelopes -/

/-- A message: its type and its serialized payload. -/
abbrev Message := UInt16 × Bytes

/-- `MessageState`. -/
inductive MessageState
  | new
  | sent
  | delivered
  | failed
  deriving DecidableEq, Repr

/-- `ChannelMessageError`. -/
inductive ChannelMessageError
  | unpackFailed
  | invalidType
  | tooShort
  deriving DecidableEq, Repr

/-- `ENVELOPE_HEADER_SIZE`. -/
def envelopeHeaderSize : ℕ := 6

/-- `Envelope`. The instant of the last transmission is a number of clock ticks. -/
structure Envelope where
  msgType : UInt16
  sequence : UInt16
  raw : Bytes
  packed : Bool
  tries : ℕ
  state : MessageState
  lastSent : Option ℕ
  deriving DecidableEq, Repr

namespace Envelope

/-- `Envelope::pack`. The length is cut to 16 bits. -/
def pack (msg : Message) (sequence : UInt16) : Envelope where
  msgType := msg.1
  sequence := sequence
  raw := be16 msg.1 ++ (be16 sequence ++ (be16 (UInt16.ofNat msg.2.length) ++ msg.2))
  packed := true
  tries := 0
  state := .new
  lastSent := none

/-- `Envelope::unpack`. -/
def unpack (raw : Bytes) : Except ChannelMessageError Envelope :=
  match raw with
  | t0 :: t1 :: s0 :: s1 :: _ :: _ :: _ =>
    .ok { msgType := ofBe16 t0 t1
          sequence := ofBe16 s0 s1
          raw
          packed := true
          tries := 0
          state := .new
          lastSent := none }
  | _ => .error .tooShort

/-- `Envelope::payload`. -/
def payload (e : Envelope) : Bytes :=
  if envelopeHeaderSize < e.raw.length then e.raw.drop envelopeHeaderSize else []

variable (msg : Message) (seq : UInt16)

@[simp] theorem pack_msgType : (pack msg seq).msgType = msg.1 := rfl

@[simp] theorem pack_sequence : (pack msg seq).sequence = seq := rfl

/-- An envelope parses to itself; its length field does not matter. -/
@[simp] theorem unpack_pack : unpack (pack msg seq).raw = .ok (pack msg seq) := by
  simp only [pack, unpack, be16, List.cons_append, List.nil_append, ofBe16_be16]

@[simp] theorem payload_pack : (pack msg seq).payload = msg.2 := by
  cases h : msg.2 <;> simp [pack, payload, be16, envelopeHeaderSize, h]

end Envelope

end Reticulum
