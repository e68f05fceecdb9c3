import Reticulum.Foundation.Fallible
import Reticulum.Wire.Hash

/-!
# Parsed packets

A packet with its header, its bytes and its cached hashes, `packet.rs` of the `rns-wire` crate.
The header, the offset of the payload and the hashes repeat what the bytes say. Building, parsing
and the one supported change, a hop more, keep them in agreement.

## Main definitions

* `Packet` with `new`, `fromRaw`, `data`, `incrementHops`.

## Main results

* `Packet.fromRaw_new` — a built packet is parsed back with its payload.
* `Packet.fromRaw_incrementHops` — a relayed packet is what its changed bytes parse to, under the
  same hashes.
-/

namespace Reticulum.Wire

open PacketHeader

/-- `PacketError`. -/
inductive PacketError
  | exceedsMtu (length : ℕ)
  | header (error : HeaderError)
  | tooShort
  deriving DecidableEq, Repr

/-- `Packet`. A hash is `none` where computing it would panic. -/
structure Packet where
  header : PacketHeader
  raw : Bytes
  dataOffset : ℕ
  packetHash : Option (Octets 32)
  truncatedHash : Option (Octets 16)
  deriving DecidableEq, Repr

namespace Packet

variable [Sha256] {h : PacketHeader} {raw payload : Bytes} {p : Packet}

/-- The packet of given bytes with a given header; both constructors end with it. -/
def hashed (header : PacketHeader) (raw : Bytes) (dataOffset : ℕ) : Packet where
  header := header
  raw := raw
  dataOffset := dataOffset
  packetHash := Wire.packetHash raw header.flags.headerType
  truncatedHash := truncatedPacketHash raw header.flags.headerType

/-- `Packet::new`. -/
def new (header : PacketHeader) (data : Bytes) : Except PacketError Packet :=
  let raw := header.pack ++ data
  if mtu < raw.length then .error (.exceedsMtu raw.length)
  else .ok (hashed header raw header.pack.length)

/-- `Packet::from_raw` and `Packet::from_raw_owned`. -/
def fromRaw (raw : Bytes) : Except PacketError Packet :=
  if raw.length < 19 then .error .tooShort
  else do
    let (header, dataOffset) ← (unpack raw).mapError .header
    return hashed header raw dataOffset

/-- `Packet::data`. -/
def data (p : Packet) : Bytes := p.raw.drop p.dataOffset

/-- `Packet::increment_hops`. -/
def incrementHops (p : Packet) : Packet :=
  if p.header.hops < 255 then
    { p with
      header := { p.header with hops := p.header.hops + 1 }
      raw := p.raw.set 1 (p.header.hops + 1) }
  else p

/-- A packet parses exactly when its header does, to the same header and offset. -/
theorem fromRaw_eq_ok :
    fromRaw raw = .ok p ↔
      ∃ h offset, unpack raw = .ok (h, offset) ∧ p = hashed h raw offset := by
  constructor
  · intro hp
    rw [fromRaw, ite_error_eq_ok, bind_eq_ok] at hp
    obtain ⟨-, ⟨h, offset⟩, hu, hp⟩ := hp
    exact ⟨h, offset, mapError_eq_ok.mp hu, (pure_eq_ok.mp hp).symm⟩
  · rintro ⟨h, offset, hu, rfl⟩
    have hlen : ¬ raw.length < 19 := by
      intro hlt
      rw [unpack, if_pos (show raw.length < headerMinsize from hlt)] at hu
      cases hu
    rw [fromRaw, if_neg hlen, hu]
    rfl

/-- A packet built from a canonical header is what its bytes parse to, and carries its payload. -/
theorem fromRaw_new (hc : h.Canonical) (hp : new h payload = .ok p) :
    fromRaw p.raw = .ok p ∧ p.data = payload := by
  rw [new, ite_error_eq_ok] at hp
  obtain rfl := Except.ok.inj hp.2
  refine ⟨fromRaw_eq_ok.mpr ⟨h, _, (unpack_pack_append_iff h payload).mpr hc, rfl⟩, ?_⟩
  exact List.drop_left

omit [Sha256] in
/-- The hop count is left out of the hashed bytes. -/
theorem getHashablePart_set_hops (raw : Bytes) (hops : UInt8) (headerType : HeaderType) :
    getHashablePart (raw.set 1 hops) headerType = getHashablePart raw headerType := by
  match raw with
  | [] => rfl
  | [_] => rfl
  | b0 :: _ :: body =>
    cases headerType <;> simp [getHashablePart, hashSkip, List.set_cons_succ]

/-- A hop more leaves both hashes as they were, and the packet is still what its bytes parse
to. -/
theorem fromRaw_incrementHops (hp : fromRaw raw = .ok p) :
    fromRaw p.incrementHops.raw = .ok p.incrementHops := by
  obtain ⟨h, offset, hu, rfl⟩ := fromRaw_eq_ok.mp hp
  by_cases hlt : h.hops < 255
  · have hhash : Wire.packetHash (raw.set 1 (h.hops + 1)) h.flags.headerType =
        Wire.packetHash raw h.flags.headerType := by
      rw [packetHash_eq, packetHash_eq, getHashablePart_set_hops]
    rw [incrementHops, if_pos (show (hashed h _ _).header.hops < 255 from hlt)]
    refine fromRaw_eq_ok.mpr ⟨_, _, unpack_set_hops hu (h.hops + 1), ?_⟩
    simp only [hashed, truncatedPacketHash, hhash]
  · rw [incrementHops, if_neg (show ¬ (hashed h _ _).header.hops < 255 from hlt)]
    exact hp

/-- SHA-256 of the hashable part of the packet below. -/
@[reducible] private def relayedSha256 : Sha256 where
  digest _ := .ofNat 0xfa48d881e2382c0a6caec5188e308caba128c38f09dec432965c79204114393d

omit [Sha256] in
/-- A packet with a transport id and a payload, built and relayed, is what its bytes parse to. -/
theorem fromRaw_incrementHops_relayed :
    letI := relayedSha256
    ∃ p, new relayedHeader [1, 2, 3] = .ok p ∧ p.data = [1, 2, 3] ∧ p.incrementHops.header.hops = 4 ∧
      fromRaw p.incrementHops.raw = .ok p.incrementHops := by
  let _ := relayedSha256
  have hnew : new relayedHeader [1, 2, 3] = .ok (hashed relayedHeader _ _) := rfl
  obtain ⟨hraw, hdata⟩ := fromRaw_new ⟨by decide, by decide⟩ hnew
  exact ⟨_, hnew, hdata, rfl, fromRaw_incrementHops hraw⟩

end Packet

end Reticulum.Wire
