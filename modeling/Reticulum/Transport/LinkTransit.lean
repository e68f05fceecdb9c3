import Reticulum.Foundation.Fallible
import Reticulum.Transport.Ifac
import Reticulum.Wire.LinkSignalling

/-!
# Link requests in transit

A transport node may lower the MTU that a link request signals, or drop the trailer, to what its
two interfaces carry. The capacity arithmetic follows `interface_ownership.rs`, the rewriting of
the trailer `link_transit.rs` of the `rns-transport` crate.
-/

namespace Reticulum.Transport

open Wire

/-! ### Interface capacities -/

/-- `InterfaceCapacityError`. -/
inductive InterfaceCapacityError
  | empty
  | invalidIfac
  | ifacExceedsWire (ifacBytes wireBytes : ℕ)
  | linkCapacityUnavailable (interfaceId clearMtu required : ℕ)
  deriving DecidableEq, Repr

/-- `InterfacePacketCapacity`. -/
structure InterfacePacketCapacity where
  maxClearPacketBytes : ℕ
  maxWirePacketBytes : ℕ
  linkMtuUpgrade : Bool
  deriving DecidableEq, Repr

namespace InterfacePacketCapacity

/-- `effective_clear_mtu`. -/
def effectiveClearMtu (c : InterfacePacketCapacity) (activeIfacBytes : ℕ) :
    Except InterfaceCapacityError ℕ :=
  if c.maxClearPacketBytes = 0 ∨ c.maxWirePacketBytes = 0 then .error .empty
  else if 64 < activeIfacBytes then .error .invalidIfac
  else
    let wireLimit :=
      if 0 < activeIfacBytes then min c.maxWirePacketBytes maxIfacWireBytes
      else c.maxWirePacketBytes
    if wireLimit < activeIfacBytes then
      .error (.ifacExceedsWire activeIfacBytes c.maxWirePacketBytes)
    else
      let effective := min c.maxClearPacketBytes (wireLimit - activeIfacBytes)
      if effective = 0 then .error .empty else .ok effective

/-- `link_ceiling`. -/
def linkCeiling (c : InterfacePacketCapacity) (interfaceId activeIfacBytes : ℕ) :
    Except InterfaceCapacityError ℕ := do
  let clearMtu ← c.effectiveClearMtu activeIfacBytes
  if clearMtu < 500 then .error (.linkCapacityUnavailable interfaceId clearMtu 500)
  else if c.linkMtuUpgrade then return min clearMtu maxSignalledLinkMtu
  else return 500

variable {interfaceId activeIfacBytes ceiling : ℕ} {c : InterfacePacketCapacity}

/-- A link ceiling is at least the base MTU. -/
theorem base_le_of_linkCeiling
    (h : c.linkCeiling interfaceId activeIfacBytes = .ok ceiling) : baseLinkMtu ≤ ceiling := by
  obtain ⟨clearMtu, -, h⟩ := bind_eq_ok.mp h
  obtain ⟨hlow, h⟩ := ite_error_eq_ok.mp h
  split_ifs at h with hup
  · obtain rfl := pure_eq_ok.mp h
    exact Nat.le_min.mpr ⟨Nat.le_of_not_lt hlow, by decide⟩
  · obtain rfl := pure_eq_ok.mp h
    exact le_rfl

/-- Without the upgrade it is the base MTU. -/
theorem linkCeiling_of_not_upgrade (hup : c.linkMtuUpgrade = false)
    (h : c.linkCeiling interfaceId activeIfacBytes = .ok ceiling) : ceiling = baseLinkMtu := by
  obtain ⟨clearMtu, -, h⟩ := bind_eq_ok.mp h
  obtain ⟨-, h⟩ := ite_error_eq_ok.mp h
  rw [hup, if_neg Bool.false_ne_true] at h
  exact (pure_eq_ok.mp h).symm

end InterfacePacketCapacity

open InterfacePacketCapacity

/-- The fields of `InterfaceEntry` that forwarding reads. -/
structure InterfaceEntry where
  /-- Whether the registration still owns the interface. -/
  ownerIsCurrent : Bool
  packetCapacity : InterfacePacketCapacity
  ifacKey : Option (Octets 64)
  ifacSize : ℕ
  deriving DecidableEq, Repr

/-- `InterfaceEntry::active_ifac_bytes`. -/
def InterfaceEntry.activeIfacBytes (entry : InterfaceEntry) : ℕ :=
  if entry.ifacKey.isSome then entry.ifacSize else 0

/-! ### Attenuation -/

/-- `LinkTransitError`. -/
inductive LinkTransitError
  | invalidSignalling (e : LinkSignallingError)
  | capacity (e : InterfaceCapacityError)
  | unsupportedTransitModeTransform
  | staleInterface
  deriving DecidableEq, Repr

/-- `attenuate_request`: the payload to forward, its mode and the accepted MTU ceiling. -/
def attenuateRequest (payload : Bytes) (ingressId : ℕ) (ingress : InterfaceEntry) (egressId : ℕ)
    (egress : InterfaceEntry) : Except LinkTransitError (Bytes × ℕ × ℕ) := do
  let signal ← (parseRequestSignalling payload).mapError .invalidSignalling
  if !ingress.ownerIsCurrent || !egress.ownerIsCurrent then .error .staleInterface
  else
    let incoming ← (ingress.packetCapacity.linkCeiling ingressId
      ingress.activeIfacBytes).mapError .capacity
    let outgoing ← (egress.packetCapacity.linkCeiling egressId
      egress.activeIfacBytes).mapError .capacity
    let ceiling := min (min signal.mtu.get incoming) outgoing
    if signal.mode ≠ defaultLinkMode then
      match SignallingData.unpack (payload.drop 64) with
      | none => .error .unsupportedTransitModeTransform
      | some raw =>
        if raw.mtu ≠ ceiling then .error .unsupportedTransitModeTransform
        else return (payload, signal.mode, ceiling)
    else if signal.signallingPresent && egress.packetCapacity.linkMtuUpgrade then do
      let signalling ← (SignallingData.tryNew signal.mode ceiling).mapError .invalidSignalling
      return (payload.take 64 ++ signalling.pack, signal.mode, ceiling)
    else return (payload.take 64, signal.mode, ceiling)

/-- A request after attenuation by the ceilings of two interfaces: it parses to the least of the MTU
that was offered and the ceilings, with the same mode behind the same key block, and where the mode
is not the default one it is the same request. -/
structure Attenuates (ceilings : ℕ × ℕ) (payload payload' : Bytes) : Prop where
  parses : ∃ signal signal', parseRequestSignalling payload = .ok signal ∧
    parseRequestSignalling payload' = .ok signal' ∧
    signal'.mtu.get = min (min signal.mtu.get ceilings.1) ceilings.2 ∧ signal'.mode = signal.mode ∧
    (signal.mode ≠ defaultLinkMode → payload' = payload)
  keyBlock : payload'.take 64 = payload.take 64

variable {ingressId egressId mode ceiling : ℕ} {ingress egress : InterfaceEntry}
  {payload payload' : Bytes}

section

variable (h : attenuateRequest payload ingressId ingress egressId egress = .ok (payload', mode, ceiling))

include h

/-- What attenuation returns. -/
theorem attenuateRequest_attenuates :
    ∃ incoming outgoing,
      ingress.packetCapacity.linkCeiling ingressId ingress.activeIfacBytes = .ok incoming ∧
      egress.packetCapacity.linkCeiling egressId egress.activeIfacBytes = .ok outgoing ∧
      Attenuates (incoming, outgoing) payload payload' ∧
      ∃ signal, parseRequestSignalling payload = .ok signal ∧ mode = signal.mode ∧
        ceiling = min (min signal.mtu.get incoming) outgoing := by
  obtain ⟨signal, hsignal, h⟩ := bind_eq_ok.mp h
  rw [mapError_eq_ok] at hsignal
  obtain ⟨-, h⟩ := ite_error_eq_ok.mp h
  obtain ⟨incoming, hincoming, h⟩ := bind_eq_ok.mp h
  obtain ⟨outgoing, houtgoing, h⟩ := bind_eq_ok.mp h
  rw [mapError_eq_ok] at hincoming houtgoing
  refine ⟨incoming, outgoing, hincoming, houtgoing, ?_⟩
  have hin := base_le_of_linkCeiling hincoming
  have hout := base_le_of_linkCeiling houtgoing
  have hbase := signal.mtu.base_le
  have hlen : 64 ≤ payload.length := by
    rcases length_of_parse hsignal with ⟨hl, -⟩ | ⟨hl, -⟩ <;> omega
  have hblock : (payload.take 64).length = 64 := by simp [hlen]
  split_ifs at h with hmode hup
  · -- another mode is passed on as it is, or not at all
    split at h
    · cases h
    next trailer htrailer =>
      obtain ⟨hmtu, h⟩ := ite_error_eq_ok.mp h
      obtain ⟨rfl, rfl, rfl⟩ := pure_eq_ok.mp h
      have hceiling := not_not.mp hmtu
      have hsame : signal.mtu.get = min (min signal.mtu.get incoming) outgoing := by
        rcases length_of_parse hsignal with ⟨-, hdefault, -⟩ | ⟨-, trailer', htrailer', -, hread⟩
        · exact absurd hdefault hmode
        · obtain rfl := Option.some.inj (htrailer.symm.trans htrailer')
          rw [← hceiling]
          refine LinkMtu.get_of_tryFromSignal hread ?_
          have : 0 < baseLinkMtu := by decide
          omega
      exact ⟨⟨⟨signal, signal, hsignal, hsignal, hsame, rfl, fun _ => rfl⟩, rfl⟩, signal, hsignal,
        rfl, rfl⟩
  · obtain ⟨signalling, hnew, h⟩ := bind_eq_ok.mp h
    obtain ⟨rfl, rfl, rfl⟩ := pure_eq_ok.mp h
    rw [mapError_eq_ok] at hnew
    obtain ⟨hmodes, hnew⟩ := ite_error_eq_ok.mp hnew
    obtain ⟨mtu, hmtu, hnew⟩ := bind_eq_ok.mp hnew
    obtain rfl := pure_eq_ok.mp hnew
    have hget : mtu.get = min (min signal.mtu.get incoming) outgoing := by
      refine LinkMtu.get_of_tryFromSignal hmtu ?_
      have : 0 < baseLinkMtu := by decide
      omega
    refine ⟨⟨⟨signal, _, hsignal, parse_append_pack hblock (Nat.not_lt.mp hmodes) mtu, hget, rfl,
      fun h => absurd h hmode⟩, ?_⟩, signal, hsignal, rfl, rfl⟩
    rw [List.take_append_of_le_length hblock.ge, List.take_take, Nat.min_self]
  · -- without a trailer the base MTU is left, and it is the least of the ceilings
    obtain ⟨rfl, rfl, rfl⟩ := pure_eq_ok.mp h
    have hbound : min signal.mtu.get outgoing ≤ baseLinkMtu := by
      rw [Bool.and_eq_true, not_and_or, Bool.not_eq_true, Bool.not_eq_true] at hup
      rcases hup with habsent | hup
      · rw [mtu_of_parse_absent hsignal habsent]
        exact Nat.min_le_left _ _
      · rw [linkCeiling_of_not_upgrade hup houtgoing]
        exact Nat.min_le_right _ _
    have hceiling : LinkMtu.base.get = min (min signal.mtu.get incoming) outgoing := by
      change baseLinkMtu = _
      omega
    refine ⟨⟨⟨signal, _, hsignal, parse_of_length hblock, hceiling, ?_, fun h => absurd h hmode⟩, ?_⟩,
      signal, hsignal, rfl, rfl⟩
    · exact (not_not.mp hmode).symm
    · rw [List.take_take, Nat.min_self]

/-- Attenuation keeps the key block and the mode of a request and raises no MTU. -/
theorem attenuateRequest_ok :
    payload'.take 64 = payload.take 64 ∧ ∃ signal, parseRequestSignalling payload = .ok signal ∧
      mode = signal.mode ∧ ceiling ≤ signal.mtu.get := by
  obtain ⟨incoming, outgoing, -, -, hattenuates, signal, hsignal, hmode, rfl⟩ :=
    attenuateRequest_attenuates h
  exact ⟨hattenuates.keyBlock, signal, hsignal, hmode,
    (Nat.min_le_left _ _).trans (Nat.min_le_left _ _)⟩

end

end Reticulum.Transport
