import Reticulum.Foundation.Fallible
import Reticulum.Wire.Header

/-!
# Link signalling

A link request and a link proof may end in three bytes that hold a cipher mode and an MTU. The
checked reading of that trailer follows `link_signalling.rs` of the `rns-wire` crate.
-/

namespace Reticulum.Wire

/-- `BASE_LINK_MTU`. -/
def baseLinkMtu : ℕ := 500

/-- `MAX_SIGNALLED_LINK_MTU`. -/
def maxSignalledLinkMtu : ℕ := 0x1fffff

/-- `DEFAULT_LINK_MODE`. -/
def defaultLinkMode : ℕ := 1

/-- `TOKEN_OVERHEAD`: initialisation vector and authentication tag. -/
def tokenOverhead : ℕ := 48

/-- `AES128_BLOCKSIZE`. -/
def aes128Blocksize : ℕ := 16

/-- `LINK_MDU`. -/
def linkMdu : ℕ :=
  (mtu - 1 - headerMinsize - tokenOverhead) / aes128Blocksize * aes128Blocksize - 1

/-- `LinkSignallingError`. -/
inductive LinkSignallingError
  | invalidLength (actual legacy modern : ℕ)
  | invalidMtu (mtu : ℕ)
  | invalidMode (mode : ℕ)
  | mduUnavailable
  deriving DecidableEq, Repr

/-! ### The MTU -/

/-- A validated MTU. -/
structure LinkMtu where
  get : ℕ
  base_le : baseLinkMtu ≤ get
  le_max : get ≤ maxSignalledLinkMtu
  deriving DecidableEq, Repr

namespace LinkMtu

/-- `LinkMtu::BASE`. -/
def base : LinkMtu := ⟨baseLinkMtu, le_rfl, by decide⟩

@[ext] theorem ext {a b : LinkMtu} (h : a.get = b.get) : a = b := by
  cases a
  cases b
  simpa using h

/-- `LinkMtu::try_from_signal`: a missing or zero signal means the base MTU. -/
def tryFromSignal : Option ℕ → Except LinkSignallingError LinkMtu
  | none | some 0 => .ok base
  | some value =>
    if h : baseLinkMtu ≤ value ∧ value ≤ maxSignalledLinkMtu then .ok ⟨value, h.1, h.2⟩
    else .error (.invalidMtu value)

/-- `LinkMtu::checked_mdu`. -/
def checkedMdu (mtu : LinkMtu) : Except LinkSignallingError ℕ :=
  let overhead := 1 + headerMinsize + tokenOverhead
  if mtu.get < overhead then .error .mduUnavailable
  else
    let rounded := (mtu.get - overhead) / aes128Blocksize * aes128Blocksize
    if rounded < 1 then .error .mduUnavailable else .ok (rounded - 1)

/-- Signalling a validated MTU reads back as it. -/
@[simp] theorem tryFromSignal_get (mtu : LinkMtu) : tryFromSignal (some mtu.get) = .ok mtu := by
  obtain ⟨value, hlo, hhi⟩ := mtu
  cases value with
  | zero => simp [baseLinkMtu] at hlo
  | succ n => simp [tryFromSignal, hlo, hhi]

end LinkMtu

/-! ### The trailer -/

/-- `SignallingData`: raw mode and raw MTU field. -/
structure SignallingData where
  mode : ℕ
  mtu : ℕ
  deriving DecidableEq, Repr

namespace SignallingData

/-- `SignallingData::new`. -/
def new (mode mtu : ℕ) : SignallingData where
  mode := mode &&& 7
  mtu := mtu &&& maxSignalledLinkMtu

/-- `SignallingData::try_new`. -/
def tryNew (mode mtu : ℕ) : Except LinkSignallingError SignallingData :=
  if 7 < mode then .error (.invalidMode mode)
  else do
    let mtu ← LinkMtu.tryFromSignal (some mtu)
    return { mode, mtu := mtu.get }

/-- `SignallingData::pack`. -/
def pack (s : SignallingData) : Bytes :=
  be24 ((s.mtu &&& maxSignalledLinkMtu) ||| ((s.mode &&& 7) <<< 21))

/-- `SignallingData::unpack`. -/
def unpack : Bytes → Option SignallingData
  | a :: b :: c :: _ =>
    let value := ofBe24 a b c
    some { mode := (value >>> 21) &&& 7, mtu := value &&& maxSignalledLinkMtu }
  | _ => none

@[simp] theorem length_pack (s : SignallingData) : s.pack.length = 3 := rfl

private theorem and_seven (n : ℕ) : n &&& 7 = n % 8 := Nat.and_two_pow_sub_one_eq_mod n 3

private theorem and_max (n : ℕ) : n &&& maxSignalledLinkMtu = n % 2 ^ 21 :=
  Nat.and_two_pow_sub_one_eq_mod n 21

/-- The trailer, as arithmetic. -/
theorem pack_eq (s : SignallingData) : s.pack = be24 (2 ^ 21 * (s.mode % 8) + s.mtu % 2 ^ 21) := by
  have hlt : s.mtu % 2 ^ 21 < 2 ^ 21 := Nat.mod_lt _ (by decide)
  rw [pack, and_max, and_seven, Nat.shiftLeft_eq, Nat.mul_comm (s.mode % 8), Nat.or_comm,
    Nat.two_pow_add_eq_or_of_lt hlt]

/-- Reading a trailer, as arithmetic. -/
theorem unpack_be24 {v : ℕ} (h : v < 2 ^ 24) :
    unpack (be24 v) = some { mode := v / 2 ^ 21, mtu := v % 2 ^ 21 } := by
  have hmode : v / 2 ^ 21 % 8 = v / 2 ^ 21 := Nat.mod_eq_of_lt (by omega)
  simp only [be24, unpack, ofBe24_be24 h, Nat.shiftRight_eq_div_pow, and_seven, and_max, hmode]

variable {s : SignallingData}

/-- The trailer of a mode and an MTU that fit reads back as them. -/
theorem unpack_pack (hmode : s.mode ≤ 7)
    (hmtu : s.mtu ≤ maxSignalledLinkMtu) : unpack s.pack = some s := by
  obtain ⟨mode, mtu⟩ := s
  replace hmode : mode ≤ 7 := hmode
  replace hmtu : mtu < 2 ^ 21 := Nat.lt_succ_of_le hmtu
  rw [pack_eq, unpack_be24 (by omega)]
  congr 2 <;> simp only <;> omega

/-- Every three bytes are the trailer of what they read as. -/
theorem pack_unpack {a b c : UInt8} (h : unpack [a, b, c] = some s) : s.pack = [a, b, c] := by
  have hlt := ofBe24_lt a b c
  rw [← be24_ofBe24 a b c, unpack_be24 hlt] at h
  obtain rfl := Option.some.inj h
  rw [pack_eq, ← be24_ofBe24 a b c]
  congr 1
  simp only
  omega

end SignallingData

open SignallingData

/-! ### The checked parsers -/

/-- `LinkSignalling`: the checked reading of a request or proof. -/
structure LinkSignalling where
  mode : ℕ
  mtu : LinkMtu
  signallingPresent : Bool
  deriving DecidableEq, Repr

/-- `parse`: a payload of `legacy` bytes, or the same with a trailer. -/
def parse (data : Bytes) (legacy : ℕ) : Except LinkSignallingError LinkSignalling :=
  if data.length = legacy then
    .ok { mode := defaultLinkMode, mtu := .base, signallingPresent := false }
  else if data.length ≠ legacy + 3 then
    .error (.invalidLength data.length legacy (legacy + 3))
  else
    match unpack (data.drop legacy) with
    | none => .error (.invalidLength data.length legacy (legacy + 3))
    | some signalling => do
      let mtu ← LinkMtu.tryFromSignal (some signalling.mtu)
      return { mode := signalling.mode, mtu, signallingPresent := true }

/-- `parse_request_signalling`. -/
def parseRequestSignalling (data : Bytes) : Except LinkSignallingError LinkSignalling :=
  parse data 64

/-- `parse_proof_signalling`. -/
def parseProofSignalling (data : Bytes) : Except LinkSignallingError LinkSignalling :=
  parse data 96

variable {legacy : ℕ} {data : Bytes}

/-- A payload of the legacy shape offers the default mode and the base MTU. -/
theorem parse_of_length (h : data.length = legacy) :
    parse data legacy =
      .ok { mode := defaultLinkMode, mtu := .base, signallingPresent := false } := by
  rw [parse, if_pos h]

/-- A payload with the trailer of a mode and a validated MTU offers them. -/
theorem parse_append_pack {block : Bytes} (h : block.length = legacy) {mode : ℕ}
    (hmode : mode ≤ 7) (mtu : LinkMtu) :
    parse (block ++ pack { mode, mtu := mtu.get }) legacy =
      .ok { mode, mtu, signallingPresent := true } := by
  subst h
  have hdrop : (block ++ pack { mode, mtu := mtu.get }).drop block.length =
      pack { mode, mtu := mtu.get } := by simp
  rw [parse, if_neg (by simp), if_neg (by simp), hdrop,
    unpack_pack hmode mtu.le_max]
  simp only [LinkMtu.tryFromSignal_get]
  rfl

variable {signal : LinkSignalling}

/-- What parses has one of the two shapes; a trailer reads as the mode it gives. -/
theorem length_of_parse (h : parse data legacy = .ok signal) :
    data.length = legacy ∧ signal.mode = defaultLinkMode ∧ signal.mtu = .base ∨
      data.length = legacy + 3 ∧ ∃ s, unpack (data.drop legacy) = some s ∧
        s.mode = signal.mode ∧ LinkMtu.tryFromSignal (some s.mtu) = .ok signal.mtu := by
  unfold parse at h
  split_ifs at h with hlegacy hmodern
  · obtain rfl := Except.ok.inj h
    exact .inl ⟨hlegacy, rfl, rfl⟩
  · refine .inr ⟨not_not.mp hmodern, ?_⟩
    cases hs : unpack (data.drop legacy) with
    | none =>
      rw [hs] at h
      cases h
    | some s =>
      rw [hs] at h
      cases hm : LinkMtu.tryFromSignal (some s.mtu) with
      | error e =>
        simp only [hm] at h
        cases h
      | ok mtu =>
        simp only [hm] at h
        obtain rfl := Except.ok.inj h
        exact ⟨s, rfl, rfl, hm⟩

/-- Without signalling a payload offers the base MTU. -/
theorem mtu_of_parse_absent (h : parse data legacy = .ok signal)
    (habsent : signal.signallingPresent = false) : signal.mtu = .base := by
  unfold parse at h
  split_ifs at h
  · obtain rfl := Except.ok.inj h
    rfl
  · split at h
    · cases h
    · obtain ⟨mtu, -, h⟩ := bind_eq_ok.mp h
      obtain rfl := pure_eq_ok.mp h
      cases habsent

/-- A signalled MTU that is not zero is the one that counts. -/
theorem LinkMtu.get_of_tryFromSignal {value : ℕ} {mtu : LinkMtu}
    (h : tryFromSignal (some value) = .ok mtu) (hvalue : value ≠ 0) : mtu.get = value := by
  cases value with
  | zero => exact absurd rfl hvalue
  | succ n =>
    simp only [tryFromSignal] at h
    split_ifs at h
    exact Except.ok.inj h ▸ rfl

end Reticulum.Wire
