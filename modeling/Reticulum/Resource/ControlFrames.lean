import Reticulum.Resource.Frames
import Reticulum.Resource.Terminal

/-!
# Control messages fit their frames

Each control message of a transfer is sent in one packet of the base MTU. Advertisements are checked
before they are sent. Requests are bounded by the window, which stays within `WINDOW_MAX` under
every input, and hash map updates by the stride of the hash map.
-/

namespace Reticulum.Resource

open InboundTransfer Octets MessagePack List

/-! ### Sizes -/

/-- A payload fits a packet of the base MTU behind the shortest header. -/
def FitsFrame (context : Wire.PacketContext) (encrypted : Bool) (payload : Bytes) : Prop :=
  checkControlFrame context payload.length encrypted Wire.headerMinsize Wire.mtu = .ok ()

/-- The payloads of an action fit their packets. Parts are no control messages. -/
def TransferAction.Fits : TransferAction → Prop
  | .sendAdvertisement data => FitsFrame .resourceAdv true data
  | .sendRequest data => FitsFrame .resourceReq true data
  | .sendHmu data => FitsFrame .resourceHmu true data
  | .sendProof data => FitsFrame .resourcePrf false data
  | .sendCancel .icl resourceHash => FitsFrame .resourceIcl true resourceHash.1
  | .sendCancel .rcl resourceHash => FitsFrame .resourceRcl true resourceHash.1
  | .none | .sendPart _ _ | .complete | .failed _ => True

variable {context : Wire.PacketContext}

/-- Encrypted payloads of up to 415 bytes fit. -/
theorem fitsFrame_of_le {payload : Bytes}
    (h : payload.length ≤ 415) : FitsFrame context true payload := by
  refine (checkControlFrame_encrypted (by decide)).mpr ?_
  have hheader : Wire.headerMinsize = 19 := rfl
  have hmtu : Wire.mtu = 500 := rfl
  omega

theorem fits_sendCancel (type : CancelType) (resourceHash : Octets 32) :
    (TransferAction.sendCancel type resourceHash).Fits := by
  have hlen := resourceHash.2
  cases type with
  | icl => exact fitsFrame_of_le (by omega)
  | rcl => exact fitsFrame_of_le (by omega)

/-- A hash map update has at most one stride of map hashes. -/
theorem length_encodeHashmapUpdate_le (resourceHash : Octets 32) (segment : ℕ) {hashes : Bytes}
    (h : hashes.length ≤ hashmapStride * 4) :
    (encodeHashmapUpdate resourceHash segment hashes).length ≤ 341 := by
  have huint : (writeUint segment).length ≤ 9 := by
    simp only [writeUint]
    split_ifs <;> simp
  have hbin : (writeBin hashes).length ≤ 3 + hashes.length := by
    have hstride : hashmapStride * 4 = 296 := rfl
    simp only [writeBin, length_append]
    split_ifs <;> simp
    omega
  have harray : (writeArrayLen 2).length = 1 := rfl
  have hstride : hashmapStride * 4 = 296 := rfl
  simp only [encodeHashmapUpdate, length_append, length_val, harray]
  omega

/-! ### The sender -/

namespace OutboundTransfer

/-- What a call of an outgoing transfer emits. -/
def actions (t : OutboundTransfer) : OutboundCall → List TransferAction
  | .tick now => [(t.tick now).2]
  | .checkTimeout now => [(t.checkTimeout now).2]
  | .handleRequestPacket packetHash requestData now =>
    (t.handleRequestPacket packetHash requestData now).2
  | .handleRequest requestData now => (t.handleRequest requestData now).2
  | .handleHmu _ _ | .handleProof _ | .handleCancel => []

variable {t : OutboundTransfer}

/-- An advertisement is checked before it is sent. -/
theorem fits_createAdvertisement {bytes : Bytes} (h : t.createAdvertisement = .ok bytes) :
    (TransferAction.sendAdvertisement bytes).Fits := by
  have hchecked (h : (do checkAdvertisement (advertisement t.resource) Wire.mtu
                         return (advertisement t.resource).pack) = .ok bytes) :
      (TransferAction.sendAdvertisement bytes).Fits := by
    obtain ⟨_, hcheck, h⟩ := bind_eq_ok.mp h
    obtain rfl := pure_eq_ok.mp h
    obtain ⟨len, hlen, hcheck⟩ := bind_eq_ok.mp hcheck
    rw [ResourceAdvertisement.encodedLen, ite_error_eq_ok] at hlen
    obtain rfl := Except.ok.inj hlen.2
    exact hcheck
  unfold createAdvertisement at h
  split at h
  · obtain ⟨_, -, h⟩ := bind_eq_ok.mp h
    exact hchecked h
  · exact hchecked h

variable (t)

theorem fits_checkTimeout (now : ℕ) : (t.checkTimeout now).2.Fits := by
  unfold checkTimeout
  cases t.resource.state with
  | advertised =>
    dsimp only
    split_ifs
    · trivial
    · cases hadvertisement : createAdvertisement
          { t with retries := t.retries + 1, startedAt := now } with
      | ok bytes => exact fits_createAdvertisement hadvertisement
      | error e => trivial
    · trivial
  | transferring | awaitingProof =>
    dsimp only
    split_ifs <;> trivial
  | none | queued | assembling | complete | failed | corrupt | rejected => trivial

theorem fits_tick (now : ℕ) : (t.tick now).2.Fits := by
  unfold tick
  cases t.resource.state with
  | complete | failed | rejected | corrupt => trivial
  | none | queued | advertised | transferring | awaitingProof | assembling =>
    dsimp only
    split_ifs
    · exact t.fits_checkTimeout now
    · cases hadvertisement : t.createAdvertisement with
      | ok bytes => exact fits_createAdvertisement hadvertisement
      | error e => trivial

variable (r : OutboundResource)

/-- The map hashes of a segment fill at most one stride. -/
theorem length_hashmapSegment_le (segment : ℕ) :
    (hashmapSegment r segment).length ≤ hashmapStride * 4 := by
  have hstride : hashmapMaxLen Wire.linkMdu = hashmapStride := by decide
  simp only [hashmapSegment, length_flatMap_val, length_drop, length_take, hstride]
  have hend : min ((segment + 1) * hashmapStride) r.numParts ≤ segment * hashmapStride +
      hashmapStride := by
    rw [Nat.succ_mul]
    exact Nat.min_le_left _ _
  omega

theorem fits_hashmapAnswer (partIndex : ℕ) : (hashmapAnswer r partIndex).Fits := by
  unfold hashmapAnswer
  dsimp only
  split_ifs
  · exact fits_sendCancel _ _
  · exact fitsFrame_of_le ((length_encodeHashmapUpdate_le _ _
      (length_hashmapSegment_le r _)).trans (by decide))

theorem fits_handleRequest (requestData : Bytes) (now : ℕ) :
    ∀ a ∈ (t.handleRequest requestData now).2, a.Fits := by
  have hparts (sent : List (ℕ × Bytes)) :
      ∀ a ∈ sent.map fun part => TransferAction.sendPart part.1 part.2, a.Fits := by
    intro a ha
    obtain ⟨part, -, rfl⟩ := mem_map.mp ha
    trivial
  intro a ha
  by_cases hlive : t.resource.state.isTerminal = true
  · rw [handleRequest, if_pos hlive] at ha
    cases ha
  rcases hparse : parseRequest t.resource.resourceHash requestData with _ | ⟨_ | mh, requested⟩
  · rw [handleRequest, if_neg hlive, hparse] at ha
    cases ha
  · obtain ⟨_, heq, -⟩ := handleRequest_of_none hlive now hparse
    rw [heq] at ha
    exact hparts _ a ha
  · obtain ⟨_, heq, -⟩ := handleRequest_of_some hlive now hparse
    rw [heq] at ha
    rcases mem_append.mp ha with ha | ha
    · exact hparts _ a ha
    · obtain rfl := mem_singleton.mp ha
      exact fits_hashmapAnswer _ _

/-- Whatever its state, a sender emits what fits. -/
theorem fits_actions (c : OutboundCall) : ∀ a ∈ t.actions c, a.Fits := by
  intro a ha
  cases c with
  | tick now => exact mem_singleton.mp ha ▸ t.fits_tick now
  | checkTimeout now => exact mem_singleton.mp ha ▸ t.fits_checkTimeout now
  | handleRequestPacket packetHash requestData now =>
    rw [actions, handleRequestPacket] at ha
    split_ifs at ha
    · cases ha
    · exact fits_handleRequest _ requestData now a ha
  | handleRequest requestData now => exact t.fits_handleRequest requestData now a ha
  | handleHmu hmuData now => cases ha
  | handleProof proofData => cases ha
  | handleCancel => cases ha

end OutboundTransfer

/-! ### The receiver -/

/-- A call of an incoming transfer, or of what its owner does with it besides. -/
inductive ReceiverCall (F : Type)
  | engine (c : InboundCall)
  | complete (decryptFn : Option (Bytes → Except ResourceError Bytes))
  | createHmu
  | seedPreviousEifr (bitsPerSec : F)
  | updateEifr

namespace InboundTransfer

variable {F : Type} {t : InboundTransfer F} (r : InboundResource)

/-- Collecting adds at most one hash for each part. -/
theorem length_collect_le (pns : List ℕ) (requested : List (Octets 4)) :
    (collect r pns requested).1.length ≤ requested.length + pns.length := by
  induction pns generalizing requested with
  | nil => simp [collect]
  | cons pn pns ih =>
    rw [collect, length_cons]
    split
    · split
      · exact Nat.le_add_right _ _
      next mh _ =>
        split
        · simp
        · have hrest := ih (requested ++ [mh])
          rw [length_append, length_singleton] at hrest
          omega
    · split
      · exact Nat.le_add_right _ _
      · have hrest := ih requested
        omega

theorem windowEnd_sub_le : r.windowEnd - r.consecutiveCompleted ≤ r.window.window := by
  have : r.windowEnd ≤ r.consecutiveCompleted + r.window.window := Nat.min_le_left _ _
  omega

theorem length_optionHash_le (mh : Option (Octets 4)) : ((mh.map Subtype.val).getD []).length ≤ 4 := by
  cases mh with
  | none => exact Nat.zero_le 4
  | some mh => exact mh.2.le

variable (t)

/-- A request is bounded by the window. -/
theorem length_requestData_le : t.requestData.length ≤ 37 + t.resource.window.window * 4 := by
  have hcollect : (missing t.resource).1.length ≤ _ := length_collect_le t.resource _ []
  have hwindow := windowEnd_sub_le t.resource
  have hlast := length_optionHash_le
    (if t.hashmapHeight = 0 then none else t.resource.mapHashes[t.hashmapHeight - 1]?)
  rw [length_range', length_nil, Nat.zero_add] at hcollect
  simp only [requestData, length_append, length_flatMap_val, length_val]
  split_ifs at hlast ⊢ <;> simp only [length_cons, length_nil] <;> omega

/-- So is the feedback to the sender. -/
theorem length_createHmu_le : t.createHmu.length ≤ 37 + t.resource.window.window * 4 := by
  have hwindow := windowEnd_sub_le t.resource
  have hlast := length_optionHash_le t.resource.mapHashes.getLast?
  unfold createHmu
  dsimp only
  split_ifs
  · simp only [length_append, length_cons, length_val]
    omega
  · have hneeded := length_filterMap_le
      (fun i => if t.resource.parts[i]? = some none then t.resource.mapHashes[i]? else none)
      (List.range' t.resource.consecutiveCompleted
        (t.resource.windowEnd - t.resource.consecutiveCompleted))
    rw [length_range'] at hneeded
    simp only [length_append, length_cons, length_flatMap_val, length_val]
    omega

variable {t}

/-- Under a bounded window, payloads of that size fit. -/
theorem fitsFrame_of_bounded {payload : Bytes} (hb : t.resource.window.Bounded)
    (h : payload.length ≤ 37 + t.resource.window.window * 4) : FitsFrame context true payload := by
  have hwindow : t.resource.window.window ≤ 75 := hb.window
  exact fitsFrame_of_le (by omega)

theorem fits_requestNext (hb : t.resource.window.Bounded) (now : ℕ) :
    (t.requestNext now).2.Fits := by
  rcases t.requestNext_eq now with heq | ⟨-, -, haction⟩
  · rw [heq]
    trivial
  · rw [haction]
    exact fitsFrame_of_bounded hb t.length_requestData_le

theorem fits_hashmapUpdate (hb : t.resource.window.Bounded) (segment : ℕ) (hashmapData : Bytes)
    (now : ℕ) : (t.hashmapUpdate segment hashmapData now).2.Fits := by
  unfold hashmapUpdate
  dsimp only
  split_ifs
  · trivial
  · exact fits_sendCancel _ _
  · exact fits_sendCancel _ _
  · exact fits_sendCancel _ _
  · trivial
  · refine fits_requestNext ?_ now
    exact hb

section

variable [Binary64 F]

theorem fits_checkTimeout (hb : t.resource.window.Bounded) (now : ℕ) :
    (t.checkTimeout now).2.Fits := by
  unfold checkTimeout
  split_ifs
  · trivial
  dsimp only
  split_ifs
  · exact fits_requestNext hb.shrink now
  · trivial
  · trivial

variable [Sha256]

theorem fits_receivePart (hb : t.resource.window.Bounded) (data : Bytes) (now : ℕ) :
    (t.receivePart data now).2.Fits := by
  rcases t.receivePart_eq data now with heq | ⟨hstate, i, hslot⟩
  · rw [heq]
    trivial
  · rw [receivePart_of_slot hstate hslot]
    split_ifs
    · trivial
    · exact fits_requestNext ((((t.keeps_place i data now).trans (keeps_measureWindow _)).trans
        (keeps_growWindow _ now)).bounded hb) now
    · trivial

/-- What a call of an incoming transfer emits. -/
def actions (t : InboundTransfer F) : InboundCall → List TransferAction
  | .receivePart data now => [(t.receivePart data now).2]
  | .requestNext now => [(t.requestNext now).2]
  | .checkTimeout now => [(t.checkTimeout now).2]
  | .hashmapUpdate segment hashmapData now => [(t.hashmapUpdate segment hashmapData now).2]
  | .cancel => [t.cancel.2]
  | .handleCancel => []

variable [Bzip2]

/-- The transfer after a call, and what the call emits. -/
def step (t : InboundTransfer F) : ReceiverCall F → InboundTransfer F × List TransferAction
  | .engine c => (t.call c, t.actions c)
  | .complete decryptFn =>
    ((t.complete decryptFn).1, match (t.complete decryptFn).2 with
      | .ok (_, proof) => [.sendProof proof]
      | .error _ => [])
  | .createHmu => (t, [.sendHmu t.createHmu])
  | .seedPreviousEifr bitsPerSec => (t.seedPreviousEifr bitsPerSec, [])
  | .updateEifr => (t.updateEifr, [])

/-- The window stays bounded. -/
theorem bounded_step (hb : t.resource.window.Bounded) (c : ReceiverCall F) :
    (t.step c).1.resource.window.Bounded := by
  cases c with
  | engine c =>
    cases c with
    | receivePart data now => exact (t.receivePart_spec data now).1.bounded hb
    | requestNext now => exact (t.requestNext_spec now).1.bounded hb
    | checkTimeout now => exact (t.checkTimeout_spec now).1.bounded hb
    | hashmapUpdate segment hashmapData now =>
      rcases t.hashmapUpdate_eq segment hashmapData now with ⟨hkeeps, -⟩ |
        ⟨-, -, t₁, heq, hresource, -⟩
      · exact hkeeps.bounded hb
      · have hb₁ : t₁.resource.window.Bounded := by rwa [hresource]
        have hnext := (t₁.requestNext_spec now).1.bounded hb₁
        rwa [← heq] at hnext
    | cancel => exact hb
    | handleCancel => exact hb
  | complete decryptFn => exact (t.keeps_complete decryptFn).bounded hb
  | createHmu => exact hb
  | seedPreviousEifr bitsPerSec =>
    simp only [step, seedPreviousEifr]
    split_ifs <;> exact hb
  | updateEifr => exact hb

omit [Binary64 F] in
/-- A proof is two hashes. -/
theorem fits_complete {decryptFn : Option (Bytes → Except ResourceError Bytes)}
    {payload proof : Bytes} (h : (t.complete decryptFn).2 = .ok (payload, proof)) :
    (TransferAction.sendProof proof).Fits := by
  have hlen : proof.length = 64 := by
    unfold complete at h
    dsimp only at h
    split at h
    · cases h
    · obtain ⟨-, rfl⟩ := Prod.mk.inj (Except.ok.inj h)
      simp [InboundResource.generateProof]
  show checkControlFrame _ _ _ _ _ = _
  rw [hlen]
  rfl

theorem fits_step (hb : t.resource.window.Bounded) (c : ReceiverCall F) :
    ∀ a ∈ (t.step c).2, a.Fits := by
  intro a ha
  cases c with
  | engine c =>
    cases c with
    | receivePart data now => exact mem_singleton.mp ha ▸ fits_receivePart hb data now
    | requestNext now => exact mem_singleton.mp ha ▸ fits_requestNext hb now
    | checkTimeout now => exact mem_singleton.mp ha ▸ fits_checkTimeout hb now
    | hashmapUpdate segment hashmapData now =>
      exact mem_singleton.mp ha ▸ fits_hashmapUpdate hb segment hashmapData now
    | cancel => exact mem_singleton.mp ha ▸ fits_sendCancel _ _
    | handleCancel => cases ha
  | complete decryptFn =>
    rw [step] at ha
    cases hcomplete : (t.complete decryptFn).2 with
    | error e =>
      simp only [hcomplete] at ha
      cases ha
    | ok result =>
      simp only [hcomplete] at ha
      exact mem_singleton.mp ha ▸ fits_complete hcomplete
  | createHmu =>
    exact mem_singleton.mp ha ▸ fitsFrame_of_bounded hb t.length_createHmu_le
  | seedPreviousEifr bitsPerSec => cases ha
  | updateEifr => cases ha

/-- The transfer after some calls. -/
def steps (t : InboundTransfer F) (calls : List (ReceiverCall F)) : InboundTransfer F :=
  calls.foldl (fun t c => (t.step c).1) t

theorem bounded_steps (hb : t.resource.window.Bounded) (calls : List (ReceiverCall F)) :
    (t.steps calls).resource.window.Bounded := by
  induction calls generalizing t with
  | nil => exact hb
  | cons c calls ih => exact ih (bounded_step hb c)

end

end InboundTransfer

/-- **Control frames.** Whatever calls a receiver has handled, with whatever inputs from its peer,
each request, hash map update, proof and cancellation that the next call emits passes
`check_control_frame` at the base MTU with the shortest header. So does each advertisement, hash map
update and cancellation of a sender, in any state. -/
theorem control_frames_fit {F : Type} [Binary64 F] [Sha256] [Bzip2] {t : InboundTransfer F}
    {totalParts totalSize dataSize rtt now : ℕ} {randomHash : Octets 4} {resourceHash : Octets 32}
    {flags : ResourceFlags} {mapHashes : List (Octets 4)}
    (h : fromAdvertisement totalParts totalSize dataSize randomHash resourceHash
      flags mapHashes rtt now = .ok t)
    (calls : List (ReceiverCall F)) (c : ReceiverCall F) (s : OutboundTransfer) (c' : OutboundCall) :
    (∀ a ∈ ((t.steps calls).step c).2, a.Fits) ∧ ∀ a ∈ s.actions c', a.Fits := by
  refine ⟨fits_step (bounded_steps ?_ calls) c, s.fits_actions c'⟩
  obtain ⟨-, hresource⟩ :=
    InboundResource.withSdu_eq_ok_iff.mp (fromAdvertisement_eq_ok h).1
  rw [hresource]
  exact WindowState.bounded_new

/-- The sender of the sample transfer. -/
private def sampleStart : OutboundTransfer :=
  letI := sampleSha
  letI := sampleBzip2
  .fromResource (.build sampleTag none [0x42] false none none) 0 0

/-- The advertisement and the first request of the sample transfer. -/
theorem control_frames_fit_sample :
    letI := sampleSha
    letI := sampleBzip2
    (∃ t : InboundTransfer ℚ, fromAdvertisement 1 5 1 sampleTag
        (replicate 32 7) {} [replicate 4 1] 0 0 = .ok t ∧
      (t.step (.engine (.requestNext 0))).2 =
        [.sendRequest (0 :: List.replicate 32 7 ++ [1, 1, 1, 1])] ∧
      ∀ a ∈ (t.step (.engine (.requestNext 0))).2, a.Fits) ∧
    sampleStart.actions (.tick 0) =
      [.sendAdvertisement (OutboundTransfer.advertisement sampleStart.resource).pack] ∧
    ∀ a ∈ sampleStart.actions (.tick 0), a.Fits := by
  let _ := sampleSha
  let _ := sampleBzip2
  have hfits (t : InboundTransfer ℚ) (ht : fromAdvertisement 1 5 1 sampleTag
      (replicate 32 7) {} [replicate 4 1] 0 0 = .ok t) :=
    control_frames_fit ht [] (.engine (.requestNext 0)) sampleStart (.tick 0)
  exact ⟨⟨_, rfl, by decide +kernel, (hfits _ rfl).1⟩, by decide +kernel, (hfits _ rfl).2⟩

end Reticulum.Resource
