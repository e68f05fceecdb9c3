import Reticulum.Resource.Exchange
import Reticulum.Resource.Preflight

/-!
# What arrives is what was sent

Whatever the network does with the messages of a transfer, data that the receiver accepts is the
data of the sender, and its proof is the one that the sender waits for. The advertised hash decides:
no assumption on the network, the map hashes, the encryption or the compression is needed, only that
the hash function does not collide on the two inputs in question.

## Main definitions

* `SegmentLabel`, `OutboundResource.label` — a resource as a segment, a request or a response.
* `Exchange.Exchanged` — the states of an exchange, with copies of the advertisement arriving.

## Main results

* `Exchange.Exchanged.faithful` — what the two sides of an exchange agree on.
* `transfer_sound`.
-/

namespace Reticulum.Resource

open OutboundTransfer OutboundResource

/-! ### Segments, requests and responses -/

/-- The fields that a sender sets on a prepared resource. -/
structure SegmentLabel where
  split : Bool
  isRequest : Bool
  isResponse : Bool
  segmentIndex : ℕ
  totalSegments : ℕ
  requestId : Option Bytes
  originalHash : Option (Octets 32)
  advertisementDataSize : ℕ
  deriving DecidableEq, Repr

/-- A prepared resource with its label. -/
def OutboundResource.label (r : OutboundResource) (l : SegmentLabel) : OutboundResource :=
  { r with
    flags := { r.flags with split := l.split, isRequest := l.isRequest, isResponse := l.isResponse }
    segmentIndex := l.segmentIndex
    totalSegments := l.totalSegments
    requestId := l.requestId
    originalHash := l.originalHash
    advertisementDataSize := l.advertisementDataSize }

variable {decryptFn : Option (Bytes → Except ResourceError Bytes)}

namespace Exchange

variable {F : Type} [Binary64 F]

/-! ### The states of an exchange -/

variable [Sha256] [Bzip2]

/-- The states that an exchange of a resource can reach. Copies of the advertisement may arrive at
any time and set up the receiver anew. -/
inductive Exchanged (resource : OutboundResource)
    (decryptFn : Option (Bytes → Except ResourceError Bytes)) : Exchange F → Prop
  | start {x : Exchange F} {senderRtt receiverRtt now : ℕ}
      (h : Exchange.start resource senderRtt receiverRtt now = some x) :
      Exchanged resource decryptFn x
  | step {x x' : Exchange F} {e : Event} (h : Exchanged resource decryptFn x)
      (hstep : x.step decryptFn e = some x') : Exchanged resource decryptFn x'
  | offer {x : Exchange F} {data : Bytes} {advertisement : ResourceAdvertisement}
      {receiver : InboundTransfer F} {rtt now : ℕ} (h : Exchanged resource decryptFn x)
      (hcreate : x.sender.createAdvertisement = .ok data)
      (hunpack : ResourceAdvertisement.unpack data = .ok advertisement)
      (haccept : inboundTransferFromAdvertisement advertisement rtt now = .ok receiver) :
      Exchanged resource decryptFn { x with receiver, emitted := none }

theorem Exchanged.run {resource : OutboundResource} {x x' : Exchange F} {es : List Event}
    (h : Exchanged resource decryptFn x)
    (hrun : Reticulum.run (Exchange.step decryptFn) x es = some x') :
    Exchanged resource decryptFn x' :=
  run_invariant (fun _ _ _ h hstep => h.step hstep) h hrun

/-- The sender has the resource, and the receiver what its advertisement says. -/
structure Faithful (resource : OutboundResource) (x : Exchange F) : Prop where
  sender : ∃ state window, x.sender.resource = { resource with state, window }
  resourceHash : x.receiver.resource.resourceHash = resource.resourceHash
  randomHash : x.receiver.resource.randomHash = resource.randomHash
  hasMetadata : x.receiver.resource.flags.hasMetadata = (resource.flags.hasMetadata &&
    ¬ (1 < (advertisement resource).totalSegments ∧ 1 < (advertisement resource).segmentIndex))
  metadata : x.receiver.resource.flags.hasMetadata = false → x.receiver.resource.metadata = none

variable {resource : OutboundResource} {x : Exchange F}

omit [Sha256] [Bzip2] in
/-- A receiver set up by the advertisement agrees with it. -/
private theorem faithful_of_accept {rtt now : ℕ}
    (hsender : ∃ state window, x.sender.resource = { resource with state, window })
    (haccept : inboundTransferFromAdvertisement
      { advertisement resource with metadataSize := 0 } rtt now =
        .ok x.receiver) : Faithful resource x := by
  obtain ⟨-, -, -, hreceiver, -⟩ := inboundTransferFromAdvertisement_ok haccept
  refine ⟨hsender, ?_, ?_, ?_, ?_⟩ <;> simp only [hreceiver]
  · unfold advertisement
    split_ifs <;> rfl
  · have hrandom : (advertisement resource).randomHash = resource.randomHash.1 := by
      unfold advertisement
      split_ifs <;> rfl
    rw [hrandom]
    exact Octets.read_self _
  · have hflags : (advertisement resource).flags = resource.flags := by
      unfold advertisement
      split_ifs <;> rfl
    rw [hflags]
  · exact fun _ => trivial

/-- The two sides of an exchange agree in every state. -/
theorem Exchanged.faithful (hwf : (advertisement resource).WellFormed)
    (h : Exchanged resource decryptFn x) : Faithful resource x := by
  induction h with
  | start h =>
    obtain ⟨hsender, haccept, -⟩ := start_eq_some hwf h
    exact faithful_of_accept ⟨_, _, by rw [hsender]; rfl⟩ haccept
  | step h hstep ih =>
    obtain ⟨⟨_, _, hsender⟩, hoffer⟩ := step_sides hstep
    obtain ⟨_, _, hih⟩ := ih.sender
    refine ⟨⟨_, _, by rw [hsender, hih]⟩, hoffer.resourceHash.trans ih.resourceHash,
      hoffer.randomHash.trans ih.randomHash, by rw [hoffer.flags, ih.hasMetadata], fun hm => ?_⟩
    rw [hoffer.flags] at hm
    exact (hoffer.metadata hm).trans (ih.metadata hm)
  | @offer x data advertisement receiver rtt now h hcreate hunpack haccept ih =>
    obtain ⟨_, _, hsender⟩ := ih.sender
    have hsame : OutboundTransfer.advertisement x.sender.resource =
        OutboundTransfer.advertisement resource := by
      rw [hsender]
      rfl
    obtain rfl := unpack_of_createAdvertisement (hsame ▸ hwf) hcreate hunpack
    rw [hsame] at haccept
    exact faithful_of_accept ⟨_, _, hsender⟩ haccept

end Exchange

/-! ### Completion -/

variable {metadata : Option Bytes}

/-- Framed metadata is split off the payload again. -/
theorem splitMetadata_fullData {r : InboundResource} {data : Bytes}
    (hflag : r.flags.hasMetadata = metadata.isSome) (hnone : metadata = none → r.metadata = none)
    (hlen : ∀ m ∈ metadata, m.length ≤ metadataMaxSize) :
    r.splitMetadata (fullData data metadata) =
      ({ r with state := .complete, metadata }, .ok data) := by
  cases metadata with
  | none =>
    have hplain : ¬ r.flags.hasMetadata = true := by simp [hflag]
    have hdata : fullData data none = data := rfl
    unfold InboundResource.splitMetadata
    rw [if_neg hplain, hdata, ← hnone rfl]
  | some m =>
    have hm := hlen m rfl
    have hmax : metadataMaxSize = 16777215 := rfl
    have hsize := ofBe24_be24 (v := m.length) (by omega)
    have hfull : fullData data (some m) = UInt8.ofNat (m.length / 65536) ::
        UInt8.ofNat (m.length / 256) :: UInt8.ofNat m.length :: (m ++ data) := by
      simp [fullData, frameMetadata, be24]
    unfold InboundResource.splitMetadata
    rw [if_pos (by rw [hflag]; rfl), hfull]
    simp [hsize]

section

variable [Sha256] [Bzip2]

/-- Completion of a receiver that assembled the data of the sender. -/
theorem InboundTransfer.complete_eq {F : Type} {t : InboundTransfer F} {data : Bytes}
    (hflag : t.resource.flags.hasMetadata = metadata.isSome)
    (h : t.resource.assemble decryptFn =
      ({ t.resource with state := .complete, metadata }, .ok data)) :
    t.complete decryptFn =
      ({ t with resource := { t.resource with state := .complete, metadata } },
        .ok (data, t.resource.generateProof (fullData data metadata))) := by
  rw [complete, h]
  cases metadata with
  | none =>
    have hplain : t.resource.flags.hasMetadata = false := hflag
    simp only [hplain, Bool.false_eq_true, ↓reduceIte]
    rfl
  | some m =>
    have hmeta : t.resource.flags.hasMetadata = true := hflag
    simp only [hmeta, ↓reduceIte]
    rfl

end

/-- A completion that succeeds has assembled the payload. -/
theorem InboundTransfer.assemble_of_complete [Sha256] [Bzip2] {F : Type} {t : InboundTransfer F}
    {payload proof : Bytes} (h : (t.complete decryptFn).2 = .ok (payload, proof)) :
    (t.resource.assemble decryptFn).2 = .ok payload := by
  unfold complete at h
  simp only at h
  cases hresult : (t.resource.assemble decryptFn).2 with
  | error e =>
    rw [hresult] at h
    cases h
  | ok data =>
    rw [hresult] at h
    exact congrArg _ (Prod.mk.inj (Except.ok.inj h)).1

/-- A proof made of the advertised hash and the expected proof is accepted while the transfer is
not over. -/
theorem OutboundTransfer.handleProof_of_eq {t : OutboundTransfer}
    (hlive : ¬ t.resource.state.isTerminal) :
    (t.handleProof (t.resource.resourceHash.1 ++ t.resource.expectedProof.1)).2 = true := by
  have hlen : (t.resource.resourceHash.1 ++ t.resource.expectedProof.1).length = 64 := by simp
  have hhead : (t.resource.resourceHash.1 ++ t.resource.expectedProof.1).take 32 =
      t.resource.resourceHash.1 := by simp
  have htail : ((t.resource.resourceHash.1 ++ t.resource.expectedProof.1).drop 32).take 32 =
      t.resource.expectedProof.1 := by simp [List.take_of_length_le]
  rw [handleProof, if_neg (by simp [hlive, hlen, hhead])]
  exact validateProof_iff.mpr ⟨hlen.ge, htail⟩

/-! ### The transfer -/

section

variable {F : Type} [Binary64 F] [Sha256] [Bzip2] {rng : ℕ → Octets 4}
  {encryptFn : Option (ℕ → Bytes → Bytes)} {data : Bytes} {autoCompress : Bool}
  {metadata : Option Bytes} {linkSdu : Option ℕ} {resource : OutboundResource}
  {label : SegmentLabel}

omit [Sha256] [Bzip2] in
/-- The metadata of a prepared resource has an admissible length. -/
theorem OutboundResource.metadata_le_of_check {encrypted : Bool}
    (h : check data metadata linkSdu encrypted = .ok ()) :
    ∀ m ∈ metadata, m.length ≤ metadataMaxSize := by
  simp only [check, ite_error_eq_ok, bind_eq_ok] at h
  obtain ⟨-, _, -, hlen, -⟩ := h
  intro m hm
  by_contra hlt
  exact hlen ⟨m, hm, Nat.lt_of_not_le hlt⟩

omit [Binary64 F] [Sha256] [Bzip2] in
/-- The receiver expects metadata exactly when there is some. -/
private theorem hasMetadata_eq {x : Exchange F} (hmetadata : resource.flags.hasMetadata =
      metadata.isSome) (hfirst : metadata = none ∨ label.segmentIndex = 1)
    (hx : x.Faithful (resource.label label)) :
    x.receiver.resource.flags.hasMetadata = metadata.isSome := by
  have hflags : (resource.label label).flags.hasMetadata = metadata.isSome := hmetadata
  rw [hx.hasMetadata, hflags]
  rcases hfirst with rfl | hone
  · rfl
  · have hindex : ¬ 1 < (advertisement (resource.label label)).segmentIndex := by
      have hlabel : (resource.label label).segmentIndex = 1 := hone
      unfold advertisement
      split_ifs
      · rw [hlabel]
        exact lt_irrefl 1
      · exact lt_irrefl 1
    simp [hindex]

/-- When the receiver completes, in whatever state of the exchange and with whatever decryption, it
has the payload and the metadata of the sender, and its proof is accepted in every state of an
exchange of the resource in which the sender has not ended. The digest must not collide on what the
sender hashed and what the receiver hashed. -/
theorem transfer_sound
    (hresource : withOptions rng encryptFn data autoCompress metadata linkSdu = .ok resource)
    (hfirst : metadata = none ∨ label.segmentIndex = 1)
    (hwf : (advertisement (resource.label label)).WellFormed)
    {decryptFn decryptFn' : Option (Bytes → Except ResourceError Bytes)} {x : Exchange F}
    (hx : Exchange.Exchanged (resource.label label) decryptFn x)
    (hinj : Set.InjOn Sha256.digest
      {input | input = fullData data metadata ++ resource.randomHash.1 ∨
        ∃ received, x.receiver.resource.assembledData decryptFn' = .ok received ∧
          input = received ++ x.receiver.resource.randomHash.1})
    {payload proof : Bytes} (hok : (x.receiver.complete decryptFn').2 = .ok (payload, proof)) :
    payload = data ∧ (x.receiver.complete decryptFn').1.resource.metadata = metadata ∧
      ∀ y : Exchange F, Exchange.Exchanged (resource.label label) decryptFn y →
        ¬ y.sender.resource.state.isTerminal → (y.sender.handleProof proof).2 = true := by
  obtain ⟨hcheck, k, hbuild⟩ := withOptions_ok hresource
  have hfaithful := hx.faithful hwf
  set full := fullData data metadata with hfull
  have hhash : resource.resourceHash = computeResourceHash full resource.randomHash.1 := by
    rw [hbuild]
    rfl
  have hproof : resource.expectedProof = computeExpectedProof full resource.resourceHash := by
    rw [hbuild]
    rfl
  have hflag : x.receiver.resource.flags.hasMetadata = metadata.isSome :=
    hasMetadata_eq (by rw [hbuild]; rfl) hfirst hfaithful
  -- The receiver has hashed some data, and the digest is the advertised one.
  obtain ⟨received, hreceived, hdigest, hassemble⟩ :=
    InboundResource.assemble_ok (InboundTransfer.assemble_of_complete hok)
  have hrandom : x.receiver.resource.randomHash = resource.randomHash := hfaithful.randomHash
  have heq : received = full := by
    rw [hfaithful.resourceHash, hrandom] at hdigest
    have hcollide := hinj (.inr ⟨received, hreceived, rfl⟩) (.inl rfl)
      (by rw [hrandom]; exact hdigest.trans hhash)
    rw [hrandom] at hcollide
    exact List.append_cancel_right hcollide
  have hnone : metadata = none → x.receiver.resource.metadata = none := by
    rintro rfl
    exact hfaithful.metadata hflag
  have hsplit : { x.receiver.resource with state := .assembling }.splitMetadata full =
      ({ x.receiver.resource with state := .complete, metadata }, .ok data) :=
    splitMetadata_fullData hflag hnone (metadata_le_of_check hcheck)
  rw [heq, hsplit] at hassemble
  rw [InboundTransfer.complete_eq hflag hassemble] at hok ⊢
  obtain ⟨rfl, rfl⟩ := Prod.mk.inj (Except.ok.inj hok)
  refine ⟨rfl, rfl, fun y hy hlive => ?_⟩
  obtain ⟨_, _, hsender⟩ := (hy.faithful hwf).sender
  have hexpected : x.receiver.resource.generateProof full =
      y.sender.resource.resourceHash.1 ++ y.sender.resource.expectedProof.1 := by
    have h₁ : y.sender.resource.resourceHash = resource.resourceHash := by rw [hsender]; rfl
    have h₂ : y.sender.resource.expectedProof = resource.expectedProof := by rw [hsender]; rfl
    have h₃ : x.receiver.resource.resourceHash = resource.resourceHash := hfaithful.resourceHash
    rw [InboundResource.generateProof, h₁, h₂, h₃, hproof]
  rw [← hfull, hexpected]
  exact handleProof_of_eq hlive

end

/-- SHA-256 of the framed data with its tag, of the framed data with that digest, and of the only
part with the tag. -/
@[reducible] private def framedSha : Sha256 where
  digest input :=
    if input = [0, 0, 1, 7, 0x42, 1, 2, 3, 4] then
      .ofNat 0x486c01977c999111adb1eefbcc098dc1ed52f85ca39ee33b44e55ec6f1953b2f
    else if input.length = 37 then
      .ofNat 0xf639d37e38f28627cbbcad242732137d35f47be89cb569c020a6b3d6c5dd9ebb
    else .ofNat 0x3b9178b1c25d4c51b94fb3ccc8b107c97aff2b5cce93d7628c57261ff2206e4e

/-- Nothing is compressed. -/
@[reducible] private def framedBzip2 : Bzip2 where
  compress _ := none
  decoder _ := ([], false)

/-- One byte with one byte of metadata, sent in reverse. -/
private def framedResource : OutboundResource :=
  let _ := framedSha
  let _ := framedBzip2
  build ⟨[1, 2, 3, 4], rfl⟩ (some List.reverse) [0x42] false (some [7]) none

/-- A resource that is not part of a larger one. -/
private def plainLabel : SegmentLabel where
  split := false
  isRequest := false
  isResponse := false
  segmentIndex := 1
  totalSegments := 1
  requestId := none
  originalHash := none
  advertisementDataSize := 5

/-- The request and the part arrive twice. -/
private def framedExchange : Option (Exchange ℚ) :=
  let _ := framedSha
  let _ := framedBzip2
  (Exchange.start (framedResource.label plainLabel) 0 0 0).bind fun x =>
    run (Exchange.step (some fun stream => .ok stream.reverse)) x
      [.requestNext (Octets.replicate 32 0) 0, .deliver 0 (Octets.replicate 32 1) 0,
        .deliver 0 (Octets.replicate 32 2) 0, .deliver 1 (Octets.replicate 32 3) 0,
        .deliver 1 (Octets.replicate 32 4) 0]

private theorem framedExchange_eq :
    letI := framedSha
    letI := framedBzip2
    ∃ x, framedExchange = some x ∧
      x.receiver.resource.assembledData (some fun stream => .ok stream.reverse) =
        .ok [0, 0, 1, 7, 0x42] ∧
      x.receiver.resource.randomHash = ⟨[1, 2, 3, 4], rfl⟩ ∧
      ¬ x.sender.resource.state.isTerminal ∧
      ∃ result, (x.receiver.complete (some fun stream => .ok stream.reverse)).2 = .ok result := by
  let _ := framedSha
  let _ := framedBzip2
  have heval : framedExchange.any (fun x =>
      (x.receiver.resource.assembledData (some fun stream => .ok stream.reverse)).toOption ==
        some [0, 0, 1, 7, 0x42] &&
      x.receiver.resource.randomHash == ⟨[1, 2, 3, 4], rfl⟩ &&
      !x.sender.resource.state.isTerminal &&
      (x.receiver.complete (some fun stream => .ok stream.reverse)).2.toOption.isSome) = true := by
    decide +kernel
  obtain ⟨x, hx, heval⟩ := (Option.any_eq_true _ _).mp heval
  simp only [Bool.and_eq_true, beq_iff_eq, Bool.not_eq_true', Option.isSome_iff_exists,
    toOption_eq_some] at heval
  obtain ⟨⟨⟨hdata, hrandom⟩, hlive⟩, hresult⟩ := heval
  exact ⟨x, hx, hdata, hrandom, by simp [hlive], hresult⟩

/-- Framed data that is sent in reverse and arrives twice. -/
theorem transfer_sound_framed :
    letI := framedSha
    letI := framedBzip2
    ∃ x payload proof, framedExchange = some x ∧
      (x.receiver.complete (some fun stream => .ok stream.reverse)).2 = .ok (payload, proof) ∧
      payload = [0x42] ∧
      (x.receiver.complete (some fun stream => .ok stream.reverse)).1.resource.metadata =
        some [7] ∧
      (x.sender.handleProof proof).2 = true := by
  let _ := framedSha
  let _ := framedBzip2
  obtain ⟨x, hx, hdata, hrandom, hlive, ⟨payload, proof⟩, hok⟩ := framedExchange_eq
  have hresource : withOptions (fun _ => ⟨[1, 2, 3, 4], rfl⟩)
      (some fun _ => List.reverse) [0x42] false (some [7]) none = .ok framedResource :=
    toOption_eq_some.mp (by decide +kernel)
  have hwf : (advertisement (framedResource.label plainLabel)).WellFormed := by
    refine ⟨?_, ?_, ?_, ?_, ?_, ?_, ?_, ?_, ?_⟩ <;> decide +kernel
  have hexchanged : Exchange.Exchanged (framedResource.label plainLabel)
      (some fun stream => .ok stream.reverse) x := by
    unfold framedExchange at hx
    obtain ⟨x₀, hstart, hrun⟩ := Option.bind_eq_some_iff.mp hx
    exact Exchange.Exchanged.run (.start hstart) hrun
  -- Both sides have hashed the same input.
  have hinj : Set.InjOn Sha256.digest
      {input | input = fullData [0x42] (some [7]) ++ framedResource.randomHash.1 ∨
        ∃ received, x.receiver.resource.assembledData (some fun stream => .ok stream.reverse) =
            .ok received ∧ input = received ++ x.receiver.resource.randomHash.1} := by
    have hsame : ∀ input, (input = fullData [0x42] (some [7]) ++
        framedResource.randomHash.1 ∨ ∃ received,
          x.receiver.resource.assembledData (some fun stream => .ok stream.reverse) =
            .ok received ∧ input = received ++ x.receiver.resource.randomHash.1) →
        input = [0, 0, 1, 7, 0x42, 1, 2, 3, 4] := by
      rintro input (rfl | ⟨received, hreceived, rfl⟩)
      · rfl
      · rw [hdata] at hreceived
        rw [← Except.ok.inj hreceived, hrandom]
        rfl
    exact fun a ha b hb _ => (hsame a ha).trans (hsame b hb).symm
  obtain ⟨hpayload, hmetadata, hproof⟩ :=
    transfer_sound hresource (.inr rfl) hwf hexchanged hinj hok
  exact ⟨x, payload, proof, hx, hok, hpayload, hmetadata, hproof x hexchanged hlive⟩

end Reticulum.Resource
