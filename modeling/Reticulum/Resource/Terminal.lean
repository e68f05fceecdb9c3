import Reticulum.Foundation.Run
import Reticulum.Resource.Receiver

/-!
# The end of a resource transfer

Once a transfer is complete, failed, rejected or corrupt, requests, parts, hash map updates, proofs
and timeouts leave its state alone. The calls that cancel a transfer do not look at its state: they
turn a transfer that has completed into a failed one.
-/

namespace Reticulum.Resource

/-! ### The sender -/

/-- A call of an outgoing transfer. -/
inductive OutboundCall
  | tick (now : ℕ)
  | checkTimeout (now : ℕ)
  | handleHmu (hmuData : Bytes) (now : ℕ)
  | handleRequestPacket (packetHash : Octets 32) (requestData : Bytes) (now : ℕ)
  | handleRequest (requestData : Bytes) (now : ℕ)
  | handleProof (proofData : Bytes)
  | handleCancel
  deriving DecidableEq

namespace OutboundTransfer

variable {t : OutboundTransfer}

/-- The transfer after a call; rates are computed in `F`. -/
def call (F : Type) [Binary64 F] (t : OutboundTransfer) : OutboundCall → OutboundTransfer
  | .tick now => (t.tick now).1
  | .checkTimeout now => (t.checkTimeout now).1
  | .handleHmu hmuData now => t.handleHmu F hmuData now
  | .handleRequestPacket packetHash requestData now =>
    (t.handleRequestPacket packetHash requestData now).1
  | .handleRequest requestData now => (t.handleRequest requestData now).1
  | .handleProof proofData => (t.handleProof proofData).1
  | .handleCancel => t.handleCancel

private theorem checkTimeout_of_terminal (h : t.resource.state.isTerminal = true) (now : ℕ) :
    (t.checkTimeout now).1 = t := by
  unfold checkTimeout
  cases hs : t.resource.state <;> simp_all [ResourceState.isTerminal]

private theorem tick_of_terminal (h : t.resource.state.isTerminal = true) (now : ℕ) :
    (t.tick now).1 = t := by
  unfold tick
  cases hs : t.resource.state <;> simp_all [ResourceState.isTerminal]

private theorem handleHmu_of_terminal (F : Type) [Binary64 F]
    (h : t.resource.state.isTerminal = true) (hmuData : Bytes) (now : ℕ) :
    t.handleHmu F hmuData now = t := by
  cases hmuData with
  | nil => rfl
  | cons flag rest => simp [handleHmu, h]

private theorem handleRequest_of_terminal (h : t.resource.state.isTerminal = true)
    (requestData : Bytes) (now : ℕ) : (t.handleRequest requestData now).1 = t := by
  rw [handleRequest, if_pos h]

/-- A call that does not cancel keeps a terminal state. -/
theorem state_call (F : Type) [Binary64 F] (h : t.resource.state.isTerminal = true)
    {c : OutboundCall} (hc : c ≠ .handleCancel) :
    (t.call F c).resource.state = t.resource.state := by
  cases c with
  | tick now => rw [call, tick_of_terminal h]
  | checkTimeout now => rw [call, checkTimeout_of_terminal h]
  | handleHmu hmuData now => rw [call, handleHmu_of_terminal F h]
  | handleRequestPacket packetHash requestData now =>
    rw [call, handleRequestPacket]
    split_ifs
    · rfl
    · exact congrArg (·.resource.state) (handleRequest_of_terminal
        (t := { t with reqHashlist := packetHash :: t.reqHashlist }) h requestData now)
  | handleRequest requestData now => rw [call, handleRequest_of_terminal h]
  | handleProof proofData => rw [call, handleProof, if_pos (.inl h)]
  | handleCancel => exact absurd rfl hc

/-- Which calls keep a terminal state. -/
private theorem state_foldl_call (F : Type) [Binary64 F] (h : t.resource.state.isTerminal = true)
    (calls : List OutboundCall) :
    (calls.foldl (·.call F) t).resource.state = t.resource.state ↔
      t.resource.state = .failed ∨ ∀ c ∈ calls, c ≠ .handleCancel :=
  foldl_state_eq_iff (fun t : OutboundTransfer => t.resource.state) (·.isTerminal = true)
    (· = .handleCancel) rfl (fun _ _ ht hc => state_call F ht hc) (fun _ _ hc => hc ▸ rfl) h calls

end OutboundTransfer

/-! ### The receiver -/

/-- A call of an incoming transfer. -/
inductive InboundCall
  | receivePart (data : Bytes) (now : ℕ)
  | requestNext (now : ℕ)
  | checkTimeout (now : ℕ)
  | hashmapUpdate (segment : ℕ) (hashmapData : Bytes) (now : ℕ)
  | cancel
  | handleCancel
  deriving DecidableEq

/-- The calls that end an incoming transfer. -/
def InboundCall.IsCancel (c : InboundCall) : Prop := c = .cancel ∨ c = .handleCancel

instance (c : InboundCall) : Decidable c.IsCancel := inferInstanceAs (Decidable (_ ∨ _))

namespace InboundTransfer

variable {F : Type} [Binary64 F] [Sha256] {t : InboundTransfer F}

/-- The transfer after a call. -/
def call (t : InboundTransfer F) : InboundCall → InboundTransfer F
  | .receivePart data now => (t.receivePart data now).1
  | .requestNext now => (t.requestNext now).1
  | .checkTimeout now => (t.checkTimeout now).1
  | .hashmapUpdate segment hashmapData now => (t.hashmapUpdate segment hashmapData now).1
  | .cancel => t.cancel.1
  | .handleCancel => t.handleCancel

/-- A call that does not cancel keeps a terminal state. -/
theorem state_call (h : t.resource.state.isTerminal = true) {c : InboundCall}
    (hc : ¬ c.IsCancel) : (t.call c).resource.state = t.resource.state := by
  have hne : t.resource.state ≠ .transferring := by
    rintro heq
    rw [heq] at h
    cases h
  cases c with
  | receivePart data now => rw [call, receivePart, if_pos hne]
  | requestNext now => rw [call, requestNext, if_pos (.inl hne)]
  | checkTimeout now => rw [call, checkTimeout, if_pos (.inl hne)]
  | hashmapUpdate segment hashmapData now => rw [call, hashmapUpdate, if_pos (.inl hne)]
  | cancel => exact absurd (.inl rfl) hc
  | handleCancel => exact absurd (.inr rfl) hc

/-- Which calls keep a terminal state. -/
private theorem state_foldl_call (h : t.resource.state.isTerminal = true)
    (calls : List InboundCall) :
    (calls.foldl (·.call) t).resource.state = t.resource.state ↔
      t.resource.state = .failed ∨ ∀ c ∈ calls, ¬ c.IsCancel := by
  refine foldl_state_eq_iff (fun t : InboundTransfer F => t.resource.state) (·.isTerminal = true)
    InboundCall.IsCancel rfl (fun _ _ ht hc => state_call ht hc) (fun _ _ hc => ?_) h calls
  rcases hc with rfl | rfl <;> rfl

end InboundTransfer

/-! ### A completed transfer that fails -/

/-- The tag of the sample transfer. -/
def sampleTag : Octets 4 := ⟨[1, 2, 3, 4], Eq.refl (nat_lit 4)⟩

/-- SHA-256 on the three inputs of the sample transfer. -/
@[reducible] def sampleSha : Sha256 where
  digest data :=
    if data = [0x42, 1, 2, 3, 4] then
      .ofNat 0x76a952f18b6c638b028860087e7840a9cc43ed1af489d62a51c71984266789d6
    else if data = [1, 2, 3, 4, 0x42, 1, 2, 3, 4] then
      .ofNat 0x57458e94d1c2a902fa4d6a113defe8780747649a705eb5616edd4fc3b9051a91
    else .ofNat 0xa27f2ea54f25557bceb53b92d51381ede5b40e3eaabc24c7ab07c7d4fd951f77

/-- The sample is not compressed. -/
@[reducible] def sampleBzip2 : Bzip2 := ⟨fun _ => none, fun _ => ([], false)⟩

/-- The sender of the sample after its proof has arrived. -/
private def sampleSender : Except ResourceError (OutboundTransfer × Bool) :=
  let _ := sampleSha
  let _ := sampleBzip2
  do
    let r ← OutboundResource.withOptions (fun _ => sampleTag) none [0x42] false none none
    return (OutboundTransfer.fromResource r 0 0).handleProof (r.resourceHash.1 ++ r.expectedProof.1)

/-- The receiver of the sample after it has received the only part and assembled the data. -/
private def sampleReceiver :
    Except ResourceError (InboundTransfer ℚ × Except ResourceError (Bytes × Bytes)) :=
  let _ := sampleSha
  let _ := sampleBzip2
  do
    let t ← InboundTransfer.fromAdvertisement 1 5 1 sampleTag
      (computeResourceHash [0x42] sampleTag.1) {} [getMapHash [1, 2, 3, 4, 0x42] sampleTag.1] 0 0
    return (t.receivePart [1, 2, 3, 4, 0x42] 0).1.complete none

private theorem sampleSender_complete :
    ∃ t, sampleSender = .ok (t, true) ∧ t.resource.state = .complete := by
  have heval : (sampleSender.toOption.any fun s =>
      s.2 && s.1.resource.state == .complete) = true := by decide +kernel
  obtain ⟨⟨t, accepted⟩, hs, ht⟩ := (Option.any_eq_true _ _).mp heval
  obtain ⟨rfl, hstate⟩ := Bool.and_eq_true_iff.mp ht
  exact ⟨t, toOption_eq_some.mp hs, eq_of_beq hstate⟩

private theorem sampleReceiver_complete :
    ∃ t payload proof, sampleReceiver = .ok (t, .ok (payload, proof)) ∧
      t.resource.state = .complete := by
  have heval : (sampleReceiver.toOption.any fun s =>
      s.2.toOption.isSome && s.1.resource.state == .complete) = true := by decide +kernel
  obtain ⟨⟨t, result⟩, hs, ht⟩ := (Option.any_eq_true _ _).mp heval
  obtain ⟨hresult, hstate⟩ := Bool.and_eq_true_iff.mp ht
  obtain ⟨⟨payload, proof⟩, hresult⟩ := Option.isSome_iff_exists.mp hresult
  obtain rfl := toOption_eq_some.mp hresult
  exact ⟨t, payload, proof, toOption_eq_some.mp hs, eq_of_beq hstate⟩

/-- A sender whose proof has been accepted and a receiver that has delivered its data are complete;
a late cancel makes both of them failed. -/
theorem complete_then_failed :
    (∃ t, sampleSender = .ok (t, true) ∧ t.resource.state = .complete ∧
        t.handleCancel.resource.state = .failed) ∧
      ∃ t payload proof, sampleReceiver = .ok (t, .ok (payload, proof)) ∧
        t.resource.state = .complete ∧ t.handleCancel.resource.state = .failed ∧
        t.cancel.1.resource.state = .failed := by
  obtain ⟨t, ht, hstate⟩ := sampleSender_complete
  obtain ⟨u, payload, proof, hu, hstate'⟩ := sampleReceiver_complete
  exact ⟨⟨t, ht, hstate, rfl⟩, u, payload, proof, hu, hstate', rfl, rfl⟩

/-! ### Terminal states -/

/-- **Terminal states.** A sequence of calls with arbitrary inputs keeps the terminal state of a
transfer exactly when that state is `Failed` or none of the calls cancels, on the sending and on
the receiving side. -/
theorem terminal_state_eq_iff {F : Type} [Binary64 F] [Sha256] {t : OutboundTransfer}
    {u : InboundTransfer F} (ht : t.resource.state.isTerminal = true)
    (hu : u.resource.state.isTerminal = true) (calls : List OutboundCall)
    (calls' : List InboundCall) :
    ((calls.foldl (·.call F) t).resource.state = t.resource.state ↔
        t.resource.state = .failed ∨ .handleCancel ∉ calls) ∧
      ((calls'.foldl (·.call) u).resource.state = u.resource.state ↔
        u.resource.state = .failed ∨ .cancel ∉ calls' ∧ .handleCancel ∉ calls') := by
  constructor
  · rw [OutboundTransfer.state_foldl_call F ht]
    grind
  · rw [InboundTransfer.state_foldl_call hu]
    grind [InboundCall.IsCancel]

theorem terminal_state_eq_sample :
    letI := sampleSha
    ∃ t u payload proof, sampleSender = .ok (t, true) ∧
      sampleReceiver = .ok (u, .ok (payload, proof)) ∧
      ([.tick 5, .handleRequest [0] 6, .handleProof []].foldl
        (OutboundTransfer.call ℚ) t).resource.state = .complete ∧
      ([.receivePart [] 5, .checkTimeout 6].foldl InboundTransfer.call u).resource.state =
        .complete := by
  let _ := sampleSha
  obtain ⟨t, ht, hstate⟩ := sampleSender_complete
  obtain ⟨u, payload, proof, hu, hstate'⟩ := sampleReceiver_complete
  obtain ⟨h, h'⟩ := terminal_state_eq_iff (by rw [hstate]; rfl) (by rw [hstate']; rfl)
    [.tick 5, .handleRequest [0] 6, .handleProof []] [.receivePart [] 5, .checkTimeout 6]
  exact ⟨t, u, payload, proof, ht, hu, (h.mpr (.inr (by decide))).trans hstate,
    (h'.mpr (.inr (by decide))).trans hstate'⟩

end Reticulum.Resource

