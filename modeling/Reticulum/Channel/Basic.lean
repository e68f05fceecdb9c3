import Reticulum.Channel.Envelope
import Reticulum.Channel.Window
import Reticulum.Foundation.Lists

/-!
# Channels

The sequenced message state machine of `channel.rs` of the `rns-protocol` crate: sending into a
window, retransmitting, acknowledging, and receiving through a reorder buffer. Message handlers
only observe what `receive` returns and are left out.

## Main definitions

* `Channel` with `sendTrackedWithMaxEnvelope`, `delivered`, `timeout`, `receive`.

## Main results

* `isAcceptableSequence_iff` — the receive guard is a window of the wrapping distance.
* `Channel.perm_emplaceEnvelope` — the reorder buffer gains exactly the new envelope.
-/

namespace Reticulum

open List

/-- `MAX_TRIES`. -/
def maxTries : ℕ := 5

/-- `SYSTEM_MESSAGE_TYPE_MIN`. -/
def systemMessageTypeMin : UInt16 := 0xF000

/-- `ChannelError`. -/
inductive ChannelError
  | channelClosed
  | notReady
  | maxRetriesExceeded
  | invalidEnvelope
  | unknownMessageType (msgType : UInt16)
  | invalidMessageType (msgType : UInt16)
  | messageTooLarge (actual max : ℕ)
  deriving DecidableEq, Repr

/-- `Channel`, without its message handlers. -/
structure Channel (F : Type) where
  nextTxSequence : UInt16
  nextRxSequence : UInt16
  txRing : List Envelope
  rxRing : List Envelope
  window : ChannelWindow
  active : Bool
  currentRtt : F
  registeredTypes : List UInt16
  deriving DecidableEq, Repr

/-- `is_acceptable_sequence`. -/
def isAcceptableSequence (nextRx seq : UInt16) : Bool :=
  if nextRx ≤ seq then seq.toNat ≤ nextRx.toNat + windowMax
  else
    let windowOverflow := UInt16.ofNat ((nextRx.toNat + windowMax) % seqModulus)
    windowOverflow < nextRx && seq ≤ windowOverflow

/-- The receive guard accepts the numbers at most `WINDOW_MAX` ahead. -/
theorem isAcceptableSequence_iff (nextRx seq : UInt16) :
    isAcceptableSequence nextRx seq = true ↔ seqDistance nextRx seq ≤ windowMax := by
  have hn := nextRx.toNat_lt
  have hs := seq.toNat_lt
  have hw : windowMax = 48 := rfl
  have hm : seqModulus = 65536 := rfl
  unfold isAcceptableSequence seqDistance
  split_ifs with h
  · rw [UInt16.le_iff_toNat_le] at h
    rw [decide_eq_true_eq]
    omega
  · rw [UInt16.le_iff_toNat_le] at h
    simp only [Bool.and_eq_true, decide_eq_true_eq, UInt16.le_iff_toNat_le,
      UInt16.lt_iff_toNat_lt, UInt16.toNat_ofNat', hw, hm]
    omega

namespace Channel

variable {F : Type} [Binary64 F]

/-- `Channel::new`. -/
def new (rtt : F) : Channel F where
  nextTxSequence := 0
  nextRxSequence := 0
  txRing := []
  rxRing := []
  window := .new (initialRtt rtt)
  active := true
  currentRtt := initialRtt rtt
  registeredTypes := []

/-! ### Sending -/

/-- `Channel::register_message_type`. -/
def registerMessageType (c : Channel F) (msgType : UInt16) : Except ChannelError (Channel F) :=
  if systemMessageTypeMin ≤ msgType then .error (.invalidMessageType msgType)
  else if msgType ∈ c.registeredTypes then .ok c
  else .ok { c with registeredTypes := c.registeredTypes ++ [msgType] }

/-- `Channel::register_system_type`. -/
def registerSystemType (c : Channel F) (msgType : UInt16) : Channel F :=
  if msgType ∈ c.registeredTypes then c
  else { c with registeredTypes := c.registeredTypes ++ [msgType] }

/-- `Channel::outstanding_count`. -/
def outstandingCount (c : Channel F) : ℕ :=
  (c.txRing.filter fun e => e.state ≠ .delivered).length

/-- `Channel::is_ready_to_send`. -/
def isReadyToSend (c : Channel F) : Bool :=
  c.active && decide (c.outstandingCount < min c.window.window windowMax)

/-- `Channel::send_tracked_with_max_envelope`: the sequence number and the bytes to transmit. -/
def sendTrackedWithMaxEnvelope (c : Channel F) (msg : Message) (maxEnvelopeSize : Option ℕ)
    (now : ℕ) : Except ChannelError (Channel F × UInt16 × Bytes) :=
  if !c.active then .error .channelClosed
  else if !c.isReadyToSend then .error .notReady
  else
    let seq := c.nextTxSequence
    let envelope := Envelope.pack msg seq
    match maxEnvelopeSize.filter (· < envelope.raw.length) with
    | some max => .error (.messageTooLarge envelope.raw.length max)
    | none =>
      let envelope := { envelope with state := .sent, tries := 1, lastSent := some now }
      .ok ({ c with
        nextTxSequence := nextSeq c.nextTxSequence
        txRing := c.txRing ++ [envelope] }, seq, envelope.raw)

/-- The ring with the first envelope of a number marked as delivered. -/
def markDelivered (ring : List Envelope) (sequence : UInt16) : List Envelope :=
  ring.modify (ring.findIdx (·.sequence == sequence)) fun e => { e with state := .delivered }

/-- `Channel::delivered`. -/
def delivered (c : Channel F) (sequence : UInt16) (rtt : F) : Channel F :=
  { c with
    txRing := (markDelivered c.txRing sequence).dropWhile (·.state == .delivered)
    window := c.window.grow rtt }

/-- `Channel::timeout`: the bytes to retransmit. The channel changes also when it fails. -/
def timeout (c : Channel F) (sequence : UInt16) (now : ℕ) :
    Channel F × Except ChannelError (Option Bytes) :=
  let i := c.txRing.findIdx (·.sequence == sequence)
  match c.txRing[i]? with
  | none => (c, .ok none)
  | some env =>
    let tries := min (env.tries + 1) ChannelWindow.usizeMax
    if maxTries < tries then
      ({ c with txRing := c.txRing.set i { env with tries }, active := false },
        .error .maxRetriesExceeded)
    else
      ({ c with
          txRing := c.txRing.set i { env with tries, lastSent := some now }
          window := c.window.shrink }, .ok (some env.raw))

/-- `Channel::update_rtt`. -/
def updateRtt (c : Channel F) (rtt : F) : Channel F :=
  if Binary64.isFinite rtt && Binary64.le (Binary64.ofRat 0) rtt then
    { c with currentRtt := Binary64.min rtt (rttMax F) }
  else c

@[simp] theorem txRing_updateRtt (c : Channel F) (rtt : F) :
    (c.updateRtt rtt).txRing = c.txRing := by
  unfold updateRtt
  split_ifs <;> rfl

/-- `Channel::shutdown`. -/
def shutdown (c : Channel F) : Channel F :=
  { c with active := false, txRing := [], rxRing := [] }

/-! ### Receiving -/

/-- `Channel::emplace_envelope`, on the reorder buffer. -/
def emplaceEnvelope (nextRx : UInt16) (ring : List Envelope) (envelope : Envelope) :
    List Envelope :=
  if ring.any (·.sequence == envelope.sequence) then ring
  else
    ring.insertIdx (ring.findIdx fun e =>
      seqDistance nextRx envelope.sequence < seqDistance nextRx e.sequence) envelope

/-- The delivery loop of `Channel::receive`: the next number, the buffer and what was delivered.
Each round takes one envelope out of the buffer, so `fuel` rounds suffice for `fuel` envelopes. -/
def drain : (fuel : ℕ) → UInt16 → List Envelope → UInt16 × List Envelope × List Message
  | 0, nextRx, ring => (nextRx, ring, [])
  | fuel + 1, nextRx, ring =>
    let i := ring.findIdx (·.sequence == nextRx)
    match ring[i]? with
    | none => (nextRx, ring, [])
    | some env =>
      let (nextRx, ring, rest) := drain fuel (nextSeq nextRx) (ring.eraseIdx i)
      (nextRx, ring, (env.msgType, env.payload) :: rest)

/-- `Channel::receive`: the messages that became deliverable, in order. -/
def receive (c : Channel F) (raw : Bytes) : Except ChannelError (Channel F × List Message) :=
  if !c.active then .error .channelClosed
  else
    match Envelope.unpack raw with
    | .error _ => .error .invalidEnvelope
    | .ok envelope =>
      if envelope.msgType ∉ c.registeredTypes then .error (.unknownMessageType envelope.msgType)
      else if !isAcceptableSequence c.nextRxSequence envelope.sequence then .ok (c, [])
      else
        let ring := emplaceEnvelope c.nextRxSequence c.rxRing envelope
        let (nextRxSequence, rxRing, delivered) := drain ring.length c.nextRxSequence ring
        .ok ({ c with nextRxSequence, rxRing }, delivered)

/-! ### The transmit ring -/

variable {ring : List Envelope}

/-- Marking changes one state and no envelope otherwise. -/
theorem getElem?_markDelivered {sequence : UInt16} {k : ℕ} {e' : Envelope}
    (h : (markDelivered ring sequence)[k]? = some e') :
    ∃ e, ring[k]? = some e ∧ e'.sequence = e.sequence ∧ e'.raw = e.raw ∧
      (e' = e ∨ k = ring.findIdx (·.sequence == sequence) ∧ e'.state = .delivered) := by
  rw [markDelivered, getElem?_modify] at h
  split_ifs at h with hk
  · obtain ⟨e, he, rfl⟩ := Option.map_eq_some_iff.mp h
    exact ⟨e, he, rfl, rfl, .inr ⟨hk.symm, rfl⟩⟩
  · exact ⟨e', by simpa using h, rfl, rfl, .inl rfl⟩

/-- Every envelope but the first one with the number stays as it is. -/
theorem getElem?_markDelivered_of_ne (ring : List Envelope) (sequence : UInt16) {k : ℕ}
    (hk : ring.findIdx (·.sequence == sequence) ≠ k) :
    (markDelivered ring sequence)[k]? = ring[k]? := by
  rw [markDelivered, getElem?_modify]
  simp [hk]

@[simp] theorem length_markDelivered (ring : List Envelope) (sequence : UInt16) :
    (markDelivered ring sequence).length = ring.length := by
  simp [markDelivered]

/-- An acknowledgement drops delivered envelopes from the front of the ring, and no others. -/
theorem txRing_delivered (c : Channel F) (sequence : UInt16) (rtt : F) :
    ∃ n ≤ c.txRing.length,
      (c.delivered sequence rtt).txRing = (markDelivered c.txRing sequence).drop n ∧
      ∀ k < n, ∀ e, (markDelivered c.txRing sequence)[k]? = some e → e.state = .delivered := by
  set ring := markDelivered c.txRing sequence with hring
  have hsplit := takeWhile_append_dropWhile (p := fun e : Envelope => e.state == .delivered)
    (l := ring)
  have hlen := (List.takeWhile_prefix (fun e : Envelope => e.state == .delivered)
    (l := ring)).length_le
  refine ⟨(ring.takeWhile (·.state == .delivered)).length, ?_, ?_, fun k hk e he => ?_⟩
  · rwa [hring, length_markDelivered] at hlen
  · nth_rewrite 2 [← hsplit]
    rw [drop_left]
    rfl
  · rw [← hsplit, getElem?_append_left hk] at he
    simpa using mem_takeWhile_imp (mem_of_getElem? he)

omit [Binary64 F] in
/-- Retransmitting changes no state. -/
theorem map_state_timeout (c : Channel F) (sequence : UInt16) (now : ℕ) :
    (c.timeout sequence now).1.txRing.map (·.state) = c.txRing.map (·.state) := by
  have hset {i : ℕ} {env env' : Envelope} (hi : c.txRing[i]? = some env)
      (hstate : env'.state = env.state) :
      (c.txRing.set i env').map (·.state) = c.txRing.map (·.state) := by
    rw [map_set, hstate]
    exact set_of_getElem? (by simp [hi])
  cases hget : c.txRing[c.txRing.findIdx (·.sequence == sequence)]? with
  | none => simp [timeout, hget]
  | some env =>
    simp only [timeout, hget]
    split_ifs <;> exact hset hget rfl

/-! ### The send window -/

omit [Binary64 F] in
theorem outstandingCount_eq (c : Channel F) :
    c.outstandingCount = (c.txRing.map (·.state)).countP (· ≠ .delivered) := by
  rw [outstandingCount, ← countP_eq_length_filter, countP_map]
  rfl

/-- An acknowledgement leaves no more envelopes outstanding. -/
theorem outstandingCount_delivered_le (c : Channel F) (sequence : UInt16) (rtt : F) :
    (c.delivered sequence rtt).outstandingCount ≤ c.outstandingCount := by
  have hmarked (ring : List Envelope) (i : ℕ) :
      ((ring.modify i fun e => { e with state := .delivered }).filter (·.state ≠ .delivered)).length ≤
        (ring.filter (·.state ≠ .delivered)).length := by
    induction ring generalizing i with
    | nil => simp
    | cons e ring ih =>
      cases i with
      | zero =>
        simp only [modify_zero_cons, filter_cons]
        split_ifs <;> simp_all
      | succ i =>
        simp only [modify_succ_cons, filter_cons]
        split_ifs
        · exact Nat.succ_le_succ (ih i)
        · exact ih i
  exact ((dropWhile_sublist _).filter _).length_le.trans (hmarked _ _)

/-- A call that sends or that moves the window, as its owner may also do directly. The others change
neither the window nor the transmit ring, but for `shutdown`. -/
inductive WindowCall (F : Type)
  | send (msg : Message) (maxEnvelopeSize : Option ℕ) (now : ℕ)
  | delivered (sequence : UInt16) (rtt : F)
  | timeout (sequence : UInt16) (now : ℕ)
  | shutdown
  | grow (rtt : F)
  | shrink

/-- The channel after a call. -/
def windowCall (c : Channel F) : WindowCall F → Channel F
  | .send msg maxEnvelopeSize now =>
    match c.sendTrackedWithMaxEnvelope msg maxEnvelopeSize now with
    | .ok (c', _) => c'
    | .error _ => c
  | .delivered sequence rtt => c.delivered sequence rtt
  | .timeout sequence now => (c.timeout sequence now).1
  | .shutdown => c.shutdown
  | .grow rtt => { c with window := c.window.grow rtt }
  | .shrink => { c with window := c.window.shrink }

/-- The window is in range, and at most `WINDOW_MAX` envelopes are undelivered. -/
structure Windowed (c : Channel F) : Prop where
  window : c.window.InRange
  outstanding : c.outstandingCount ≤ windowMax

theorem Windowed.windowCall {c : Channel F} (h : c.Windowed) (call : WindowCall F) :
    (c.windowCall call).Windowed := by
  cases call with
  | send msg maxEnvelopeSize now =>
    simp only [Channel.windowCall]
    split
    next c' sent hsend =>
      unfold sendTrackedWithMaxEnvelope at hsend
      split_ifs at hsend with hactive hready
      dsimp only at hsend
      split at hsend
      · cases hsend
      · obtain ⟨rfl, -⟩ := Prod.mk.inj (Except.ok.inj hsend)
        obtain ⟨-, -, hroom⟩ : c.active = true ∧ c.outstandingCount < c.window.window ∧
            c.outstandingCount < windowMax := by simpa [isReadyToSend] using hready
        refine ⟨h.window, ?_⟩
        simp only [outstandingCount, filter_append, length_append]
        exact (Nat.add_le_add_left (length_filter_le _ _) _).trans hroom
    · exact h
  | delivered sequence rtt =>
    exact ⟨h.window.grow rtt, (c.outstandingCount_delivered_le sequence rtt).trans h.outstanding⟩
  | timeout sequence now =>
    refine ⟨?_, ?_⟩
    · simp only [Channel.windowCall, Channel.timeout]
      split
      · exact h.window
      · split_ifs
        · exact h.window
        · exact h.window.shrink
    · rw [outstandingCount_eq, Channel.windowCall, map_state_timeout, ← outstandingCount_eq]
      exact h.outstanding
  | shutdown => exact ⟨h.window, Nat.zero_le _⟩
  | grow rtt => exact ⟨h.window.grow rtt, h.outstanding⟩
  | shrink => exact ⟨h.window.shrink, h.outstanding⟩

/-- **Send window.** Whatever the first round trip, in all growing and shrinking the window lies
between one and its ceiling, which is at most 48, and never more than 48 envelopes are sent and not
delivered. -/
theorem send_window_bounds (rtt : F) (calls : List (WindowCall F)) :
    let c := calls.foldl windowCall (new rtt)
    1 ≤ c.window.window ∧ c.window.window ≤ c.window.windowMax ∧ c.window.windowMax ≤ 48 ∧
      c.outstandingCount ≤ 48 := by
  have h : (calls.foldl windowCall (new rtt)).Windowed :=
    List.foldlRecOn calls windowCall ⟨ChannelWindow.inRange_new _, Nat.zero_le _⟩
      fun c hc call _ => hc.windowCall call
  exact ⟨h.window.one_le_window, h.window.window_le_windowMax, h.window.windowMax_le, h.outstanding⟩

/-! ### The reorder buffer -/

variable {envelope : Envelope}

/-- The reorder buffer gains a new envelope, and nothing when it holds its number already. -/
theorem emplaceEnvelope_of_mem {nextRx : UInt16} (h : envelope.sequence ∈ ring.map (·.sequence)) :
    emplaceEnvelope nextRx ring envelope = ring := by
  obtain ⟨e, he, hseq⟩ := mem_map.mp h
  rw [emplaceEnvelope, if_pos]
  exact any_eq_true.mpr ⟨e, he, by simp [hseq]⟩

theorem perm_emplaceEnvelope {nextRx : UInt16} (h : envelope.sequence ∉ ring.map (·.sequence)) :
    (emplaceEnvelope nextRx ring envelope).Perm (envelope :: ring) := by
  rw [emplaceEnvelope, if_neg]
  · exact perm_insertIdx _ _ findIdx_le_length
  · intro hany
    obtain ⟨e, he, hseq⟩ := any_eq_true.mp hany
    exact h (mem_map.mpr ⟨e, he, by simpa using hseq⟩)

end Channel

end Reticulum
