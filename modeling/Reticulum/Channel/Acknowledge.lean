import Reticulum.Channel.Delivery

/-!
# Acknowledgements over an unreliable network

A link joins two channels into a session: the receiving side proves every channel packet that
arrives and then hands it to the channel, the sending side takes a proof for the delivery of the
message it transmitted in that packet. The packet bookkeeping follows `LinkChannel` of `channel.rs`
and the handling of channel packets and packet proofs in `link_manager.rs`.

The proof does not depend on what the channel does with the packet. A receiver that waits for a
lost message drops messages more than `WINDOW_MAX` ahead of it, after proving them, and the sender,
whose window counts unacknowledged messages only, goes on that far.

## Main results

* `Session.acknowledged_dropped` — a run in which an acknowledged message is lost.
* `Session.acknowledged_received` — in an orderly run every acknowledged message has been returned
  or is held.
-/

namespace Reticulum

open Channel List
open Option hiding sequence

variable {F : Type}

/-- A line whose transmitted copies are packets. `hashes` are the hashes of the packets on the
wire, `tracked` the sequence numbers that the sender awaits proofs for, `proofs` the hashes that
the receiver proved, `acknowledged` the indices of the messages marked as delivered. -/
structure Session (F : Type) where
  line : Line F
  hashes : List (Octets 32)
  tracked : List (Octets 32 × UInt16)
  proofs : List (Octets 32)
  acknowledged : List ℕ
  deriving DecidableEq, Repr

/-- What can happen in a session. A transmission names the hash of its packet. -/
inductive SessionEvent (F : Type)
  | send (msg : Message) (maxEnvelopeSize : Option ℕ) (now : ℕ) (hash : Octets 32)
  | timeout (sequence : UInt16) (now : ℕ) (hash : Octets 32)
  | arrive (k : ℕ)
  | proof (k : ℕ) (rtt : F)
  | updateRtt (rtt : F)
  | registerMessageType (msgType : UInt16)
  | registerSystemType (msgType : UInt16)
  | shutdownSender
  | shutdownReceiver

namespace Session

/-- `LinkChannel::track_outbound_packet_hash`. -/
def trackOutboundPacketHash (tracked : List (Octets 32 × UInt16)) (hash : Octets 32)
    (sequence : UInt16) : List (Octets 32 × UInt16) :=
  (hash, sequence) :: tracked.filter (·.1 ≠ hash)

/-- The session after the sender's channel acted: a transmitted packet is tracked. -/
def transmit (s : Session F) (line : Line F) (hash : Octets 32) (sequence : UInt16) : Session F :=
  if s.line.wire.length < line.wire.length then
    { s with
      line
      hashes := s.hashes ++ [hash]
      tracked := trackOutboundPacketHash s.tracked hash sequence }
  else { s with line }

section

variable [Binary64 F]

/-- Two fresh channels. -/
def init (rtt rtt' : F) : Session F := ⟨.init rtt rtt', [], [], [], []⟩

/-- One event. Packets have distinct hashes; only sequence numbers of unacknowledged envelopes time
out. An arriving packet is proved before the channel sees it. A proof acknowledges the first
envelope with the tracked number (`LinkChannel::delivered_by_packet_hash`). -/
def step (s : Session F) : SessionEvent F → Option (Session F)
  | .send msg maxEnvelopeSize now hash =>
    if hash ∈ s.hashes then none
    else do
      let line ← s.line.step (.send msg maxEnvelopeSize now)
      return s.transmit line hash s.line.sender.nextTxSequence
  | .timeout sequence now hash =>
    if hash ∈ s.hashes ∨ ¬ ∃ e ∈ s.line.sender.txRing, e.sequence = sequence ∧
        e.state ≠ .delivered then none
    else do
      let line ← s.line.step (.timeout sequence now)
      return s.transmit line hash sequence
  | .arrive k => do
    let hash ← s.hashes[k]?
    let line ← s.line.step (.receive k)
    return { s with line, proofs := hash :: s.proofs }
  | .proof k rtt => do
    let hash ← s.proofs[k]?
    match s.tracked.lookup hash with
    | none => some s
    | some sequence => do
      let line ← s.line.step (.updateRtt rtt)
      let line ← line.step (.delivered sequence rtt)
      let index := s.line.sender.txRing.findIdx (·.sequence == sequence)
      return { s with
        line
        tracked := s.tracked.filter (·.2 ≠ sequence)
        acknowledged := if index < s.line.sender.txRing.length then
            (s.line.sender.base s.line.sent + index) :: s.acknowledged
          else s.acknowledged }
  | .updateRtt rtt => do
    let line ← s.line.step (.updateRtt rtt)
    return { s with line }
  | .registerMessageType msgType => do
    let line ← s.line.step (.registerMessageType msgType)
    return { s with line }
  | .registerSystemType msgType => do
    let line ← s.line.step (.registerSystemType msgType)
    return { s with line }
  | .shutdownSender => do
    let line ← s.line.step .shutdownSender
    return { s with line, tracked := [] }
  | .shutdownReceiver => do
    let line ← s.line.step .shutdownReceiver
    return { s with line }

end

/-- The `i`-th message has been returned by the receiver or is held in its reorder buffer. -/
def Received (l : Line F) (i : ℕ) : Prop :=
  i < l.received.length ∨ i ≤ l.received.length + windowMax ∧
    ∃ e ∈ l.receiver.rxRing, IsEnvelopeOf l.sent i e

/-! ### A lost message -/

/-- The `i`-th packet hash of the run below. -/
private def packetHash (i : ℕ) : Octets 32 := Octets.read 32 [UInt8.ofNat i]

/-- The first message is sent and lost; each of the next 49 is sent, arrives and is
acknowledged. -/
private def lostFront : List (SessionEvent ℚ) :=
  [.registerMessageType 1, .send (1, []) none 0 (packetHash 0)] ++
    (List.range 49).flatMap fun i =>
      [.send (1, [UInt8.ofNat i]) none 0 (packetHash (i + 1)), .arrive (i + 1), .proof 0 0]

/-- The receiver waits for the first message and drops the last one, 49 ahead of it, which the
sender has marked as delivered. -/
theorem acknowledged_dropped :
    ∃ s, run step (init (0 : ℚ) 0) lostFront = some s ∧ 49 ∈ s.acknowledged ∧
      ¬ Received s.line 49 := by
  have heval : ((run step (init (0 : ℚ) 0) lostFront).any fun s => decide
      (49 ∈ s.acknowledged ∧ s.line.received = [] ∧
        ∀ e ∈ s.line.receiver.rxRing, e.sequence ≠ seqOf 49)) = true := by decide +kernel
  obtain ⟨s, hrun, hs⟩ := (any_eq_true _ _).mp heval
  obtain ⟨hack, hnone, hheld⟩ := of_decide_eq_true hs
  refine ⟨s, hrun, hack, ?_⟩
  rintro (hlt | ⟨-, e, he, hcopy⟩)
  · simp [hnone] at hlt
  · exact hheld e he hcopy.sequence_eq

/-! ### Message states -/

variable {sequence : UInt16}

section Line

variable {l l' : Line F} {i : ℕ}

/-- The state of the `i`-th message in the transmit ring. -/
def stateOf (l : Line F) (i : ℕ) : Option MessageState :=
  if l.sender.base l.sent ≤ i then
    (l.sender.txRing.map (·.state))[i - l.sender.base l.sent]?
  else none

/-- The `i`-th message stands unacknowledged in the transmit ring. -/
def Unacknowledged (l : Line F) (i : ℕ) : Prop := ∃ st, stateOf l i = some st ∧ st ≠ .delivered

private theorem stateOf_of_eq (hsent : l'.sent = l.sent)
    (hstate : l'.sender.txRing.map (·.state) = l.sender.txRing.map (·.state)) :
    stateOf l' = stateOf l := by
  have hlen : l'.sender.txRing.length = l.sender.txRing.length := by
    simpa using congrArg List.length hstate
  funext i
  rw [stateOf, stateOf, base, base, hstate, hlen, hsent]

/-- A new message has its own state, the others keep theirs. -/
private theorem stateOf_snoc (hI : l.Inv) {e : Envelope} {msg : Message}
    (hring : l'.sender.txRing = l.sender.txRing ++ [e]) (hsent : l'.sent = l.sent ++ [msg]) :
    stateOf l' i = if i = l.sent.length then some e.state else stateOf l i := by
  have hle := hI.sending.length_le
  have hbase : l'.sender.base l'.sent = l.sender.base l.sent := by
    simp only [base, hring, hsent, length_append, length_singleton]
    omega
  simp only [stateOf, hbase, hring, map_append, map_singleton]
  rcases Nat.lt_trichotomy i l.sent.length with hlt | rfl | hgt
  · rw [if_neg hlt.ne]
    split_ifs with hb
    · refine getElem?_append_left ?_
      simp only [base, length_map] at hb ⊢
      omega
    · rfl
  · have hi : l.sent.length - l.sender.base l.sent = (l.sender.txRing.map (·.state)).length := by
      simp only [base, length_map]
      omega
    have hb : l.sender.base l.sent ≤ l.sent.length := Nat.sub_le _ _
    rw [if_pos hb, if_pos rfl, hi, getElem?_concat_length]
  · rw [if_neg hgt.ne', getElem?_eq_none, getElem?_eq_none] <;>
      simp only [base, length_append, length_map, length_singleton] <;> omega

/-- An acknowledgement leaves every state but that of the first message with the number, or drops
the envelope of a delivered message. -/
private theorem stateOf_delivered [Binary64 F] (hI : l.Inv) (rtt : F)
    (hi : i ≠ l.sender.base l.sent + l.sender.txRing.findIdx (·.sequence == sequence)) :
    stateOf { l with sender := l.sender.delivered sequence rtt } i = stateOf l i ∨
      stateOf { l with sender := l.sender.delivered sequence rtt } i = none ∧
        stateOf l i = some .delivered := by
  obtain ⟨n, hn, hring, hdropped⟩ := l.sender.txRing_delivered sequence rtt
  have hlen := hI.sending.length_le
  have hbase : (l.sender.delivered sequence rtt).base l.sent = l.sender.base l.sent + n := by
    simp only [base, hring, length_drop, length_markDelivered]
    omega
  simp only [stateOf, hbase, hring, getElem?_map, getElem?_drop]
  by_cases hb : l.sender.base l.sent ≤ i
  · have hmarked := getElem?_markDelivered_of_ne l.sender.txRing sequence
      (k := i - l.sender.base l.sent) (by omega)
    by_cases hd : l.sender.base l.sent + n ≤ i
    · left
      rw [if_pos hd, if_pos hb, ← hmarked]
      congr 2
      omega
    · right
      have he := getElem?_eq_getElem
        (show i - l.sender.base l.sent < l.sender.txRing.length by omega)
      have hst := hdropped (i - l.sender.base l.sent) (by omega) _ (hmarked.trans he)
      rw [if_neg hd, if_pos hb, he, map_some, hst]
      exact ⟨rfl, rfl⟩
  · left
    rw [if_neg hb, if_neg (by omega)]

/-- An arrival that the receiver accepts is received, and what was received before stays so. -/
private theorem received_receive (hI : l.Inv) {raw : Bytes} (hwire : (i, raw) ∈ l.wire)
    (hactive : l.receiver.active = true)
    (htype : ∀ msg ∈ l.sent[i]?, msg.1 ∈ l.receiver.registeredTypes)
    (hlo : l.received.length < i + 65488) (hhi : i ≤ l.received.length + windowMax) :
    ∃ receiver messages, l.receiver.receive raw = .ok (receiver, messages) ∧
      ∀ j, j = i ∨ Received l j →
        Received { l with receiver, received := l.received ++ messages } j := by
  have hw : windowMax = 48 := rfl
  obtain ⟨msg, hmsg, rfl⟩ := hI.wire i raw hwire
  obtain ⟨next, ring, out, hreceive, -, -, hnew, hkeep⟩ :=
    hI.receiving.receive hmsg hlo (by omega) hactive (htype msg hmsg)
  refine ⟨_, out, hreceive, ?_⟩
  have hlift {j : ℕ} {e : Envelope} (hj : j ≤ l.received.length + windowMax)
      (hcopy : IsEnvelopeOf l.sent j e)
      (h : j < l.received.length + out.length ∨ e ∈ ring) :
      Received { l with
        receiver := { l.receiver with nextRxSequence := next, rxRing := ring }
        received := l.received ++ out } j := by
    rcases h with hlt | hmem
    · exact .inl (by simpa using hlt)
    · refine .inr ⟨?_, e, hmem, hcopy⟩
      simp only [length_append]
      omega
  rintro j (rfl | hlt | ⟨hle, e, he, hcopy⟩)
  · exact hlift hhi ⟨msg, hmsg, rfl⟩ (hnew hhi)
  · refine .inl ?_
    simp only [length_append]
    omega
  · rcases Nat.lt_or_ge j l.received.length with hlt | hge
    · refine .inl ?_
      simp only [length_append]
      omega
    · obtain ⟨d, rfl⟩ := Nat.exists_eq_add_of_le hge
      refine hlift hle hcopy ?_
      rcases hkeep d e (by omega) hcopy he with hlt | hmem
      · exact .inl (by omega)
      · exact .inr hmem

/-- What is received stays received while messages are only added. -/
private theorem Received.of_eq (h : Received l i) (hsent : l.sent <+: l'.sent)
    (hreceived : l'.received = l.received) (hring : l'.receiver.rxRing = l.receiver.rxRing) :
    Received l' i := by
  rcases h with hlt | ⟨hle, e, he, hcopy⟩
  · exact .inl (hreceived ▸ hlt)
  · obtain ⟨more, hmore⟩ := hsent
    exact .inr ⟨hreceived ▸ hle, e, hring ▸ he, hmore ▸ hcopy.append more⟩

/-- An earlier message with the same number as a received one has been received. -/
private theorem Received.of_seqOf_eq {j : ℕ} (h : Received l i) (hji : j ≤ i)
    (hseq : seqOf j = seqOf i) : Received l j := by
  have hw : windowMax = 48 := rfl
  by_cases hij : i < j + 65536
  · rwa [seqOf_inj hseq (by omega) hij]
  · refine .inl ?_
    rcases h with hlt | ⟨hle, -⟩ <;> omega

/-- The number of the first envelope with a number. -/
private theorem seqOf_findIdx (hI : l.Inv)
    (hlt : l.sender.txRing.findIdx (·.sequence == sequence) < l.sender.txRing.length) :
    sequence = seqOf (l.sender.base l.sent +
      l.sender.txRing.findIdx (·.sequence == sequence)) := by
  obtain ⟨-, -, hseq, -⟩ := hI.sending.copy _ _ (getElem?_eq_getElem hlt)
  have hfound := findIdx_getElem (w := hlt)
  rw [← hseq, eq_of_beq hfound]

/-- An unacknowledged message has an envelope in the ring. -/
private theorem Unacknowledged.findIdx_le (hI : l.Inv) (h : Unacknowledged l i) :
    l.sender.base l.sent ≤ i ∧
      l.sender.txRing.findIdx (·.sequence == seqOf i) ≤ i - l.sender.base l.sent ∧
      i - l.sender.base l.sent < l.sender.txRing.length := by
  obtain ⟨st, hst, -⟩ := h
  obtain ⟨hb, hget⟩ : l.sender.base l.sent ≤ i ∧
      (l.sender.txRing.map (·.state))[i - l.sender.base l.sent]? = some st := by
    simpa [stateOf] using hst
  rw [getElem?_map] at hget
  obtain ⟨e, he, -⟩ := map_eq_some_iff.mp hget
  obtain ⟨-, -, hseq, -⟩ := hI.sending.copy _ e he
  rw [Nat.add_sub_cancel' hb] at hseq
  obtain ⟨hlt, hget⟩ := List.getElem?_eq_some_iff.mp he
  refine ⟨hb, ?_, hlt⟩
  by_contra hgt
  have hother := not_of_lt_findIdx (Nat.lt_of_not_le hgt)
  simp [hget, hseq] at hother

end Line

/-! ### Orderly runs -/

/-- An arriving copy finds an active receiver that knows its type and belongs to the `i`-th message
with `r - 65488 < i ≤ r + WINDOW_MAX`, where `r` messages have been delivered; what times out is
unacknowledged at its first occurrence in the transmit ring; the receiver is shut down only when it
holds nothing. -/
def Orderly (s : Session F) : SessionEvent F → Prop
  | .arrive k => ∀ copy ∈ s.line.wire[k]?,
      s.line.receiver.active = true ∧
      (∀ msg ∈ s.line.sent[copy.1]?, msg.1 ∈ s.line.receiver.registeredTypes) ∧
      s.line.received.length < copy.1 + 65488 ∧ copy.1 ≤ s.line.received.length + windowMax
  | .timeout sequence _ _ =>
    ∀ e ∈ s.line.sender.txRing[s.line.sender.txRing.findIdx (·.sequence == sequence)]?,
      e.state ≠ .delivered
  | .shutdownReceiver => s.line.receiver.rxRing = []
  | _ => True

instance (s : Session F) : ∀ e, Decidable (s.Orderly e)
  | .arrive k => inferInstanceAs (Decidable (∀ copy ∈ s.line.wire[k]?, _))
  | .timeout _ _ _ => inferInstanceAs
      (Decidable (∀ e ∈ s.line.sender.txRing[s.line.sender.txRing.findIdx _]?, _))
  | .shutdownReceiver => inferInstanceAs (Decidable (_ = []))
  | .send .. | .proof .. | .updateRtt _ | .registerMessageType _ | .registerSystemType _
  | .shutdownSender => isTrue trivial

/-- The hash `h` belongs to a packet with a copy of the `i`-th message. -/
def PacketOf (s : Session F) (h : Octets 32) (i : ℕ) : Prop :=
  ∃ (k : ℕ) (raw : Bytes), s.hashes[k]? = some h ∧ s.line.wire[k]? = some (i, raw)

/-- What holds in every state of an orderly run: an awaited proof is for an unacknowledged message,
a proof is for a received one, and what is marked has been acknowledged. -/
structure Inv (s : Session F) : Prop where
  line : s.line.Inv
  length_eq : s.hashes.length = s.line.wire.length
  nodup : s.hashes.Nodup
  tracked : ∀ h seq, (h, seq) ∈ s.tracked →
    ∃ i, s.PacketOf h i ∧ seq = seqOf i ∧ Unacknowledged s.line i
  proofs : ∀ h ∈ s.proofs, ∃ i, s.PacketOf h i ∧ Received s.line i
  marked : ∀ i, stateOf s.line i = some .delivered → i ∈ s.acknowledged
  acknowledged : ∀ i ∈ s.acknowledged, Received s.line i

/-- The line `l'` comes after `l`, with nothing acknowledged in between. -/
private structure Later (l l' : Line F) : Prop where
  wire : l.wire <+: l'.wire
  unacknowledged : ∀ i, Unacknowledged l i → Unacknowledged l' i
  received : ∀ i, Received l i → Received l' i
  marked : ∀ i, stateOf l' i = some .delivered → stateOf l i = some .delivered

private theorem Later.of_stateOf_eq {l l' : Line F} (hwire : l.wire <+: l'.wire)
    (hstate : stateOf l' = stateOf l) (hreceived : ∀ i, Received l i → Received l' i) :
    Later l l' where
  wire := hwire
  unacknowledged i h := by rwa [Unacknowledged, hstate]
  received := hreceived
  marked i h := by rwa [hstate] at h

section Step

variable {s s' : Session F} {line : Line F}

private theorem PacketOf.mono {h : Octets 32} {i : ℕ} (hp : s.PacketOf h i)
    (hhashes : s.hashes <+: s'.hashes) (hwire : s.line.wire <+: s'.line.wire) :
    s'.PacketOf h i := by
  obtain ⟨k, raw, hk, hw⟩ := hp
  exact ⟨k, raw, getElem?_of_prefix hhashes hk, getElem?_of_prefix hwire hw⟩

/-- A later line keeps the invariant. -/
private theorem Inv.later (hI : s.Inv) (hline : line.Inv) (hl : Later s.line line)
    (hwire : line.wire = s.line.wire) : Inv { s with line } where
  line := hline
  length_eq := hwire ▸ hI.length_eq
  nodup := hI.nodup
  tracked h seq hmem := by
    obtain ⟨i, hp, hseq, hu⟩ := hI.tracked h seq hmem
    exact ⟨i, hp.mono prefix_rfl hl.wire, hseq, hl.unacknowledged i hu⟩
  proofs h hmem := by
    obtain ⟨i, hp, hr⟩ := hI.proofs h hmem
    exact ⟨i, hp.mono prefix_rfl hl.wire, hl.received i hr⟩
  marked i h := hI.marked i (hl.marked i h)
  acknowledged i h := hl.received i (hI.acknowledged i h)

variable {hash : Octets 32}

/-- A transmitted packet with a fresh hash keeps the invariant when it carries a copy of an
unacknowledged message. -/
private theorem Inv.transmit (hI : s.Inv) (hline : line.Inv) (hl : Later s.line line)
    (hhash : hash ∉ s.hashes)
    (hwire : line.wire = s.line.wire ∨ ∃ i raw, line.wire = s.line.wire ++ [(i, raw)] ∧
      sequence = seqOf i ∧ Unacknowledged line i) : (s.transmit line hash sequence).Inv := by
  rcases hwire with hwire | ⟨i, raw, hwire, hseq, hu⟩
  · rw [Session.transmit, if_neg (by rw [hwire]; exact lt_irrefl _)]
    exact hI.later hline hl hwire
  · rw [Session.transmit, if_pos (by simp [hwire])]
    have hlen := hI.length_eq
    have hpre : s.hashes <+: s.hashes ++ [hash] := prefix_append _ _
    refine ⟨hline, by simp [hwire, hlen], ?_, ?_, ?_, ?_, ?_⟩
    · exact concat_eq_append ▸ List.Nodup.concat hhash hI.nodup
    · intro h seq hmem
      rcases mem_cons.mp hmem with heq | hmem
      · obtain ⟨rfl, rfl⟩ := Prod.mk.inj heq
        exact ⟨i, ⟨s.hashes.length, raw, by simp, by simp [hwire, hlen]⟩, hseq, hu⟩
      · obtain ⟨j, hp, hseq, hu⟩ := hI.tracked h seq (mem_of_mem_filter hmem)
        exact ⟨j, hp.mono hpre hl.wire, hseq, hl.unacknowledged j hu⟩
    · intro h hmem
      obtain ⟨j, hp, hr⟩ := hI.proofs h hmem
      exact ⟨j, hp.mono hpre hl.wire, hl.received j hr⟩
    · exact fun j h => hI.marked j (hl.marked j h)
    · exact fun j h => hl.received j (hI.acknowledged j h)

variable [Binary64 F]

/-- Sending keeps the invariant. -/
private theorem inv_send (hI : s.Inv) {msg : Message} {maxEnvelopeSize : Option ℕ} {now : ℕ}
    (hhash : hash ∉ s.hashes) (h : s.line.step (.send msg maxEnvelopeSize now) = some line) :
    (s.transmit line hash s.line.sender.nextTxSequence).Inv := by
  have hline := Line.inv_step _ (.send msg maxEnvelopeSize now) _ hI.line trivial h
  rcases Line.step_send h with rfl | ⟨e, -, -, hsent, rfl⟩
  · exact hI.transmit hline (.of_stateOf_eq prefix_rfl rfl fun _ h => h) hhash (.inl rfl)
  · set l : Line F := { s.line with
      sender := { s.line.sender with
        nextTxSequence := nextSeq s.line.sender.nextTxSequence
        txRing := s.line.sender.txRing ++ [e] }
      sent := s.line.sent ++ [msg]
      wire := s.line.wire ++ [(s.line.sent.length, e.raw)] }
    have hstate (i : ℕ) : stateOf l i =
        if i = s.line.sent.length then some e.state else stateOf s.line i :=
      stateOf_snoc hI.line rfl rfl
    have hnew : stateOf s.line s.line.sent.length = none := by
      have hle := hI.line.sending.length_le
      rw [stateOf, getElem?_eq_none, ite_self]
      simp only [base, length_map]
      omega
    refine hI.transmit hline ⟨prefix_append _ _, ?_, ?_, ?_⟩ hhash
      (.inr ⟨_, _, rfl, hI.line.sending.next_eq, .sent, ?_, by decide⟩)
    · rintro i ⟨st, hst, hne⟩
      refine ⟨st, ?_, hne⟩
      rw [hstate, if_neg, hst]
      rintro rfl
      cases hnew.symm.trans hst
    · exact fun i h => h.of_eq (prefix_append _ _) rfl rfl
    · intro i hi
      rw [hstate] at hi
      split_ifs at hi with heq
      · cases hsent.symm.trans (some.inj hi)
      · exact hi
    · rw [hstate, if_pos rfl, hsent]

/-- Retransmitting an unacknowledged message keeps the invariant. -/
private theorem inv_timeout (hI : s.Inv) {now : ℕ} (hhash : hash ∉ s.hashes)
    (hord : s.Orderly (.timeout sequence now hash))
    (h : s.line.step (.timeout sequence now) = some line) :
    (s.transmit line hash sequence).Inv := by
  have hline := Line.inv_step _ (.timeout sequence now) _ hI.line trivial h
  have hstate : stateOf line = stateOf s.line := by
    rcases Line.step_timeout h with rfl | ⟨-, -, rfl⟩ <;>
      exact stateOf_of_eq rfl (s.line.sender.map_state_timeout sequence now)
  rcases Line.step_timeout h with rfl | ⟨raw, hraw, rfl⟩
  · exact hI.transmit hline (.of_stateOf_eq prefix_rfl hstate
      fun _ h => h.of_eq prefix_rfl rfl rfl) hhash (.inl rfl)
  · obtain ⟨msg, hmsg, -⟩ := (hI.line.sending.timeout sequence now).2 raw hraw
    have hlt : s.line.sender.txRing.findIdx (·.sequence == sequence) <
        s.line.sender.txRing.length := by
      have hlt := (List.getElem?_eq_some_iff.mp hmsg).1
      simp only [base] at hlt
      omega
    refine hI.transmit hline (.of_stateOf_eq (prefix_append _ _) hstate
      fun _ h => h.of_eq prefix_rfl rfl rfl) hhash
      (.inr ⟨_, raw, rfl, seqOf_findIdx hI.line hlt, ?_⟩)
    have he := getElem?_eq_getElem hlt
    refine ⟨_, ?_, hord _ he⟩
    rw [hstate, stateOf, if_pos (Nat.le_add_right _ _), Nat.add_sub_cancel_left,
      getElem?_map, he, map_some]

/-- A packet that the receiver accepts is proved and received. -/
private theorem inv_arrive (hI : s.Inv) {k : ℕ} (hhash : s.hashes[k]? = some hash)
    (hord : s.Orderly (.arrive k)) (h : s.line.step (.receive k) = some line) :
    Inv { s with line, proofs := hash :: s.proofs } := by
  have hw : windowMax = 48 := rfl
  have hturn : s.line.InTurn (.receive k) := fun copy hcopy => by
    obtain ⟨-, -, hlo, hhi⟩ := hord copy hcopy
    omega
  have hline := Line.inv_step _ _ _ hI.line hturn h
  obtain ⟨⟨i, raw⟩, hget, h⟩ := bind_eq_some_iff.mp h
  obtain ⟨hactive, htype, hlo, hhi⟩ := hord (i, raw) hget
  obtain ⟨receiver, messages, hreceive, hreceived⟩ :=
    received_receive hI.line (mem_of_getElem? hget) hactive htype hlo hhi
  simp only [hreceive] at h
  obtain rfl := some.inj h
  have hlater := hI.later hline
    (.of_stateOf_eq prefix_rfl (stateOf_of_eq rfl rfl) fun j h => hreceived j (.inr h)) rfl
  refine ⟨hline, hlater.length_eq, hlater.nodup, hlater.tracked, fun h hmem => ?_, hlater.marked,
    hlater.acknowledged⟩
  rcases mem_cons.mp hmem with rfl | hmem
  · exact ⟨i, ⟨k, raw, hhash, hget⟩, hreceived i (.inl rfl)⟩
  · exact hlater.proofs h hmem

/-- A proof for a received packet acknowledges a received message. -/
private theorem inv_proof (hI : s.Inv) (rtt : F) (hproof : hash ∈ s.proofs)
    (htracked : (hash, sequence) ∈ s.tracked) :
    s.line.sender.txRing.findIdx (·.sequence == sequence) < s.line.sender.txRing.length ∧
    Inv { s with
      line := { s.line with sender := s.line.sender.delivered sequence rtt }
      tracked := s.tracked.filter (·.2 ≠ sequence)
      acknowledged := (s.line.sender.base s.line.sent +
        s.line.sender.txRing.findIdx (·.sequence == sequence)) :: s.acknowledged } := by
  -- The packet that was proved and the packet that is tracked have one hash, so they are one.
  obtain ⟨i, ⟨k, raw, hk, hraw⟩, hreceived⟩ := hI.proofs hash hproof
  obtain ⟨i', ⟨k', raw', hk', hraw'⟩, rfl, hu⟩ := hI.tracked hash sequence htracked
  obtain rfl : k = k' :=
    (List.getElem?_inj (List.getElem?_eq_some_iff.mp hk).1 hI.nodup).mp (hk.trans hk'.symm)
  obtain rfl : i = i' := (Prod.mk.inj (some.inj (hraw.symm.trans hraw'))).1
  obtain ⟨hb, hfirst, hlast⟩ := hu.findIdx_le hI.line
  have hlt := hfirst.trans_lt hlast
  have hseq := seqOf_findIdx hI.line hlt
  have hkeep (j : ℕ) (hj : Received s.line j) : Received
      { s.line with sender := s.line.sender.delivered (seqOf i) rtt } j :=
    hj.of_eq prefix_rfl rfl rfl
  refine ⟨hlt, Line.inv_step _ (.delivered (seqOf i) rtt) _ hI.line trivial rfl, hI.length_eq,
    hI.nodup, fun h seq hmem => ?_, fun h hmem => ?_, fun j hj => ?_, fun j hj => ?_⟩
  · obtain ⟨hmem, hne⟩ := mem_filter.mp hmem
    obtain ⟨j, hp, rfl, st, hst, hnot⟩ := hI.tracked h seq hmem
    have hj : j ≠ s.line.sender.base s.line.sent +
        s.line.sender.txRing.findIdx (·.sequence == seqOf i) := by
      rintro rfl
      simp [← hseq] at hne
    refine ⟨j, hp, rfl, st, ?_, hnot⟩
    rcases stateOf_delivered hI.line rtt hj with heq | ⟨-, hdel⟩
    · exact heq.trans hst
    · exact absurd (some.inj (hst.symm.trans hdel)) hnot
  · obtain ⟨j, hp, hr⟩ := hI.proofs h hmem
    exact ⟨j, hp, hkeep j hr⟩
  · by_cases hidx : j = s.line.sender.base s.line.sent +
        s.line.sender.txRing.findIdx (·.sequence == seqOf i)
    · exact hidx ▸ mem_cons_self
    · rcases stateOf_delivered hI.line rtt hidx with heq | ⟨hnone, -⟩
      · exact mem_cons_of_mem _ (hI.marked j (heq.symm.trans hj))
      · cases hnone.symm.trans hj
  · refine hkeep j ?_
    rcases mem_cons.mp hj with rfl | hj
    · exact hreceived.of_seqOf_eq (by omega) hseq.symm
    · exact hI.acknowledged j hj

/-- A later round-trip time keeps the invariant. -/
private theorem inv_updateRtt (hI : s.Inv) (rtt : F) :
    Inv { s with line := { s.line with sender := s.line.sender.updateRtt rtt } } :=
  hI.later (Line.inv_step _ (.updateRtt rtt) _ hI.line trivial rfl)
    (.of_stateOf_eq prefix_rfl (stateOf_of_eq rfl (by simp))
      fun _ h => h.of_eq prefix_rfl rfl rfl) rfl

/-- One orderly event keeps the invariant. -/
theorem inv_step (s : Session F) (e : SessionEvent F) (s' : Session F) (hI : s.Inv)
    (hord : s.Orderly e) (h : s.step e = some s') : s'.Inv := by
  cases e with
  | send msg maxEnvelopeSize now hash =>
    simp only [step] at h
    split_ifs at h with hhash
    obtain ⟨line, hl, h⟩ := bind_eq_some_iff.mp h
    obtain rfl := some.inj h
    exact inv_send hI hhash hl
  | timeout sequence now hash =>
    simp only [step] at h
    split_ifs at h with hguard
    obtain ⟨line, hl, h⟩ := bind_eq_some_iff.mp h
    obtain rfl := some.inj h
    exact inv_timeout hI (not_or.mp hguard).1 hord hl
  | arrive k =>
    obtain ⟨hash, hhash, h⟩ := bind_eq_some_iff.mp h
    obtain ⟨line, hl, h⟩ := bind_eq_some_iff.mp h
    obtain rfl := some.inj h
    exact inv_arrive hI hhash hord hl
  | proof k rtt =>
    obtain ⟨hash, hhash, h⟩ := bind_eq_some_iff.mp h
    cases hlookup : s.tracked.lookup hash with
    | none =>
      simp only [hlookup] at h
      exact some.inj h ▸ hI
    | some sequence =>
      simp only [hlookup] at h
      obtain ⟨front, rest, hsplit, -⟩ := lookup_eq_some_iff.mp hlookup
      have htracked : (hash, sequence) ∈ s.tracked := by simp [hsplit]
      obtain ⟨hlt, hproof⟩ :=
        inv_proof (inv_updateRtt hI rtt) rtt (mem_of_getElem? hhash) htracked
      simp only [base, txRing_updateRtt] at hlt hproof
      obtain rfl := some.inj h
      simpa only [base, if_pos hlt] using hproof
  | updateRtt rtt =>
    obtain rfl := some.inj h
    exact inv_updateRtt hI rtt
  | registerMessageType msgType =>
    obtain ⟨line, hl, h⟩ := bind_eq_some_iff.mp h
    obtain rfl := some.inj h
    have hline := Line.inv_step _ (.registerMessageType msgType) _ hI.line trivial hl
    simp only [Line.step, registerMessageType] at hl
    split_ifs at hl <;> obtain rfl := some.inj hl
    · exact hI
    · exact hI
    · exact hI.later hline (.of_stateOf_eq prefix_rfl rfl fun _ h => h.of_eq prefix_rfl rfl rfl) rfl
  | registerSystemType msgType =>
    obtain rfl := some.inj h
    refine hI.later (Line.inv_step _ (.registerSystemType msgType) _ hI.line trivial rfl)
      (.of_stateOf_eq prefix_rfl rfl fun _ h => h.of_eq prefix_rfl rfl ?_) rfl
    simp only [registerSystemType]
    split_ifs <;> rfl
  | shutdownSender =>
    obtain rfl := some.inj h
    refine ⟨Line.inv_step _ .shutdownSender _ hI.line trivial rfl, hI.length_eq, hI.nodup,
      by simp, fun h hmem => ?_, fun i hi => ?_, fun i hi => ?_⟩
    · obtain ⟨i, hp, hr⟩ := hI.proofs h hmem
      exact ⟨i, hp, hr.of_eq prefix_rfl rfl rfl⟩
    · simp [stateOf, shutdown] at hi
    · exact (hI.acknowledged i hi).of_eq prefix_rfl rfl rfl
  | shutdownReceiver =>
    obtain rfl := some.inj h
    exact hI.later (Line.inv_step _ .shutdownReceiver _ hI.line trivial rfl)
      (.of_stateOf_eq prefix_rfl rfl fun _ h => h.of_eq prefix_rfl rfl hord.symm) rfl

end Step

variable [Binary64 F]

theorem inv_init (rtt rtt' : F) : (init rtt rtt').Inv where
  line := Line.inv_init rtt rtt'
  length_eq := rfl
  nodup := nodup_nil
  tracked := by simp [init]
  proofs := by simp [init]
  marked := by simp [init, stateOf, Line.init, new]
  acknowledged := by simp [init]

/-- **Acknowledged messages arrive.** In every run whose events are all orderly, what stands
delivered in the transmit ring has been acknowledged, and every acknowledged message has been
returned by the receiver, in its place, or is held in its reorder buffer. -/
theorem acknowledged_received (rtt rtt' : F) {events : List (SessionEvent F)} {s : Session F}
    (hord : Along step Orderly (init rtt rtt') events)
    (hrun : run step (init rtt rtt') events = some s) :
    (∀ i, stateOf s.line i = some .delivered → i ∈ s.acknowledged) ∧
      (∀ i ∈ s.acknowledged, Received s.line i) ∧ s.line.received <+: s.line.sent := by
  have hI := run_invariant_along inv_step (inv_init rtt rtt') hord hrun
  exact ⟨hI.marked, hI.acknowledged, hI.line.received⟩

/-- The second message overtakes the first one and is acknowledged while it is held. -/
private def overtaken : List (SessionEvent ℚ) :=
  [.registerMessageType 1, .send (1, [0xaa]) none 0 (packetHash 0),
    .send (1, [0xbb]) none 1 (packetHash 1), .arrive 1, .proof 0 (1 / 8),
    .timeout 0 2 (packetHash 2), .arrive 2, .proof 0 (1 / 8)]

theorem acknowledged_received_overtaken :
    ∃ s, run step (init (1 / 8 : ℚ) (1 / 8)) overtaken = some s ∧ s.acknowledged = [0, 1] ∧
      Received s.line 0 ∧ Received s.line 1 := by
  have hord : Along step Orderly (init (1 / 8 : ℚ) (1 / 8)) overtaken := by decide +kernel
  have hsome : (run step (init (1 / 8 : ℚ) (1 / 8)) overtaken).map (·.acknowledged) =
      some [0, 1] := by decide +kernel
  obtain ⟨s, hrun, hack⟩ := map_eq_some_iff.mp hsome
  obtain ⟨-, hreceived, -⟩ := acknowledged_received _ _ hord hrun
  exact ⟨s, hrun, hack, hreceived 0 (by simp [hack]), hreceived 1 (by simp [hack])⟩

end Session

end Reticulum
