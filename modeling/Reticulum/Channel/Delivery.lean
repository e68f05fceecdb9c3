import Reticulum.Channel.Reorder
import Reticulum.Foundation.Fallible
import Reticulum.Foundation.Lists
import Reticulum.Foundation.Run

/-!
# Ordered delivery over an unreliable network

A sending and a receiving channel are joined by a network that keeps a copy of every envelope the
sender transmits, first or repeated, and hands any copy to the receiver any number of times and in
any order. Sequence numbers wrap around after 65536 messages; the ghost fields of a line count
messages without wrapping.

## Main definitions

* `Line`, `LineEvent`, `Line.step` — sender, network and receiver.
* `Line.InTurn` — the copy that is handed over belongs to a message less than a turn ahead and not
  nearly a turn behind.
* `Sending` — the transmit ring holds the last messages in order.

## Main results

* `Line.received_prefix` — the receiver has always returned a prefix of what was sent.
-/

namespace Reticulum

open Channel List
open Envelope hiding sequence

variable {F : Type}

/-! ### The transmit ring -/

/-- An envelope that carries the `i`-th message; its counters do not matter. -/
def IsCopyOf (sent : List Message) (i : ℕ) (e : Envelope) : Prop :=
  ∃ msg, sent[i]? = some msg ∧ e.sequence = seqOf i ∧ e.raw = (pack msg (seqOf i)).raw

variable {sent : List Message}

theorem IsCopyOf.append {i : ℕ} {e : Envelope} (h : IsCopyOf sent i e)
    (more : List Message) : IsCopyOf (sent ++ more) i e := by
  obtain ⟨msg, hget, hrest⟩ := h
  exact ⟨msg, getElem?_of_prefix (prefix_append _ _) hget, hrest⟩

/-- The index of the first message in the transmit ring. -/
def Channel.base (c : Channel F) (sent : List Message) : ℕ := sent.length - c.txRing.length

/-- A sender that was given the messages `sent`: its ring holds the last of them, in order. -/
structure Sending (sent : List Message) (c : Channel F) : Prop where
  next_eq : c.nextTxSequence = seqOf sent.length
  length_le : c.txRing.length ≤ sent.length
  copy : ∀ k e, c.txRing[k]? = some e → IsCopyOf sent (c.base sent + k) e

namespace Sending

variable {sent : List Message} {c c' : Channel F}

/-- Changing counters and states of envelopes keeps the ring. -/
theorem of_forall (h : Sending sent c) (hnext : c'.nextTxSequence = c.nextTxSequence)
    (hlen : c'.txRing.length = c.txRing.length)
    (hcopy : ∀ (k : ℕ) (e' : Envelope), c'.txRing[k]? = some e' →
      ∃ e, c.txRing[k]? = some e ∧ e'.sequence = e.sequence ∧ e'.raw = e.raw) : Sending sent c' := by
  refine ⟨hnext.trans h.next_eq, hlen.trans_le h.length_le, fun k e' hk => ?_⟩
  obtain ⟨e, he, hseq, hraw⟩ := hcopy k e' hk
  obtain ⟨msg, hmsg, hs, hr⟩ := h.copy k e he
  refine ⟨msg, ?_, ?_, ?_⟩
  · rwa [base, hlen]
  · rw [hseq, hs, base, base, hlen]
  · rw [hraw, hr, base, base, hlen]

/-- Dropping envelopes from the front keeps the ring. -/
theorem of_drop (h : Sending sent c) (hnext : c'.nextTxSequence = c.nextTxSequence) {n : ℕ}
    (hn : n ≤ c.txRing.length) (hring : c'.txRing = c.txRing.drop n) : Sending sent c' := by
  have hle := h.length_le
  have hlen : c'.txRing.length = c.txRing.length - n := by rw [hring, length_drop]
  refine ⟨hnext.trans h.next_eq, by omega, fun k e hk => ?_⟩
  have hbase : c'.base sent + k = c.base sent + (n + k) := by
    simp only [base, hlen]
    omega
  rw [hring, getElem?_drop] at hk
  rw [hbase]
  exact h.copy _ e hk

/-- A new message goes to the end of the ring. -/
theorem snoc (h : Sending sent c) (msg : Message) {e : Envelope}
    (hseq : e.sequence = seqOf sent.length)
    (hraw : e.raw = (pack msg (seqOf sent.length)).raw)
    (hnext : c'.nextTxSequence = nextSeq c.nextTxSequence) (hring : c'.txRing = c.txRing ++ [e]) :
    Sending (sent ++ [msg]) c' := by
  have hle := h.length_le
  have hlen : c'.txRing.length = c.txRing.length + 1 := by rw [hring, length_append]; rfl
  have hbase : c'.base (sent ++ [msg]) = c.base sent := by
    simp only [base, hlen, length_append, length_singleton]
    omega
  refine ⟨?_, ?_, fun k e' hk => ?_⟩
  · rw [hnext, h.next_eq, nextSeq_seqOf, length_append, length_singleton]
  · rw [hlen, length_append, length_singleton]
    omega
  · rw [hbase]
    rw [hring] at hk
    rcases Nat.lt_trichotomy k c.txRing.length with hlt | rfl | hgt
    · rw [getElem?_append_left hlt] at hk
      exact (h.copy k e' hk).append _
    · rw [getElem?_append_right le_rfl, Nat.sub_self] at hk
      obtain rfl := Option.some.inj hk
      have hidx : c.base sent + c.txRing.length = sent.length := by
        simp only [base]
        omega
      exact ⟨msg, by simp [hidx], by rw [hidx, hseq], by rw [hidx, hraw]⟩
    · rw [getElem?_eq_none (by simp; omega)] at hk
      cases hk

end Sending

/-- Acknowledging keeps the ring. -/
theorem Sending.delivered [Binary64 F] {c : Channel F} (h : Sending sent c) (sequence : UInt16)
    (rtt : F) : Sending sent (c.delivered sequence rtt) := by
  obtain ⟨n, hn, hring, -⟩ := c.txRing_delivered sequence rtt
  have hmarked : Sending sent { c with txRing := markDelivered c.txRing sequence } := by
    refine h.of_forall rfl (by simp) fun k e' hk => ?_
    obtain ⟨e, he, hseq, hraw, -⟩ := getElem?_markDelivered hk
    exact ⟨e, he, hseq, hraw⟩
  exact hmarked.of_drop rfl (by simpa using hn) hring

/-- Retransmitting keeps the ring, and what is retransmitted is a copy of the message at that
place of the ring. -/
theorem Sending.timeout {c : Channel F} (h : Sending sent c) (sequence : UInt16) (now : ℕ) :
    Sending sent (c.timeout sequence now).1 ∧
      ∀ raw, (c.timeout sequence now).2 = .ok (some raw) →
        ∃ msg, sent[c.base sent + c.txRing.findIdx (·.sequence == sequence)]? = some msg ∧
          raw = (pack msg
            (seqOf (c.base sent + c.txRing.findIdx (·.sequence == sequence)))).raw := by
  have hset {i : ℕ} {env env' : Envelope} (hi : c.txRing[i]? = some env)
      (hseq : env'.sequence = env.sequence) (hraw : env'.raw = env.raw) (k : ℕ) (e' : Envelope)
      (hk : (c.txRing.set i env')[k]? = some e') :
      ∃ e, c.txRing[k]? = some e ∧ e'.sequence = e.sequence ∧ e'.raw = e.raw := by
    by_cases hik : i = k
    · subst hik
      rw [List.getElem?_set_self (List.getElem?_eq_some_iff.mp hi).1] at hk
      obtain rfl := Option.some.inj hk
      exact ⟨env, hi, hseq, hraw⟩
    · rw [getElem?_set_ne hik] at hk
      exact ⟨e', hk, rfl, rfl⟩
  cases hget : c.txRing[c.txRing.findIdx (·.sequence == sequence)]? with
  | none => simp [Channel.timeout, hget, h]
  | some env =>
    obtain ⟨msg, hmsg, -, hraw⟩ := h.copy _ env hget
    simp only [Channel.timeout, hget]
    split_ifs with htries
    · exact ⟨h.of_forall rfl (by simp) (hset hget rfl rfl), fun _ hr => by cases hr⟩
    · refine ⟨h.of_forall rfl (by simp) (hset hget rfl rfl), fun raw hr => ?_⟩
      obtain rfl := Option.some.inj (Except.ok.inj hr)
      exact ⟨msg, hmsg, hraw⟩

/-! ### The line -/

/-- A sender, a receiver and the network between them. `wire` keeps every transmitted copy with
the index of its message; `sent` and `received` are the messages given to the sender and returned
by the receiver. -/
structure Line (F : Type) where
  sender : Channel F
  receiver : Channel F
  sent : List Message
  wire : List (ℕ × Bytes)
  received : List Message
  deriving DecidableEq, Repr

/-- What can happen on a line. `receive k` hands the `k`-th transmitted copy to the receiver. -/
inductive LineEvent (F : Type)
  | send (msg : Message) (maxEnvelopeSize : Option ℕ) (now : ℕ)
  | delivered (sequence : UInt16) (rtt : F)
  | timeout (sequence : UInt16) (now : ℕ)
  | updateRtt (rtt : F)
  | receive (k : ℕ)
  | registerMessageType (msgType : UInt16)
  | registerSystemType (msgType : UInt16)
  | shutdownSender
  | shutdownReceiver

namespace Line

variable [Binary64 F]

/-- Two fresh channels. -/
def init (rtt rtt' : F) : Line F := ⟨.new rtt, .new rtt', [], [], []⟩

/-- One event. A call that fails leaves the line as it is, but for `timeout`. -/
def step (l : Line F) : LineEvent F → Option (Line F)
  | .send msg maxEnvelopeSize now =>
    match l.sender.sendTrackedWithMaxEnvelope msg maxEnvelopeSize now with
    | .error _ => some l
    | .ok (sender, _, raw) => some { l with
        sender
        sent := l.sent ++ [msg]
        wire := l.wire ++ [(l.sent.length, raw)] }
  | .delivered sequence rtt => some { l with sender := l.sender.delivered sequence rtt }
  | .timeout sequence now =>
    let index := l.sender.base l.sent + l.sender.txRing.findIdx (·.sequence == sequence)
    let (sender, result) := l.sender.timeout sequence now
    match result with
    | .ok (some raw) => some { l with sender, wire := l.wire ++ [(index, raw)] }
    | _ => some { l with sender }
  | .updateRtt rtt => some { l with sender := l.sender.updateRtt rtt }
  | .receive k => do
    let (_, raw) ← l.wire[k]?
    match l.receiver.receive raw with
    | .error _ => some l
    | .ok (receiver, messages) => some { l with receiver, received := l.received ++ messages }
  | .registerMessageType msgType =>
    match l.receiver.registerMessageType msgType with
    | .error _ => some l
    | .ok receiver => some { l with receiver }
  | .registerSystemType msgType =>
    some { l with receiver := l.receiver.registerSystemType msgType }
  | .shutdownSender => some { l with sender := l.sender.shutdown }
  | .shutdownReceiver => some { l with receiver := l.receiver.shutdown }

/-- The copy handed to the receiver belongs to the `i`-th message with `r - 65488 < i < r + 65536`,
where `r` messages have been delivered. -/
def InTurn (l : Line F) : LineEvent F → Prop
  | .receive k => ∀ copy ∈ l.wire[k]?,
      l.received.length < copy.1 + 65488 ∧ copy.1 < l.received.length + 65536
  | _ => True

omit [Binary64 F] in
instance (l : Line F) : ∀ e, Decidable (l.InTurn e)
  | .receive k => inferInstanceAs (Decidable (∀ copy ∈ l.wire[k]?, _))
  | .send .. | .delivered .. | .timeout .. | .updateRtt _ | .registerMessageType _
  | .registerSystemType _ | .shutdownSender | .shutdownReceiver => isTrue trivial

/-! ### The invariant -/

/-- Sender, network and receiver agree on what has been sent and received. -/
structure Inv (l : Line F) : Prop where
  sending : Sending l.sent l.sender
  wire : ∀ i raw, (i, raw) ∈ l.wire →
    ∃ msg, l.sent[i]? = some msg ∧ raw = (pack msg (seqOf i)).raw
  received : l.received <+: l.sent
  receiving : Receiving l.sent l.received.length l.receiver

theorem inv_init (rtt rtt' : F) : (init rtt rtt').Inv :=
  ⟨⟨rfl, le_rfl, by simp [init, new]⟩, by simp [init], nil_prefix, ⟨le_rfl, rfl, Held.nil⟩⟩

/-- Sending either fails and changes nothing, or appends the message to ring and wire. -/
theorem step_send {l l' : Line F} {msg : Message} {maxEnvelopeSize : Option ℕ} {now : ℕ}
    (h : l.step (.send msg maxEnvelopeSize now) = some l') :
    l' = l ∨ ∃ e : Envelope, e.sequence = l.sender.nextTxSequence ∧
      e.raw = (pack msg l.sender.nextTxSequence).raw ∧ e.state = .sent ∧
      l' = { l with
        sender := { l.sender with
          nextTxSequence := nextSeq l.sender.nextTxSequence
          txRing := l.sender.txRing ++ [e] }
        sent := l.sent ++ [msg]
        wire := l.wire ++ [(l.sent.length, e.raw)] } := by
  simp only [step] at h
  cases hs : l.sender.sendTrackedWithMaxEnvelope msg maxEnvelopeSize now with
  | error e =>
    simp only [hs] at h
    exact .inl (Option.some.inj h).symm
  | ok result =>
    obtain ⟨sender, seq, raw⟩ := result
    simp only [hs] at h
    obtain rfl := Option.some.inj h
    unfold sendTrackedWithMaxEnvelope at hs
    obtain ⟨-, hs⟩ := ite_error_eq_ok.mp hs
    obtain ⟨-, hs⟩ := ite_error_eq_ok.mp hs
    simp only at hs
    split at hs
    next => cases hs
    next =>
      obtain ⟨rfl, hrest⟩ := Prod.mk.inj (Except.ok.inj hs)
      obtain ⟨-, rfl⟩ := Prod.mk.inj hrest
      exact .inr ⟨{ pack msg l.sender.nextTxSequence with
        state := .sent, tries := 1, lastSent := some now }, rfl, rfl, rfl, rfl⟩

/-- A timeout either transmits nothing or a copy from the ring. -/
theorem step_timeout {l l' : Line F} {sequence : UInt16} {now : ℕ}
    (h : l.step (.timeout sequence now) = some l') :
    l' = { l with sender := (l.sender.timeout sequence now).1 } ∨
      ∃ raw, (l.sender.timeout sequence now).2 = .ok (some raw) ∧
        l' = { l with
          sender := (l.sender.timeout sequence now).1
          wire := l.wire ++ [(l.sender.base l.sent +
            l.sender.txRing.findIdx (·.sequence == sequence), raw)] } := by
  simp only [step] at h
  split at h
  next raw hraw => exact .inr ⟨raw, hraw, (Option.some.inj h).symm⟩
  next => exact .inl (Option.some.inj h).symm

omit [Binary64 F] in
/-- Handing over a copy that is in turn keeps the invariant. -/
private theorem inv_receive {l : Line F} (hI : l.Inv) {i : ℕ} {raw : Bytes}
    (hwire : (i, raw) ∈ l.wire) (hlo : l.received.length < i + 65488)
    (hhi : i < l.received.length + 65536) {receiver : Channel F} {messages : List Message}
    (h : l.receiver.receive raw = .ok (receiver, messages)) :
    Inv { l with receiver, received := l.received ++ messages } := by
  obtain ⟨msg, hmsg, rfl⟩ := hI.wire i raw hwire
  by_cases hok : l.receiver.active = true ∧ msg.1 ∈ l.receiver.registeredTypes
  · obtain ⟨next, ring, out, hreceive, hprefix, hreceiving, -⟩ :=
      hI.receiving.receive hmsg hlo hhi hok.1 hok.2
    obtain ⟨rfl, rfl⟩ := Prod.mk.inj (Except.ok.inj (hreceive.symm.trans h))
    rw [← prefix_iff_eq_take.mp hI.received] at hprefix
    refine ⟨hI.sending, hI.wire, hprefix, ?_⟩
    rwa [length_append]
  · obtain ⟨e, he⟩ := receive_refused (i := i) hok
    cases he.symm.trans h

/-- One event whose copy is in turn keeps the invariant. -/
theorem inv_step (l : Line F) (e : LineEvent F) (l' : Line F) (hI : l.Inv) (hturn : l.InTurn e)
    (h : l.step e = some l') : l'.Inv := by
  cases e with
  | send msg maxEnvelopeSize now =>
    rcases step_send h with rfl | ⟨e, hseq, hraw, -, rfl⟩
    · exact hI
    · rw [hI.sending.next_eq] at hseq hraw
      refine ⟨hI.sending.snoc msg hseq hraw rfl rfl, fun i raw hmem => ?_,
        hI.received.trans (prefix_append _ _), hI.receiving.append _⟩
      rcases mem_append.mp hmem with hmem | hmem
      · obtain ⟨m, hm, hraw⟩ := hI.wire i raw hmem
        exact ⟨m, getElem?_of_prefix (prefix_append _ _) hm, hraw⟩
      · obtain ⟨rfl, rfl⟩ := Prod.mk.inj (mem_singleton.mp hmem)
        exact ⟨msg, by simp, hraw⟩
  | delivered sequence rtt =>
    obtain rfl := Option.some.inj h
    exact ⟨hI.sending.delivered sequence rtt, hI.wire, hI.received, hI.receiving⟩
  | timeout sequence now =>
    obtain ⟨hsending, hcopy⟩ := hI.sending.timeout sequence now
    rcases step_timeout h with rfl | ⟨raw, hraw, rfl⟩
    · exact ⟨hsending, hI.wire, hI.received, hI.receiving⟩
    · refine ⟨hsending, fun i raw' hmem => ?_, hI.received, hI.receiving⟩
      rcases mem_append.mp hmem with hmem | hmem
      · exact hI.wire i raw' hmem
      · obtain ⟨rfl, rfl⟩ := Prod.mk.inj (mem_singleton.mp hmem)
        exact hcopy raw' hraw
  | updateRtt rtt =>
    obtain rfl := Option.some.inj h
    refine ⟨?_, hI.wire, hI.received, hI.receiving⟩
    simp only [updateRtt]
    split_ifs
    · exact ⟨hI.sending.next_eq, hI.sending.length_le, hI.sending.copy⟩
    · exact hI.sending
  | receive k =>
    obtain ⟨⟨i, raw⟩, hget, h⟩ := Option.bind_eq_some_iff.mp h
    obtain ⟨hlo, hhi⟩ := hturn (i, raw) hget
    cases hr : l.receiver.receive raw with
    | error e =>
      simp only [hr] at h
      exact Option.some.inj h ▸ hI
    | ok result =>
      obtain ⟨receiver, messages⟩ := result
      simp only [hr] at h
      obtain rfl := Option.some.inj h
      exact inv_receive hI (mem_of_getElem? hget) hlo hhi hr
  | registerMessageType msgType =>
    simp only [step, registerMessageType] at h
    split_ifs at h <;> obtain rfl := Option.some.inj h
    · exact hI
    · exact hI
    · exact ⟨hI.sending, hI.wire, hI.received, hI.receiving.of_eq rfl rfl⟩
  | registerSystemType msgType =>
    obtain rfl := Option.some.inj h
    refine ⟨hI.sending, hI.wire, hI.received, ?_⟩
    simp only [registerSystemType]
    split_ifs
    · exact hI.receiving
    · exact hI.receiving.of_eq rfl rfl
  | shutdownSender =>
    obtain rfl := Option.some.inj h
    exact ⟨⟨hI.sending.next_eq, Nat.zero_le _, by simp [shutdown]⟩, hI.wire, hI.received,
      hI.receiving⟩
  | shutdownReceiver =>
    obtain rfl := Option.some.inj h
    exact ⟨hI.sending, hI.wire, hI.received, hI.receiving.le_length, hI.receiving.next_eq,
      Held.nil⟩

/-- **Ordered, exactly-once delivery.** In every run of a sender, a receiver and a network that
loses, reorders, delays and duplicates envelopes, as long as every copy handed to the receiver is
in turn, what the receiver has returned is a prefix of what was sent. -/
theorem received_prefix (rtt rtt' : F) {events : List (LineEvent F)} {l : Line F}
    (hturn : Along step InTurn (init rtt rtt') events)
    (hrun : run step (init rtt rtt') events = some l) : l.received <+: l.sent :=
  (run_invariant_along inv_step (inv_init rtt rtt') hturn hrun).received

/-- Two messages that arrive in the wrong order, the first one twice. -/
private def swappedEvents : List (LineEvent ℚ) :=
  [.registerMessageType 1, .send (1, [0xaa]) none 0, .send (1, [0xbb]) none 1, .receive 1,
    .receive 0, .timeout 0 2, .receive 2]

theorem received_prefix_swapped :
    ∃ l, run step (init (1 / 8 : ℚ) (1 / 8)) swappedEvents = some l ∧
      l.received = [(1, [0xaa]), (1, [0xbb])] ∧ l.received <+: l.sent := by
  have hturn : Along step InTurn (init (1 / 8 : ℚ) (1 / 8)) swappedEvents := by decide +kernel
  have hsome : (run step (init (1 / 8 : ℚ) (1 / 8)) swappedEvents).map (·.received) =
      some [(1, [0xaa]), (1, [0xbb])] := by decide +kernel
  obtain ⟨l, hrun, hreceived⟩ := Option.map_eq_some_iff.mp hsome
  exact ⟨l, hrun, hreceived, received_prefix _ _ hturn hrun⟩

end Line

end Reticulum
