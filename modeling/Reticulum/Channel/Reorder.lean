import Reticulum.Channel.Basic
import Reticulum.Foundation.Lists

/-!
# The reorder buffer against the message sequence

A receiver that has delivered the first `r` messages of a sequence holds some of the next
`WINDOW_MAX` ones in its reorder buffer. Sequence numbers identify messages only within a turn of
65536; the statements here carry the unbounded message index along.
-/

namespace Reticulum

open Channel Envelope List

/-- The envelope of the `i`-th message of `sent`. -/
def IsEnvelopeOf (sent : List Message) (i : ℕ) (e : Envelope) : Prop :=
  ∃ msg, sent[i]? = some msg ∧ e = pack msg (seqOf i)

variable {sent : List Message} {e : Envelope} {i : ℕ}

theorem IsEnvelopeOf.sequence_eq (h : IsEnvelopeOf sent i e) : e.sequence = seqOf i := by
  obtain ⟨msg, -, rfl⟩ := h
  rfl

/-- Later messages do not change earlier envelopes. -/
theorem IsEnvelopeOf.append (h : IsEnvelopeOf sent i e)
    (more : List Message) : IsEnvelopeOf (sent ++ more) i e := by
  obtain ⟨msg, hget, rfl⟩ := h
  exact ⟨msg, getElem?_of_prefix (prefix_append _ _) hget, rfl⟩

/-- The buffer holds envelopes of messages from `lo` to `WINDOW_MAX` ahead of `r`, each number
once. -/
structure Held (sent : List Message) (r lo : ℕ) (ring : List Envelope) : Prop where
  exists_index : ∀ e ∈ ring, ∃ d, lo ≤ d ∧ d ≤ windowMax ∧ IsEnvelopeOf sent (r + d) e
  nodup : (ring.map (·.sequence)).Nodup

/-- A receiver that has delivered the first `r` messages of `sent`. -/
structure Receiving {F : Type} (sent : List Message) (r : ℕ) (c : Channel F) : Prop where
  le_length : r ≤ sent.length
  next_eq : c.nextRxSequence = seqOf r
  held : Held sent r 1 c.rxRing

namespace Held

variable {sent : List Message} {r lo : ℕ} {ring : List Envelope}

theorem nil : Held sent r lo [] := ⟨by simp, nodup_nil⟩

theorem append (h : Held sent r lo ring) (more : List Message) :
    Held (sent ++ more) r lo ring := by
  refine ⟨fun e he => ?_, h.nodup⟩
  obtain ⟨d, hlo, hd, hcopy⟩ := h.exists_index e he
  exact ⟨d, hlo, hd, hcopy.append more⟩

/-- Within the window a number belongs to one index. -/
theorem index_eq {d d' : ℕ} (hd : d ≤ windowMax) (hd' : d' ≤ windowMax)
    (h : IsEnvelopeOf sent (r + d) e) (hseq : e.sequence = seqOf (r + d')) : d = d' := by
  have hw : windowMax = 48 := rfl
  have heq := seqOf_inj (h.sequence_eq.symm.trans hseq) (by omega) (by omega)
  omega

/-- A buffer without the next message holds later ones only. -/
theorem pos_of_notMem (h : Held sent r 0 ring) (hnot : seqOf r ∉ ring.map (·.sequence)) :
    Held sent r 1 ring := by
  refine ⟨fun e he => ?_, h.nodup⟩
  obtain ⟨d, -, hd, hcopy⟩ := h.exists_index e he
  refine ⟨d, Nat.one_le_iff_ne_zero.mpr ?_, hd, hcopy⟩
  rintro rfl
  exact hnot (mem_map.mpr ⟨e, he, hcopy.sequence_eq⟩)

/-- Taking the next message out of the buffer moves the window on by one. -/
theorem eraseIdx {env : Envelope} (h : Held sent r 0 ring) (hi : ring[i]? = some env)
    (hseq : env.sequence = seqOf r) :
    IsEnvelopeOf sent r env ∧ Held sent (r + 1) 0 (ring.eraseIdx i) := by
  obtain ⟨hlt, rfl⟩ := List.getElem?_eq_some_iff.mp hi
  have hperm := getElem_cons_eraseIdx_perm hlt
  obtain ⟨hnot, hnodup⟩ := nodup_cons.mp
    ((hperm.map (·.sequence)).nodup_iff.mpr h.nodup)
  obtain ⟨d, -, hd, hcopy⟩ := h.exists_index _ (getElem_mem hlt)
  obtain rfl : d = 0 := index_eq hd (Nat.zero_le _) hcopy hseq
  refine ⟨hcopy, fun e he => ?_, hnodup⟩
  obtain ⟨d, -, hd, hcopy'⟩ := h.exists_index e (mem_of_mem_eraseIdx he)
  cases d with
  | zero =>
    -- Its number would stand in the buffer twice.
    exact absurd (mem_map.mpr ⟨e, he, hcopy'.sequence_eq.trans hseq.symm⟩) hnot
  | succ d =>
    refine ⟨d, Nat.zero_le _, Nat.le_of_succ_le hd, ?_⟩
    rwa [Nat.add_right_comm, Nat.add_assoc]

end Held

variable {ring : List Envelope}

/-- The delivery loop returns the next messages in order and keeps the others. -/
theorem drain_spec {fuel r : ℕ} (hfuel : ring.length ≤ fuel) (hr : r ≤ sent.length)
    (h : Held sent r 0 ring) :
    ∃ out ring', drain fuel (seqOf r) ring = (seqOf (r + out.length), ring', out) ∧
      sent.take r ++ out <+: sent ∧ Held sent (r + out.length) 1 ring' ∧
      ∀ d e, d ≤ windowMax → IsEnvelopeOf sent (r + d) e → e ∈ ring →
        d < out.length ∨ e ∈ ring' := by
  induction fuel generalizing r ring with
  | zero =>
    obtain rfl := length_eq_zero_iff.mp (Nat.le_zero.mp hfuel)
    exact ⟨[], [], rfl, by simpa using take_prefix r sent, Held.nil, by simp⟩
  | succ fuel ih =>
    cases hget : ring[ring.findIdx (·.sequence == seqOf r)]? with
    | none =>
      refine ⟨[], ring, ?_, by simpa using take_prefix r sent, ?_, fun _ _ _ _ he => .inr he⟩
      · simp only [drain, hget]
        rfl
      · refine h.pos_of_notMem fun hmem => ?_
        obtain ⟨e, he, hseq⟩ := mem_map.mp hmem
        have hlt := findIdx_lt_length_of_exists (p := (·.sequence == seqOf r))
          ⟨e, he, by simp [hseq]⟩
        exact absurd hget (by simp [getElem?_eq_getElem hlt])
    | some env =>
      obtain ⟨hlt, hget'⟩ := List.getElem?_eq_some_iff.mp hget
      have hseq : env.sequence = seqOf r := by
        simpa [hget'] using findIdx_getElem (w := hlt)
      obtain ⟨⟨msg, hmsg, rfl⟩, hheld⟩ := h.eraseIdx hget hseq
      have hlen : (ring.eraseIdx (ring.findIdx (·.sequence == seqOf r))).length ≤ fuel := by
        rw [length_eraseIdx_of_lt hlt]
        omega
      have hrlt : r < sent.length := (List.getElem?_eq_some_iff.mp hmsg).1
      obtain ⟨out, ring', hdrain, hprefix, hheld', hkeep⟩ := ih hlen hrlt hheld
      have htake : sent.take (r + 1) = sent.take r ++ [msg] := by
        rw [take_add_one, hmsg, Option.toList_some]
      refine ⟨msg :: out, ring', ?_, ?_, ?_, ?_⟩
      · simp only [drain, hget, nextSeq_seqOf, hdrain, pack_msgType,
          payload_pack, length_cons]
        congr 2
        omega
      · rwa [htake, append_assoc] at hprefix
      · rwa [length_cons, Nat.add_comm out.length, ← Nat.add_assoc]
      · intro d e hd hcopy he
        cases d with
        | zero => exact .inl (Nat.zero_lt_succ _)
        | succ d =>
          have hrest : e ∈ ring.eraseIdx (ring.findIdx (·.sequence == seqOf r)) := by
            rcases mem_cons.mp ((getElem_cons_eraseIdx_perm hlt).mem_iff.mpr he) with
              rfl | he
            · rw [hget'] at hcopy
              exact absurd (Held.index_eq hd (Nat.zero_le _) hcopy rfl) (Nat.succ_ne_zero d)
            · exact he
          rw [Nat.add_comm d 1, ← Nat.add_assoc] at hcopy
          rcases hkeep d e (Nat.le_of_succ_le hd) hcopy hrest with hlt | hmem
          · exact .inl (Nat.succ_lt_succ hlt)
          · exact .inr hmem

/-! ### One call of `receive` -/

variable {F : Type} {sent : List Message} {r i : ℕ} {msg : Message} {c : Channel F}

theorem Receiving.append (h : Receiving sent r c) (more : List Message) :
    Receiving (sent ++ more) r c :=
  ⟨h.le_length.trans (by simp), h.next_eq, h.held.append more⟩

/-- Only the fields that concern reception matter to a receiver. -/
theorem Receiving.of_eq {c' : Channel F} (h : Receiving sent r c)
    (hnext : c'.nextRxSequence = c.nextRxSequence) (hring : c'.rxRing = c.rxRing) :
    Receiving sent r c' :=
  ⟨h.le_length, hnext.trans h.next_eq, hring ▸ h.held⟩

/-- Of the copies that may arrive, the guard accepts those at most `WINDOW_MAX` ahead. -/
theorem isAcceptableSequence_seqOf (hlo : r < i + 65488) (hhi : i < r + 65536) :
    isAcceptableSequence (seqOf r) (seqOf i) = true ↔ r ≤ i ∧ i ≤ r + windowMax := by
  have hw : windowMax = 48 := rfl
  rw [isAcceptableSequence_iff, seqDistance_seqOf, hw]
  omega

/-- The buffer after an acceptable copy is emplaced. -/
theorem Held.emplaceEnvelope {d : ℕ} (h : Held sent r 1 ring) (hd : d ≤ windowMax)
    (hmsg : sent[r + d]? = some msg) :
    Held sent r 0 (emplaceEnvelope (seqOf r) ring (pack msg (seqOf (r + d)))) ∧
      ∀ e, e ∈ emplaceEnvelope (seqOf r) ring (pack msg (seqOf (r + d))) ↔
        e = pack msg (seqOf (r + d)) ∨ e ∈ ring := by
  have h0 : Held sent r 0 ring :=
    ⟨fun e he => by
      obtain ⟨d, -, hd, hcopy⟩ := h.exists_index e he
      exact ⟨d, Nat.zero_le _, hd, hcopy⟩, h.nodup⟩
  by_cases hdup : seqOf (r + d) ∈ ring.map (·.sequence)
  · rw [emplaceEnvelope_of_mem hdup]
    refine ⟨h0, fun e => ⟨.inr, ?_⟩⟩
    rintro (rfl | he)
    · obtain ⟨e, he, hseq⟩ := mem_map.mp hdup
      obtain ⟨d', -, hd', hcopy⟩ := h.exists_index e he
      obtain rfl : d' = d := Held.index_eq hd' hd hcopy hseq
      obtain ⟨msg', hmsg', rfl⟩ := hcopy
      obtain rfl := Option.some.inj (hmsg.symm.trans hmsg')
      exact he
    · exact he
  · have hperm : (Channel.emplaceEnvelope (seqOf r) ring
        (pack msg (seqOf (r + d)))).Perm (pack msg (seqOf (r + d)) :: ring) :=
      Channel.perm_emplaceEnvelope hdup
    have hmem := fun e => (hperm.mem_iff (a := e)).trans mem_cons
    refine ⟨⟨fun e he => ?_, ?_⟩, hmem⟩
    · rcases (hmem e).mp he with rfl | he
      · exact ⟨d, Nat.zero_le _, hd, msg, hmsg, rfl⟩
      · exact h0.exists_index e he
    · rw [(hperm.map (·.sequence)).nodup_iff, map_cons, nodup_cons]
      exact ⟨hdup, h.nodup⟩

/-- A receiver refuses a copy when it is closed or does not know the message type. -/
theorem receive_refused (h : ¬ (c.active = true ∧ msg.1 ∈ c.registeredTypes)) :
    ∃ e, c.receive (pack msg (seqOf i)).raw = .error e := by
  unfold receive
  rw [unpack_pack]
  by_cases ha : c.active = true
  · have ht : msg.1 ∉ c.registeredTypes := fun ht => h ⟨ha, ht⟩
    simp [ha, ht]
  · simp [ha]

/-- One call of `receive` on a copy of the `i`-th message, neither a turn ahead nor nearly a turn
behind: it returns the next messages in order, keeps what it held, and holds or has returned the
`i`-th message if that is within the window. -/
theorem Receiving.receive (hc : Receiving sent r c) (hmsg : sent[i]? = some msg)
    (hlo : r < i + 65488) (hhi : i < r + 65536) (hactive : c.active = true)
    (htype : msg.1 ∈ c.registeredTypes) :
    ∃ nextRxSequence rxRing out,
      c.receive (pack msg (seqOf i)).raw =
        .ok ({ c with nextRxSequence, rxRing }, out) ∧
      sent.take r ++ out <+: sent ∧
      Receiving sent (r + out.length) { c with nextRxSequence, rxRing } ∧
      (i ≤ r + windowMax → i < r + out.length ∨ pack msg (seqOf i) ∈ rxRing) ∧
      ∀ d e, d ≤ windowMax → IsEnvelopeOf sent (r + d) e → e ∈ c.rxRing →
        d < out.length ∨ e ∈ rxRing := by
  have hguard : c.receive (pack msg (seqOf i)).raw =
      if !isAcceptableSequence (seqOf r) (seqOf i) then .ok (c, [])
      else
        let ring := emplaceEnvelope (seqOf r) c.rxRing (pack msg (seqOf i))
        let drained := drain ring.length (seqOf r) ring
        .ok ({ c with nextRxSequence := drained.1, rxRing := drained.2.1 }, drained.2.2) := by
    unfold Channel.receive
    rw [unpack_pack]
    simp [hactive, htype, hc.next_eq]
  by_cases hacc : r ≤ i ∧ i ≤ r + windowMax
  · obtain ⟨d, rfl⟩ := Nat.exists_eq_add_of_le hacc.1
    have hd : d ≤ windowMax := Nat.le_of_add_le_add_left hacc.2
    obtain ⟨hheld, hmem⟩ := hc.held.emplaceEnvelope hd hmsg
    obtain ⟨out, ring', hdrain, hprefix, hheld', hkeep⟩ :=
      drain_spec le_rfl hc.le_length hheld
    refine ⟨seqOf (r + out.length), ring', out, ?_, hprefix, ⟨?_, rfl, hheld'⟩, fun _ => ?_,
      fun d' e hd' hcopy he => hkeep d' e hd' hcopy ((hmem e).mpr (.inr he))⟩
    · rw [hguard, (isAcceptableSequence_seqOf hlo hhi).mpr hacc]
      simp only [Bool.not_true, Bool.false_eq_true, if_false, hdrain]
    · have hlen := hprefix.length_le
      rwa [length_append, length_take, Nat.min_eq_left hc.le_length] at hlen
    · rcases hkeep d _ hd ⟨msg, hmsg, rfl⟩ ((hmem _).mpr (.inl rfl)) with hlt | hmem
      · exact .inl (Nat.add_lt_add_left hlt r)
      · exact .inr hmem
  · have hno : isAcceptableSequence (seqOf r) (seqOf i) = false := by
      rw [← Bool.not_eq_true, isAcceptableSequence_seqOf hlo hhi]
      exact hacc
    refine ⟨c.nextRxSequence, c.rxRing, [], ?_, by simpa using take_prefix r sent, hc,
      fun hle => .inl ?_, fun _ _ _ _ he => .inr he⟩
    · rw [hguard, hno]
      rfl
    · simp only [length_nil]
      omega

end Reticulum
