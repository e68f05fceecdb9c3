import Reticulum.Channel.Basic
import Reticulum.Foundation.Lists

/-!
# The reorder buffer under arbitrary input

Whatever bytes a channel receives, its reorder buffer holds each sequence number at most once, within
`WINDOW_MAX` ahead of the next number and in that order. So the delivery loop takes a front part of
the buffer: the longest run of numbers that starts at the next one.

## Main definitions

* `Ordered` — the buffer is in the order of the distances from the next number, within bounds.
* `Channel.receiveAll` — the channel after some calls of `receive`.

## Main results

* `drain_ordered` — the delivery loop on an ordered buffer.
* `Channel.receive_ring` — the buffer is ordered after every sequence of calls, and what the next call
  admits and delivers.
-/

namespace Reticulum

open Channel Envelope List

/-! ### Distances -/

theorem nextSeq_eq (seq : UInt16) : nextSeq seq = seq + 1 := by
  apply UInt16.toNat_inj.mp
  simp only [nextSeq, seqModulus, UInt16.toNat_ofNat', UInt16.toNat_add, UInt16.toNat_one]
  omega

/-- Counting on from the number after `seq`. -/
theorem nextSeq_add (seq : UInt16) (n : ℕ) :
    nextSeq seq + UInt16.ofNat n = seq + UInt16.ofNat (n + 1) := by
  rw [nextSeq_eq, UInt16.ofNat_add, UInt16.add_assoc, UInt16.add_comm 1]
  rfl

theorem seqDistance_eq_zero {next seq : UInt16} : seqDistance next seq = 0 ↔ seq = next := by
  have hn := next.toNat_lt
  have hs := seq.toNat_lt
  rw [← UInt16.toNat_inj]
  simp only [seqDistance, UInt16.le_iff_toNat_le, seqModulus]
  split_ifs <;> omega

theorem seqDistance_inj {next seq seq' : UInt16}
    (h : seqDistance next seq = seqDistance next seq') : seq = seq' := by
  have hn := next.toNat_lt
  have hs := seq.toNat_lt
  have hs' := seq'.toNat_lt
  apply UInt16.toNat_inj.mp
  simp only [seqDistance, UInt16.le_iff_toNat_le, seqModulus] at h
  split_ifs at h <;> omega

/-- One number on, what is ahead is nearer by one. -/
theorem seqDistance_nextSeq {next seq : UInt16} (h : seqDistance next seq ≠ 0) :
    seqDistance (nextSeq next) seq + 1 = seqDistance next seq := by
  have hn := next.toNat_lt
  have hs := seq.toNat_lt
  have hnext : (nextSeq next).toNat = (next.toNat + 1) % 65536 := by
    simp only [nextSeq, seqModulus, UInt16.toNat_ofNat']
    omega
  simp only [seqDistance, UInt16.le_iff_toNat_le, seqModulus, hnext] at h ⊢
  split_ifs at h ⊢ <;> omega

/-! ### Ordered buffers -/

/-- The buffer stands in the order of the distances from the next number, which are between `lo` and
`WINDOW_MAX`. -/
structure Ordered (next : UInt16) (lo : ℕ) (ring : List Envelope) : Prop where
  sorted : (ring.map fun e => seqDistance next e.sequence).Pairwise (· < ·)
  bounds : ∀ e ∈ ring, lo ≤ seqDistance next e.sequence ∧ seqDistance next e.sequence ≤ windowMax

namespace Ordered

variable {next : UInt16} {lo : ℕ} {ring : List Envelope}

theorem nil : Ordered next lo [] := ⟨List.Pairwise.nil, by simp⟩

theorem mono {lo' : ℕ} (h : Ordered next lo ring) (hlo : lo' ≤ lo) : Ordered next lo' ring :=
  ⟨h.sorted, fun e he => ⟨hlo.trans (h.bounds e he).1, (h.bounds e he).2⟩⟩

/-- The numbers in the buffer are distinct. -/
theorem nodup (h : Ordered next lo ring) : (ring.map (·.sequence)).Nodup := by
  refine Nodup.of_map (seqDistance next) ?_
  rw [map_map]
  exact h.sorted.imp Nat.ne_of_lt

/-- Beyond the next number there is room for `WINDOW_MAX` envelopes. -/
theorem length_le (h : Ordered next 1 ring) : ring.length ≤ windowMax := by
  have hnodup : (ring.map fun e => seqDistance next e.sequence).Nodup := h.sorted.imp Nat.ne_of_lt
  have hsub : (ring.map fun e => seqDistance next e.sequence).toFinset ⊆ Finset.Icc 1 windowMax := by
    intro d hd
    obtain ⟨e, he, rfl⟩ := mem_map.mp (mem_toFinset.mp hd)
    exact Finset.mem_Icc.mpr (h.bounds e he)
  have hcard := Finset.card_le_card hsub
  rw [toFinset_card_of_nodup hnodup, length_map, Nat.card_Icc] at hcard
  exact hcard

/-- The next number is not in a buffer of later ones. -/
theorem next_notMem (h : Ordered next 1 ring) : next ∉ ring.map (·.sequence) := by
  intro hmem
  obtain ⟨e, he, hseq⟩ := mem_map.mp hmem
  have hpos := (h.bounds e he).1
  rw [seqDistance_eq_zero.mpr hseq] at hpos
  exact absurd hpos (by decide)

/-- An acceptable envelope with a new number is put into its place. -/
theorem emplaceEnvelope {envelope : Envelope} (h : Ordered next 1 ring)
    (hdistance : seqDistance next envelope.sequence ≤ windowMax) :
    Ordered next 0 (emplaceEnvelope next ring envelope) := by
  by_cases hheld : envelope.sequence ∈ ring.map (·.sequence)
  · rw [emplaceEnvelope_of_mem hheld]
    exact h.mono (Nat.zero_le 1)
  refine ⟨?_, fun e he => ⟨Nat.zero_le _, ?_⟩⟩
  · have hany : ¬ ring.any (·.sequence == envelope.sequence) = true := by
      intro hany
      obtain ⟨e, he, hseq⟩ := any_eq_true.mp hany
      exact hheld (mem_map.mpr ⟨e, he, by simpa using hseq⟩)
    rw [Channel.emplaceEnvelope, if_neg hany]
    refine pairwise_insertIdx_findIdx (f := fun e : Envelope => seqDistance next e.sequence)
      h.sorted ?_
    intro hmem
    obtain ⟨e, he, heq⟩ := mem_map.mp hmem
    exact hheld (mem_map.mpr ⟨e, he, seqDistance_inj heq⟩)
  · rcases mem_cons.mp ((perm_emplaceEnvelope hheld).mem_iff.mp he) with rfl | he
    · exact hdistance
    · exact (h.bounds e he).2

/-- Behind its first envelope the buffer is ordered from the number after the next one. -/
theorem tail {e : Envelope} (h : Ordered next 0 (e :: ring)) : Ordered (nextSeq next) 0 ring := by
  obtain ⟨hhead, hsorted⟩ := pairwise_cons.mp h.sorted
  have hstep : ∀ e' ∈ ring, seqDistance (nextSeq next) e'.sequence + 1 =
      seqDistance next e'.sequence := by
    intro e' he'
    refine seqDistance_nextSeq ?_
    have := hhead _ (mem_map_of_mem he')
    omega
  refine ⟨?_, fun e' he' => ⟨Nat.zero_le _, ?_⟩⟩
  · rw [pairwise_map] at hsorted ⊢
    refine hsorted.imp_of_mem fun ha hb hlt => ?_
    have := hstep _ ha
    have := hstep _ hb
    omega
  · have := (h.bounds e' (mem_cons_of_mem _ he')).2
    have := hstep e' he'
    omega

/-- A buffer whose first envelope is not the next one holds later ones only. -/
theorem later {e : Envelope} (h : Ordered next 0 (e :: ring)) (he : e.sequence ≠ next) :
    Ordered next 1 (e :: ring) := by
  obtain ⟨hhead, -⟩ := pairwise_cons.mp h.sorted
  refine ⟨h.sorted, fun e' he' => ⟨?_, (h.bounds e' he').2⟩⟩
  rcases mem_cons.mp he' with rfl | he'
  · exact Nat.one_le_iff_ne_zero.mpr fun h0 => he (seqDistance_eq_zero.mp h0)
  · have := hhead _ (mem_map_of_mem he')
    omega

end Ordered

/-- The message in an envelope. -/
def Envelope.message (e : Envelope) : Message := (e.msgType, e.payload)

/-- Envelopes with consecutive numbers from `next`. -/
def IsRun (next : UInt16) (taken : List Envelope) : Prop :=
  ∀ i e, taken[i]? = some e → e.sequence = next + UInt16.ofNat i

/-- On an ordered buffer the delivery loop takes a run of consecutive numbers from its front and stops
where the next number is missing. -/
theorem drain_ordered {fuel : ℕ} {next : UInt16} {ring : List Envelope}
    (hfuel : ring.length ≤ fuel) (h : Ordered next 0 ring) :
    ∃ taken rest, ring = taken ++ rest ∧ IsRun next taken ∧
      drain fuel next ring = (next + UInt16.ofNat taken.length, rest, taken.map message) ∧
      Ordered (next + UInt16.ofNat taken.length) 1 rest := by
  induction fuel generalizing next ring with
  | zero =>
    obtain rfl := length_eq_zero_iff.mp (Nat.le_zero.mp hfuel)
    exact ⟨[], [], rfl, by simp [IsRun], by simp [drain], Ordered.nil⟩
  | succ fuel ih =>
    cases ring with
    | nil => exact ⟨[], [], rfl, by simp [IsRun], by simp [drain], Ordered.nil⟩
    | cons e ring =>
      by_cases he : e.sequence = next
      · obtain ⟨taken, rest, rfl, hrun, hdrain, hrest⟩ := ih (Nat.le_of_succ_le_succ hfuel) h.tail
        rw [nextSeq_add] at hdrain hrest
        refine ⟨e :: taken, rest, rfl, ?_, ?_, hrest⟩
        · rintro i e' hi
          cases i with
          | zero =>
            obtain rfl := Option.some.inj hi
            simpa using he
          | succ i =>
            rw [hrun i e' hi, nextSeq_add]
        · have hfirst : (e :: (taken ++ rest)).findIdx (·.sequence == next) = 0 := by
            simp [findIdx_cons, he]
          simp [drain, hfirst, hdrain, message]
      · -- The first envelope is the nearest one.
        have hlater := h.later he
        refine ⟨[], e :: ring, rfl, by simp [IsRun], ?_, by simpa using hlater⟩
        have hmissing : (e :: ring)[(e :: ring).findIdx (·.sequence == next)]? = none := by
          rw [getElem?_eq_none_iff, findIdx_eq_length_of_false]
          intro e' he'
          have hne : e'.sequence ≠ next := fun hseq =>
            hlater.next_notMem (mem_map.mpr ⟨e', he', hseq⟩)
          simpa using hne
        simp [drain, hmissing]

/-! ### Calls of `receive` -/

namespace Channel

variable {F : Type}

/-- The channel after some calls of `receive`. A call that fails changes nothing. -/
def receiveAll (c : Channel F) (raws : List Bytes) : Channel F :=
  raws.foldl (fun c raw => match c.receive raw with
    | .ok (c', _) => c'
    | .error _ => c) c

/-- The envelope is within the window and its number is not held already. -/
def Admits (c : Channel F) (envelope : Envelope) : Prop :=
  seqDistance c.nextRxSequence envelope.sequence ≤ windowMax ∧
    envelope.sequence ∉ c.rxRing.map (·.sequence)

/-- The channel is closed, or the bytes are no envelope of a registered type. -/
def Rejects (c : Channel F) (raw : Bytes) : Prop :=
  c.active = false ∨ ∀ envelope, unpack raw = .ok envelope →
    envelope.msgType ∉ c.registeredTypes

/-- What a call with an envelope does: the buffer gains the envelope or nothing, and `taken`, the
longest run of consecutive numbers from the next one, is delivered out of it. -/
structure Receives (c : Channel F) (envelope : Envelope) (c' : Channel F) (taken : List Envelope)
    (out : List Message) : Prop where
  admitted : c.Admits envelope → (taken ++ c'.rxRing).Perm (envelope :: c.rxRing)
  dropped : ¬ c.Admits envelope → taken ++ c'.rxRing = c.rxRing
  delivered : out = taken.map message
  consecutive : IsRun c.nextRxSequence taken
  next : c'.nextRxSequence = c.nextRxSequence + UInt16.ofNat taken.length
  maximal : c'.nextRxSequence ∉ c'.rxRing.map (·.sequence)

/-- A call fails on what the channel rejects, and on nothing else. -/
theorem receive_eq_error_iff {c : Channel F} {raw : Bytes} :
    (∃ err, c.receive raw = .error err) ↔ c.Rejects raw := by
  unfold receive Rejects
  cases c.active with
  | false => simp
  | true =>
    cases unpack raw with
    | error err => simp
    | ok envelope =>
      by_cases htype : envelope.msgType ∈ c.registeredTypes
      · by_cases hnear : isAcceptableSequence c.nextRxSequence envelope.sequence = true
        · simp [htype, hnear]
        · simp [htype, hnear]
      · simp [htype]

/-- One call on an ordered buffer. -/
theorem receive_ordered {c c' : Channel F} {raw : Bytes} {out : List Message}
    (h : Ordered c.nextRxSequence 1 c.rxRing) (hreceive : c.receive raw = .ok (c', out)) :
    Ordered c'.nextRxSequence 1 c'.rxRing ∧
      ∃ envelope taken, unpack raw = .ok envelope ∧ c.Receives envelope c' taken out := by
  unfold receive at hreceive
  split at hreceive
  · cases hreceive
  split at hreceive
  · cases hreceive
  next envelope hunpack =>
    split at hreceive
    · cases hreceive
    have haccept := isAcceptableSequence_iff c.nextRxSequence envelope.sequence
    split at hreceive
    next hguard =>
      obtain ⟨rfl, rfl⟩ := Prod.mk.inj (Except.ok.inj hreceive)
      have hfar : ¬ c.Admits envelope := fun hadmits => by
        simp [haccept.mpr hadmits.1] at hguard
      exact ⟨h, envelope, [], hunpack,
        { admitted := fun hadmits => absurd hadmits hfar
          dropped := fun _ => rfl
          delivered := rfl
          consecutive := by simp [IsRun]
          next := by simp
          maximal := h.next_notMem }⟩
    next hguard =>
      have hnear := haccept.mp (by simpa using hguard)
      obtain ⟨taken, rest, hsplit, hrun, hdrain, hrest⟩ :=
        drain_ordered le_rfl (h.emplaceEnvelope hnear)
      simp only [hdrain] at hreceive
      obtain ⟨rfl, rfl⟩ := Prod.mk.inj (Except.ok.inj hreceive)
      refine ⟨hrest, envelope, taken, hunpack, ?_, ?_, rfl, hrun, rfl, hrest.next_notMem⟩
      · intro hadmits
        rw [← hsplit]
        exact perm_emplaceEnvelope hadmits.2
      · intro hheld
        rw [← hsplit]
        refine emplaceEnvelope_of_mem ?_
        by_contra hnew
        exact hheld ⟨hnear, hnew⟩

theorem receiveAll_ordered {c : Channel F} (h : Ordered c.nextRxSequence 1 c.rxRing)
    (raws : List Bytes) :
    Ordered (c.receiveAll raws).nextRxSequence 1 (c.receiveAll raws).rxRing := by
  induction raws generalizing c with
  | nil => exact h
  | cons raw raws ih =>
    rw [receiveAll, foldl_cons]
    cases hreceive : c.receive raw with
    | error err => exact ih h
    | ok r => exact ih (receive_ordered h hreceive).1

/-- **The reorder buffer.** After any calls of `receive` on a channel that started with an empty
buffer, the buffer holds distinct numbers in the order of their distances from the next one, which
are between one and `WINDOW_MAX`. A further call with an envelope of a registered type admits it
exactly when it is within the window and not held, and delivers the longest run of consecutive
numbers from the next one. Every other call is an error. -/
theorem receive_ring (c : Channel F) (hempty : c.rxRing = []) (raws : List Bytes) :
    let c' := c.receiveAll raws
    Ordered c'.nextRxSequence 1 c'.rxRing ∧
    (c'.rxRing.map (·.sequence)).Nodup ∧ c'.rxRing.length ≤ windowMax ∧
    ∀ raw, (∃ err, c'.receive raw = .error err) ∧ c'.Rejects raw ∨
      ∃ c'' out envelope taken, c'.receive raw = .ok (c'', out) ∧ ¬ c'.Rejects raw ∧
        unpack raw = .ok envelope ∧ c'.Receives envelope c'' taken out := by
  intro c'
  have hordered : Ordered c'.nextRxSequence 1 c'.rxRing := by
    refine receiveAll_ordered ?_ raws
    rw [hempty]
    exact Ordered.nil
  refine ⟨hordered, hordered.nodup, hordered.length_le, fun raw => ?_⟩
  cases hreceive : c'.receive raw with
  | error err => exact .inl ⟨⟨err, rfl⟩, receive_eq_error_iff.mp ⟨err, hreceive⟩⟩
  | ok r =>
    obtain ⟨c'', out⟩ := r
    obtain ⟨-, envelope, taken, hunpack, hreceives⟩ := receive_ordered hordered hreceive
    refine .inr ⟨c'', out, envelope, taken, rfl, fun hrejects => ?_, hunpack, hreceives⟩
    obtain ⟨err, herr⟩ := receive_eq_error_iff.mpr hrejects
    cases hreceive.symm.trans herr

/-- A channel at the turn of the sequence numbers, for messages of one type. -/
def atTurn : Channel ℚ :=
  { new 1 with nextRxSequence := 0xFFFF, registeredTypes := [7] }

/-- The number after the turn comes first, then the one before it. -/
theorem receive_ring_atTurn :
    let c' := atTurn.receiveAll [[0, 7, 0, 1, 0, 0], [0, 7, 0, 0, 0, 0], [0, 7, 0xFF, 0, 0, 0]]
    c'.rxRing.map (·.sequence) = [0, 1] ∧ c'.rxRing.length ≤ windowMax :=
  ⟨by decide +kernel, (receive_ring atTurn rfl
    [[0, 7, 0, 1, 0, 0], [0, 7, 0, 0, 0, 0], [0, 7, 0xFF, 0, 0, 0]]).2.2.1⟩

/-- An envelope of an unregistered type is not admitted, although its number is the next one. -/
theorem unregistered_not_admitted :
    let envelope := pack (8, []) 0xFFFF
    unpack envelope.raw = .ok envelope ∧ atTurn.Admits envelope ∧
      atTurn.receive envelope.raw = .error (.unknownMessageType 8) := by
  refine ⟨by decide +kernel, ⟨by decide, by decide⟩, by decide +kernel⟩

end Channel

end Reticulum
