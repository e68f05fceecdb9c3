import Reticulum.Resource.Frames
import Reticulum.Resource.Terminal

/-!
# Incoming resources under arbitrary calls

An incoming resource counts the parts it has received without a gap. The count is advanced from its
old value whenever a part arrives; a cancel drops the parts but keeps the count. Assembling looks at
the count and the parts only, so that a resource whose assembly has failed can be assembled again.

## Main definitions

* `ResourceCall`, `InboundResource.call` — the entry points of an incoming resource.
* `InboundResource.Exact` — the count is the length of the received front part.
* `InboundResource.Yields` — decryption gives data of the advertised hash.

## Main results

* `InboundResource.exact_iff` — the count is exact as long as no cancel drops a counted part.
* `InboundResource.assemble_error_final` — when a failed assembly is final.
-/

namespace Reticulum

open List

/-! ### Lists -/

variable {α : Type*}

/-- A front part that passes the test is skipped by `takeWhile`. -/
theorem length_takeWhile_of_take {p : α → Bool} {l : List α} {n : ℕ} (hn : n ≤ l.length)
    (h : ∀ a ∈ l.take n, p a = true) :
    (l.takeWhile p).length = n + ((l.drop n).takeWhile p).length := by
  conv_lhs => rw [← take_append_drop n l, takeWhile_append_of_pos h]
  rw [length_append, length_take, Nat.min_eq_left hn]

/-- What follows the elements that pass the test does not pass it. -/
theorem getElem?_length_takeWhile {p : α → Bool} {l : List α} {a : α}
    (h : l[(l.takeWhile p).length]? = some a) : p a = false := by
  induction l with
  | nil => simp at h
  | cons b l ih =>
    by_cases hb : p b = true
    · refine ih ?_
      simpa [takeWhile_cons, hb] using h
    · have hba : b = a := by simpa [takeWhile_cons, hb] using h
      simpa [hba] using hb

/-- Values that are all there. -/
theorem mapM_id_eq_some {l : List (Option α)} (h : ∀ o ∈ l, o.isSome = true) :
    l.mapM id = some (l.filterMap id) := by
  induction l with
  | nil => rfl
  | cons o l ih =>
    obtain ⟨a, rfl⟩ := Option.isSome_iff_exists.mp (h o mem_cons_self)
    simp [ih fun o ho => h o (mem_cons_of_mem _ ho)]

namespace Resource

/-- A call of an incoming resource. `adjust` stands for what the owner does to it between calls: it
changes the window and adds map hashes. -/
inductive ResourceCall
  | receivePart (data : Bytes)
  | handleCancel
  | assemble (decryptFn : Option (Bytes → Except ResourceError Bytes))
  | adjust (window : WindowState) (mapHashes : List (Octets 4))

namespace InboundResource

variable [Sha256] [Bzip2] {r : InboundResource}

/-- The resource after a call, and the payload that it returned. -/
def call (r : InboundResource) : ResourceCall → InboundResource × Option Bytes
  | .receivePart data => ((r.receivePart data).1, none)
  | .handleCancel => (r.handleCancel, none)
  | .assemble decryptFn => ((r.assemble decryptFn).1, (r.assemble decryptFn).2.toOption)
  | .adjust window mapHashes => ({ r with window, mapHashes }, none)

/-- The resource after some calls. -/
def after (r : InboundResource) (calls : List ResourceCall) : InboundResource :=
  calls.foldl (fun r c => (r.call c).1) r

/-! ### What the calls change -/

omit [Sha256] [Bzip2] in
theorem le_of_slot {mh : Octets 4} {i : ℕ} (h : r.slot mh = some i) :
    r.consecutiveCompleted ≤ i :=
  (mem_range'_1.mp (mem_of_find?_eq_some h)).1

omit [Bzip2] in
/-- A part is put into a slot behind the count, or dropped. -/
theorem receivePart_cases (r : InboundResource) (data : Bytes) :
    (∃ i, r.consecutiveCompleted ≤ i ∧ (r.receivePart data).1 =
      { r with parts := r.parts.set i (some data) }.updateConsecutive) ∨
    (r.receivePart data).1 = r := by
  unfold receivePart
  cases hslot : r.slot (getMapHash data r.randomHash.1) with
  | none => exact .inr rfl
  | some i => exact .inl ⟨i, le_of_slot hslot, rfl⟩

/-! ### The count -/

/-- The count is the length of the longest front part that has been received. -/
structure Exact (r : InboundResource) : Prop where
  length_parts : r.parts.length = r.totalParts
  count : r.consecutiveCompleted = (r.parts.takeWhile Option.isSome).length

omit [Sha256] [Bzip2] in
/-- Behind the count, the slots can be filled; skipping the filled ones keeps the count exact. -/
theorem Exact.set (h : r.Exact) {i : ℕ} (hi : r.consecutiveCompleted ≤ i) (data : Bytes) :
    { r with parts := r.parts.set i (some data) }.updateConsecutive.Exact := by
  refine ⟨by simpa [updateConsecutive] using h.length_parts, ?_⟩
  have hle : r.consecutiveCompleted ≤ r.parts.length :=
    h.count ▸ (List.takeWhile_prefix _).length_le
  refine (length_takeWhile_of_take (by simpa using hle) fun p hp => ?_).symm
  rw [take_set_of_le hi, h.count, ← prefix_iff_eq_take.mp (List.takeWhile_prefix _)] at hp
  exact mem_takeWhile_imp hp

omit [Sha256] [Bzip2] in
/-- A cancel drops the parts and keeps the count. -/
theorem handleCancel_exact_iff (h : r.Exact) :
    r.handleCancel.Exact ↔ r.consecutiveCompleted = 0 := by
  have hnone : (List.replicate r.parts.length (none : Option Bytes)).takeWhile Option.isSome = [] := by
    cases r.parts.length <;> rfl
  constructor
  · intro hexact
    have hcount : r.consecutiveCompleted = _ := hexact.count
    simpa only [handleCancel, hnone, length_nil] using hcount
  · intro hzero
    refine ⟨by simpa [handleCancel] using h.length_parts, ?_⟩
    simpa only [handleCancel, hnone, length_nil] using hzero

/-- The calls that keep the count exact. -/
theorem call_exact_iff (h : r.Exact) (c : ResourceCall) :
    (r.call c).1.Exact ↔ (c = .handleCancel → r.consecutiveCompleted = 0) := by
  cases c with
  | receivePart data =>
    simp only [call, reduceCtorEq, false_implies, iff_true]
    rcases receivePart_cases r data with ⟨i, hi, heq⟩ | heq
    · rw [heq]
      exact h.set hi data
    · rw [heq]
      exact h
  | handleCancel => simpa [call] using handleCancel_exact_iff h
  | assemble decryptFn =>
    simp only [call, reduceCtorEq, false_implies, iff_true]
    obtain ⟨state, metadata, heq, -⟩ := InboundTransfer.assemble_fst r decryptFn
    rw [heq]
    exact ⟨h.length_parts, h.count⟩
  | adjust window mapHashes =>
    simp only [call, reduceCtorEq, false_implies, iff_true]
    exact ⟨h.length_parts, h.count⟩

/-- **The count of received parts.** Whatever calls a new resource receives, its count is the length
of the longest front part that is present in every state exactly when each cancel finds the count at
zero. The number of received parts is counted afresh and is always right. -/
theorem exact_iff {totalParts totalSize dataSize : ℕ} {randomHash : Octets 4}
    {resourceHash : Octets 32} {flags : ResourceFlags} {mapHashes : List (Octets 4)}
    {linkSdu : Option ℕ}
    (h : withSdu totalParts totalSize dataSize randomHash resourceHash flags mapHashes linkSdu =
      .ok r) (calls : List ResourceCall) :
    ((∀ done, done <+: calls → (r.after done).Exact) ↔
      ∀ done, done ++ [.handleCancel] <+: calls → (r.after done).consecutiveCompleted = 0) ∧
    (r.after calls).receivedCount = ((r.after calls).parts.filter Option.isSome).length := by
  have hexact : r.Exact := by
    obtain ⟨-, rfl⟩ := withSdu_eq_ok_iff.mp h
    refine ⟨length_replicate, ?_⟩
    cases totalParts <;> rfl
  have hiff := forall_prefix_iff (f := fun r c => (InboundResource.call r c).1)
    (I := Exact) (G := fun _ _ => True)
    (C := fun r c => c = .handleCancel → r.consecutiveCompleted = 0)
    (fun r c hr => by simpa using call_exact_iff hr c) hexact calls
  refine ⟨⟨fun hall done hdone => ?_, fun hall => ?_⟩, countP_eq_length_filter⟩
  · exact hiff.mp ⟨hall, fun _ _ _ => trivial⟩ done _ hdone rfl
  · refine (hiff.mpr fun done c hdone hc => ?_).1
    subst hc
    exact hall done hdone

/-- The receiving side of the sample transfer: one part of five bytes. -/
def sampleIncoming : InboundResource where
  state := .transferring
  parts := [none]
  totalParts := 1
  randomHash := sampleTag
  resourceHash := sampleSha.digest [0x42, 1, 2, 3, 4]
  flags := {}
  totalSize := 5
  dataSize := 1
  consecutiveCompleted := 0
  window := .new
  mapHashes := [Octets.read 4 (sampleSha.digest [1, 2, 3, 4, 0x42, 1, 2, 3, 4]).1]
  sdu := Resource.sdu
  metadata := none

omit [Sha256] [Bzip2] in
theorem withSdu_sampleIncoming :
    withSdu 1 5 1 sampleTag sampleIncoming.resourceHash {} sampleIncoming.mapHashes none =
      .ok sampleIncoming := by
  decide +kernel

omit [Sha256] [Bzip2] in
/-- A cancel before the part arrives. -/
theorem exact_iff_sampleIncoming :
    letI := sampleSha
    letI := sampleBzip2
    (sampleIncoming.after [.handleCancel, .receivePart [1, 2, 3, 4, 0x42]]).Exact := by
  let _ := sampleSha
  let _ := sampleBzip2
  refine ((exact_iff withSdu_sampleIncoming
    [.handleCancel, .receivePart [1, 2, 3, 4, 0x42]]).1.mpr fun done hdone => ?_) _
    (prefix_refl _)
  match done with
  | [] => rfl
  | [c] => simp at hdone
  | c :: c' :: done => simpa using hdone.length_le

omit [Sha256] [Bzip2] in
/-- A cancel after the part has arrived: no part is present, but one is counted, and the resource
still counts as complete. -/
theorem canceled_still_complete :
    letI := sampleSha
    letI := sampleBzip2
    withSdu 1 5 1 sampleTag sampleIncoming.resourceHash {} sampleIncoming.mapHashes none =
      .ok sampleIncoming ∧
    (sampleIncoming.after [.receivePart [1, 2, 3, 4, 0x42], .handleCancel]).parts = [none] ∧
    (sampleIncoming.after [.receivePart [1, 2, 3, 4, 0x42], .handleCancel]).consecutiveCompleted
      = 1 ∧
    (sampleIncoming.after [.receivePart [1, 2, 3, 4, 0x42], .handleCancel]).isComplete = true :=
  ⟨withSdu_sampleIncoming, by decide +kernel, by decide +kernel, by decide +kernel⟩

/-! ### Failed assemblies -/

/-- The payloads that some calls return. -/
def payloads (r : InboundResource) : List ResourceCall → List Bytes
  | [] => []
  | c :: calls => (r.call c).2.toList ++ (r.call c).1.payloads calls

/-- The result of decrypting the parts that are present. -/
def decrypted (r : InboundResource) (decryptFn : Option (Bytes → Except ResourceError Bytes)) :
    Except ResourceError Bytes :=
  (decryptFn.getD .ok) (r.parts.filterMap id).flatten

/-- The data splits into metadata, if any, and payload. -/
def Framed (r : InboundResource) (data : Bytes) : Prop :=
  r.flags.hasMetadata = true →
    ∃ a b c rest, data = a :: b :: c :: rest ∧ ofBe24 a b c ≤ rest.length

/-- The parts decrypt and, if they are long enough to be looked at, decompress. -/
def Decodes (r : InboundResource) (decryptFn : Option (Bytes → Except ResourceError Bytes)) : Prop :=
  ∃ stream, r.decrypted decryptFn = .ok stream ∧
    (stream.length < 4 ∨ ∃ data, unprocess r.flags.compressed (stream.drop 4) = .ok data)

/-- The parts decode to well-formed data of the advertised hash. -/
def Yields (r : InboundResource) (decryptFn : Option (Bytes → Except ResourceError Bytes)) : Prop :=
  ∃ stream data, r.decrypted decryptFn = .ok stream ∧ 4 ≤ stream.length ∧
    unprocess r.flags.compressed (stream.drop 4) = .ok data ∧
    computeResourceHash data r.randomHash.1 = r.resourceHash ∧ r.Framed data

/-- All parts are present and counted. -/
structure Full (r : InboundResource) : Prop where
  complete : r.isComplete = true
  present : ∀ p ∈ r.parts, p.isSome = true

omit [Sha256] [Bzip2] in
theorem splitMetadata_cases (r : InboundResource) (data : Bytes) :
    (r.Framed data ∧ ∃ metadata payload,
      r.splitMetadata data = ({ r with state := .complete, metadata }, .ok payload)) ∨
    (¬ r.Framed data ∧ ∃ e, r.splitMetadata data = ({ r with state := .corrupt }, .error e)) := by
  unfold splitMetadata Framed
  by_cases hflag : r.flags.hasMetadata = true
  · simp only [hflag, if_true, forall_const]
    split
    next a b c rest =>
      by_cases hlen : rest.length < ofBe24 a b c
      · refine .inr ⟨?_, _, if_pos hlen⟩
        rintro ⟨a', b', c', rest', heq, hle⟩
        simp only [cons.injEq] at heq
        obtain ⟨rfl, rfl, rfl, rfl⟩ := heq
        exact absurd hle (Nat.not_le.mpr hlen)
      · exact .inl ⟨⟨a, b, c, rest, rfl, Nat.not_lt.mp hlen⟩, _, _, if_neg hlen⟩
    next hshort =>
      refine .inr ⟨?_, _, rfl⟩
      rintro ⟨a, b, c, rest, heq, -⟩
      exact hshort a b c rest heq
  · exact .inl ⟨fun h => absurd h hflag, r.metadata, data, if_neg hflag⟩

variable {decryptFn : Option (Bytes → Except ResourceError Bytes)}

/-- How the decrypted stream is checked. -/
theorem assemble_of_full (h : r.Full) {stream : Bytes}
    (hstream : r.decrypted decryptFn = .ok stream) :
    r.assemble decryptFn =
      if stream.length < 4 then ({ r with state := .corrupt }, .error .corrupt)
      else
        match unprocess r.flags.compressed (stream.drop 4) with
        | .error e => ({ r with state := .assembling }, .error e)
        | .ok data =>
          if computeResourceHash data r.randomHash.1 ≠ r.resourceHash then
            ({ r with state := .corrupt }, .error .hashMismatch)
          else { r with state := .assembling }.splitMetadata data := by
  unfold decrypted at hstream
  unfold assemble
  rw [if_neg (not_not.mpr h.complete)]
  simp only [mapM_id_eq_some h.present]
  rewrite [hstream]
  rfl

theorem assemble_of_decrypted_error (h : r.Full) {e : ResourceError}
    (he : r.decrypted decryptFn = .error e) :
    r.assemble decryptFn = ({ r with state := .assembling }, .error e) := by
  unfold decrypted at he
  unfold assemble
  rw [if_neg (not_not.mpr h.complete)]
  simp only [mapM_id_eq_some h.present, he]

/-- What an assembly of parts that are all present comes to. -/
theorem assemble_cases (h : r.Full) (decryptFn : Option (Bytes → Except ResourceError Bytes)) :
    (r.Yields decryptFn ∧ ∃ payload, (r.assemble decryptFn).2 = .ok payload) ∨
    (¬ r.Yields decryptFn ∧ r.Decodes decryptFn ∧ (∃ e, (r.assemble decryptFn).2 = .error e) ∧
      (r.assemble decryptFn).1.state = .corrupt) ∨
    (¬ r.Yields decryptFn ∧ ¬ r.Decodes decryptFn ∧ (∃ e, (r.assemble decryptFn).2 = .error e) ∧
      (r.assemble decryptFn).1.state = .assembling) := by
  cases hdec : r.decrypted decryptFn with
  | error e =>
    rw [assemble_of_decrypted_error h hdec]
    exact .inr (.inr ⟨by simp [Yields, hdec], by simp [Decodes, hdec], ⟨e, rfl⟩, rfl⟩)
  | ok stream =>
    rw [assemble_of_full h hdec]
    by_cases hlen : stream.length < 4
    · rw [if_pos hlen]
      exact .inr (.inl ⟨by simp [Yields, hdec, hlen], by simp [Decodes, hdec, hlen], ⟨_, rfl⟩, rfl⟩)
    rw [if_neg hlen]
    cases hun : unprocess r.flags.compressed (stream.drop 4) with
    | error e =>
      exact .inr (.inr ⟨by simp [Yields, hdec, hun], by simp [Decodes, hdec, hun, hlen], ⟨e, rfl⟩, rfl⟩)
    | ok data =>
      have hdecodes : r.Decodes decryptFn := by simp [Decodes, hdec, hun]
      by_cases hhash : computeResourceHash data r.randomHash.1 = r.resourceHash
      · simp only [hhash, ne_eq, not_true_eq_false, if_false]
        rcases splitMetadata_cases { r with state := .assembling } data with
          ⟨hframed, _, payload, heq⟩ | ⟨hframed, e, heq⟩
        · exact .inl ⟨⟨stream, data, hdec, Nat.not_lt.mp hlen, hun, hhash, hframed⟩, payload,
            congrArg Prod.snd heq⟩
        · refine .inr (.inl ⟨?_, hdecodes, ⟨e, congrArg Prod.snd heq⟩, by rw [heq]⟩)
          rintro ⟨_, _, hstream, -, hdata, -, hframed'⟩
          obtain rfl := Except.ok.inj (hdec.symm.trans hstream)
          obtain rfl := Except.ok.inj (hun.symm.trans hdata)
          exact hframed hframed'
      · simp only [ne_eq, hhash, not_false_eq_true, if_true]
        exact .inr (.inl ⟨by simp [Yields, hdec, hun, hhash], hdecodes, ⟨_, rfl⟩, trivial⟩)

omit [Bzip2] in
/-- A part that arrives when all are counted is dropped. -/
theorem receivePart_of_full (h : r.Full) (data : Bytes) : (r.receivePart data).1 = r := by
  have hslot : r.slot (getMapHash data r.randomHash.1) = none := by
    have hcount : r.consecutiveCompleted = r.totalParts := by simpa [isComplete] using h.complete
    simp [slot, windowEnd, hcount]
  rw [receivePart, hslot]

/-- Apart from cancels, the calls of a full resource change nothing that assembling looks at. -/
theorem Full.call (h : r.Full) {c : ResourceCall} (hc : c ≠ .handleCancel) :
    (r.call c).1.Full ∧ ∀ decryptFn, ((r.call c).1.Yields decryptFn ↔ r.Yields decryptFn) := by
  cases c with
  | receivePart data =>
    rw [InboundResource.call, receivePart_of_full h]
    exact ⟨h, fun _ => Iff.rfl⟩
  | handleCancel => exact absurd rfl hc
  | assemble decryptFn =>
    obtain ⟨state, metadata, heq, -⟩ := InboundTransfer.assemble_fst r decryptFn
    simp only [InboundResource.call, heq]
    exact ⟨⟨h.complete, h.present⟩, fun _ => Iff.rfl⟩
  | adjust window mapHashes => exact ⟨⟨h.complete, h.present⟩, fun _ => Iff.rfl⟩

/-- A full resource returns a payload when some decryption yields one. -/
theorem payloads_eq_nil_iff (h : r.Full) {calls : List ResourceCall}
    (hcalls : .handleCancel ∉ calls) :
    r.payloads calls = [] ↔ ∀ decryptFn, .assemble decryptFn ∈ calls → ¬ r.Yields decryptFn := by
  induction calls generalizing r with
  | nil => simp [payloads]
  | cons c calls ih =>
    rw [mem_cons, not_or] at hcalls
    obtain ⟨hne, hcalls⟩ := hcalls
    obtain ⟨hfull, hyields⟩ := h.call (Ne.symm hne)
    have hhead : (r.call c).2 = none ↔
        ∀ decryptFn, .assemble decryptFn = c → ¬ r.Yields decryptFn := by
      cases c with
      | receivePart data => simp [InboundResource.call]
      | handleCancel => exact absurd rfl hne
      | adjust window mapHashes => simp [InboundResource.call]
      | assemble decryptFn =>
        simp only [InboundResource.call, ResourceCall.assemble.injEq, forall_eq]
        rcases assemble_cases h decryptFn with ⟨hy, payload, hok⟩ | ⟨hn, -, ⟨e, he⟩, -⟩ |
            ⟨hn, -, ⟨e, he⟩, -⟩
        · simp [hok, hy, Except.toOption]
        · simp [he, hn, Except.toOption]
        · simp [he, hn, Except.toOption]
    rw [payloads, append_eq_nil_iff, Option.toList_eq_nil_iff, hhead, ih hfull hcalls]
    simp only [hyields, mem_cons]
    constructor
    · rintro ⟨hfirst, hrest⟩ decryptFn (hmem | hmem)
      · exact hfirst decryptFn hmem
      · exact hrest decryptFn hmem
    · exact fun hall => ⟨fun d hd => hall d (.inl hd), fun d hd => hall d (.inr hd)⟩

/-- The slot behind the count is empty. Those before it are filled, until a cancel. -/
structure Settled (r : InboundResource) : Prop where
  length_parts : r.parts.length = r.totalParts
  count_le : r.consecutiveCompleted ≤ r.totalParts
  next : ∀ p, r.parts[r.consecutiveCompleted]? = some p → p = none

theorem Settled.call (h : r.Settled) (c : ResourceCall) : (r.call c).1.Settled := by
  cases c with
  | receivePart data =>
    rcases receivePart_cases r data with ⟨i, -, heq⟩ | heq
    · rw [InboundResource.call, heq]
      set parts := r.parts.set i (some data) with hparts
      have hlen : parts.length = r.totalParts := by rw [hparts, length_set, h.length_parts]
      have hskip := (List.takeWhile_prefix (l := parts.drop r.consecutiveCompleted)
        Option.isSome).length_le
      have hle := h.count_le
      rw [length_drop, hlen] at hskip
      refine ⟨hlen, ?_, fun p hp => ?_⟩
      · simp only [updateConsecutive]
        omega
      · simp only [updateConsecutive] at hp
        rw [← getElem?_drop] at hp
        simpa using getElem?_length_takeWhile hp
    · rw [InboundResource.call, heq]
      exact h
  | handleCancel =>
    refine ⟨by simpa [InboundResource.call, handleCancel] using h.length_parts, h.count_le,
      fun p hp => ?_⟩
    simp only [InboundResource.call, handleCancel, getElem?_replicate] at hp
    split_ifs at hp
    exact (Option.some.inj hp).symm
  | assemble decryptFn =>
    obtain ⟨state, metadata, heq, -⟩ := InboundTransfer.assemble_fst r decryptFn
    rw [InboundResource.call, heq]
    exact ⟨h.length_parts, h.count_le, h.next⟩
  | adjust window mapHashes => exact ⟨h.length_parts, h.count_le, h.next⟩

theorem Settled.after (h : r.Settled) (calls : List ResourceCall) : (r.after calls).Settled := by
  induction calls generalizing r with
  | nil => exact h
  | cons c calls ih => exact ih (h.call c)

omit [Sha256] [Bzip2] in
/-- A new resource has received nothing. -/
theorem Settled.of_withSdu {totalParts totalSize dataSize : ℕ} {randomHash : Octets 4}
    {resourceHash : Octets 32} {flags : ResourceFlags} {mapHashes : List (Octets 4)}
    {linkSdu : Option ℕ}
    (h : withSdu totalParts totalSize dataSize randomHash resourceHash flags mapHashes linkSdu =
      .ok r) : r.Settled := by
  obtain ⟨-, rfl⟩ := withSdu_eq_ok_iff.mp h
  refine ⟨length_replicate, Nat.zero_le _, fun p hp => ?_⟩
  rw [getElem?_replicate] at hp
  split_ifs at hp
  exact (Option.some.inj hp).symm

omit [Sha256] [Bzip2] in
/-- When no slot is empty, all parts are counted. -/
theorem Settled.full (h : r.Settled) (hpresent : ∀ p ∈ r.parts, p.isSome = true) : r.Full := by
  refine ⟨?_, hpresent⟩
  by_contra hcount
  have hlt : r.consecutiveCompleted < r.parts.length := by
    have hle := h.count_le
    have hlen := h.length_parts
    simp only [isComplete, decide_eq_true_eq] at hcount
    omega
  have hnone := h.next _ (getElem?_eq_getElem hlt)
  have hsome := hpresent _ (getElem_mem hlt)
  rw [hnone] at hsome
  cases hsome

/-- **Failed assemblies.** Let a resource, whatever calls it has received, have all its parts, and let
assembling them be an error. Then the resource is corrupt and no later parts and assemblies return a
payload, exactly when the error came neither from decryption nor from decompression and no later
decryption yields data of the advertised hash. A decryption with the same result yields no such
data. -/
theorem assemble_error_final {totalParts totalSize dataSize : ℕ} {randomHash : Octets 4}
    {resourceHash : Octets 32} {flags : ResourceFlags} {mapHashes : List (Octets 4)}
    {linkSdu : Option ℕ} {r₀ : InboundResource}
    (hnew : withSdu totalParts totalSize dataSize randomHash resourceHash flags mapHashes linkSdu =
      .ok r₀)
    {calls : List ResourceCall} (hr : r₀.after calls = r)
    (hpresent : ∀ p ∈ r.parts, p.isSome = true)
    {decryptFn : Option (Bytes → Except ResourceError Bytes)} {e : ResourceError}
    (herror : (r.assemble decryptFn).2 = .error e)
    {later : List ResourceCall} (hlater : .handleCancel ∉ later) :
    ((r.assemble decryptFn).1.state = .corrupt ∧ (r.assemble decryptFn).1.payloads later = [] ↔
      r.Decodes decryptFn ∧ ∀ decryptFn', .assemble decryptFn' ∈ later → ¬ r.Yields decryptFn') ∧
    ∀ decryptFn', r.decrypted decryptFn' = r.decrypted decryptFn → ¬ r.Yields decryptFn' := by
  have hfull : r.Full := (hr ▸ (Settled.of_withSdu hnew).after calls).full hpresent
  obtain ⟨hfull', hyields⟩ := hfull.call (c := .assemble decryptFn) nofun
  have hpayloads : (r.assemble decryptFn).1.payloads later = [] ↔ _ :=
    payloads_eq_nil_iff hfull' hlater
  have hstate : ((r.assemble decryptFn).1.state = .corrupt ↔ r.Decodes decryptFn) ∧
      ¬ r.Yields decryptFn := by
    rcases assemble_cases hfull decryptFn with ⟨-, payload, hok⟩ | ⟨hn, hd, -, hs⟩ | ⟨hn, hd, -, hs⟩
    · cases herror.symm.trans hok
    · exact ⟨iff_of_true hs hd, hn⟩
    · exact ⟨iff_of_false (by rw [hs]; nofun) hd, hn⟩
  refine ⟨?_, fun decryptFn' hsame hy => hstate.2 ?_⟩
  · rw [hpayloads, hstate.1]
    simp only [hyields]
  · unfold Yields at hy ⊢
    rwa [hsame] at hy

/-- The sample after its part has arrived. -/
def sampleArrived : InboundResource :=
  letI := sampleSha
  letI := sampleBzip2
  sampleIncoming.after [.receivePart [1, 2, 3, 4, 0x42]]

omit [Sha256] [Bzip2] in
/-- Decryption to nothing is final when it is repeated. -/
theorem assemble_error_final_sampleArrived :
    letI := sampleSha
    letI := sampleBzip2
    (sampleArrived.assemble (some fun _ => .ok [])).1.state = .corrupt ∧
      (sampleArrived.assemble (some fun _ => .ok [])).1.payloads
        [.assemble (some fun _ => .ok []), .receivePart [1, 2, 3, 4, 0x42]] = [] := by
  let _ := sampleSha
  let _ := sampleBzip2
  have herror : (sampleArrived.assemble (some fun _ => .ok [])).2 = .error .corrupt := by
    decide +kernel
  have hlater : ResourceCall.handleCancel ∉
      [.assemble (some fun _ => .ok []), .receivePart [1, 2, 3, 4, 0x42]] := by simp
  have hfinal := assemble_error_final (r := sampleArrived) withSdu_sampleIncoming rfl
    (by decide +kernel) herror hlater
  refine hfinal.1.mpr ⟨⟨[], rfl, .inl (by decide)⟩, fun decryptFn' hmem => hfinal.2 decryptFn' ?_⟩
  obtain rfl : decryptFn' = some fun _ => .ok [] := by simpa using hmem
  rfl

omit [Sha256] [Bzip2] in
/-- After a failed decryption the resource is not corrupt, and the next assembly returns the
payload. -/
theorem failed_decryption_not_final :
    letI := sampleSha
    letI := sampleBzip2
    let failed := sampleArrived.assemble (some fun _ => .error .decryptFailed)
    (∀ p ∈ sampleArrived.parts, p.isSome = true) ∧ failed.2 = .error .decryptFailed ∧
      failed.1.state = .assembling ∧ failed.1.payloads [.assemble none] = [[0x42]] := by
  decide +kernel

end InboundResource

end Resource

end Reticulum
