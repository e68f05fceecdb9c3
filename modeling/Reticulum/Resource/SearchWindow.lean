import Reticulum.Resource.Soundness

/-!
# The search range of the sender

The sender looks for requested parts in a bounded range. It moves the range when the receiver reports
that its hash map is used up, to the window behind the reported map hash. When the reported hash is
not in the range, the sender takes the end of the range for the position of the receiver; a report
that is too old therefore moves the range beyond the receiver. As long as no handled report lies more
than one segment of the hash map behind an earlier one, the range covers whatever the receiver asks
for.

## Main definitions

* `Exchange.Fresh` — a step that hands no report to the sender that is too old.
* `Exchange.Tracks` — the invariant of exchanges with fresh reports.

## Main results

* `InboundTransfer.parseRequest_requestData` — the sender reads what the receiver wrote.
* `Exchange.Tracks.step` — fresh steps keep the invariant.
* `Exchange.search_range_sound` — the range covers what the receiver asks for.
-/

namespace Reticulum.Resource

open OutboundTransfer OutboundResource Octets
open List hiding replicate getElem?_eq_some_iff

/-! ### Requests -/

namespace OutboundTransfer

variable (resourceHash : Octets 32)

/-- A request for parts is read back. -/
theorem parseRequest_plain (requested : List (Octets 4)) :
    parseRequest resourceHash
        (hashmapIsNotExhausted :: (resourceHash.1 ++ requested.flatMap (·.1))) =
      some ⟨none, requested⟩ := by
  have hflag : ¬ hashmapIsNotExhausted = hashmapIsExhausted := by decide
  have hchunks := mapHashChunks_flatMap requested
  have hlen := length_flatMap_val requested
  generalize requested.flatMap (·.1) = hashes at hchunks hlen ⊢
  simp [parseRequest, hflag, hchunks, hlen]

/-- A request that reports a used-up hash map is read back. -/
theorem parseRequest_exhausted (mh : Octets 4) (requested : List (Octets 4)) :
    parseRequest resourceHash
        (hashmapIsExhausted :: (mh.1 ++ (resourceHash.1 ++ requested.flatMap (·.1)))) =
      some ⟨some mh, requested⟩ := by
  have hchunks := mapHashChunks_flatMap requested
  have hlen := length_flatMap_val requested
  generalize requested.flatMap (·.1) = hashes at hchunks hlen ⊢
  have hdrop : (mh.1 ++ (resourceHash.1 ++ hashes)).drop 36 = hashes := by
    rw [← append_assoc]
    exact drop_left' (by simp)
  have htotal : (mh.1 ++ (resourceHash.1 ++ hashes)).length = 36 + requested.length * 4 := by
    simp only [length_append, length_val, hlen]
    omega
  have hshort : ¬ (mh.1 ++ (resourceHash.1 ++ hashes)).length < 4 + 32 := by omega
  have hrest : ((mh.1 ++ (resourceHash.1 ++ hashes)).length - (4 + 32)) % 4 = 0 := by omega
  have hhash : ((mh.1 ++ (resourceHash.1 ++ hashes)).drop 4).take 32 = resourceHash.1 := by simp
  simp only [parseRequest, ne_eq, not_true_eq_false, and_false, ↓reduceIte, hshort, hhash, hrest,
    or_self, read_append, Nat.reduceAdd, hdrop, hchunks]

end OutboundTransfer

variable {mh : Octets 4}

namespace InboundTransfer

/-- Collected hashes belong to the given parts, and the collection stops early only at a part
without a map hash. -/
theorem collect_spec (r : InboundResource) (pns : List ℕ) (requested : List (Octets 4)) :
    (∀ mh ∈ (collect r pns requested).1, mh ∈ requested ∨ ∃ pn ∈ pns, r.mapHashes[pn]? = some mh) ∧
      ((collect r pns requested).2 = true → ∃ pn ∈ pns, r.mapHashes[pn]? = none) := by
  induction pns generalizing requested with
  | nil => exact ⟨fun mh hmh => .inl hmh, by simp [collect]⟩
  | cons pn pns ih =>
    have hskip {requested' : List (Octets 4)}
        (hsub : ∀ mh ∈ requested', mh ∈ requested ∨ r.mapHashes[pn]? = some mh) :
        (∀ mh ∈ (collect r pns requested').1,
          mh ∈ requested ∨ ∃ p ∈ pn :: pns, r.mapHashes[p]? = some mh) ∧
        ((collect r pns requested').2 = true → ∃ p ∈ pn :: pns, r.mapHashes[p]? = none) := by
      obtain ⟨hmem, hex⟩ := ih requested'
      refine ⟨fun mh hmh => ?_, fun h => ?_⟩
      · rcases hmem mh hmh with hold | ⟨p, hp, hget⟩
        · exact (hsub mh hold).imp_right fun h => ⟨pn, mem_cons_self, h⟩
        · exact .inr ⟨p, mem_cons_of_mem _ hp, hget⟩
      · obtain ⟨p, hp, hget⟩ := hex h
        exact ⟨p, mem_cons_of_mem _ hp, hget⟩
    have hadd {mh : Octets 4} (hget : r.mapHashes[pn]? = some mh) :
        ∀ mh' ∈ requested ++ [mh], mh' ∈ requested ∨ r.mapHashes[pn]? = some mh' := by
      intro mh' hmem
      rcases mem_append.mp hmem with hold | hnew
      · exact .inl hold
      · exact .inr (mem_singleton.mp hnew ▸ hget)
    rw [collect]
    split
    · split
      · rename_i hget
        exact ⟨fun mh hmh => .inl hmh, fun _ => ⟨pn, mem_cons_self, hget⟩⟩
      · rename_i mh hget
        split
        · exact ⟨fun mh' hmh' => (hadd hget mh' hmh').imp_right fun h =>
            ⟨pn, mem_cons_self, h⟩, by simp⟩
        · exact hskip (hadd hget)
    · split
      · exact ⟨fun mh hmh => .inl hmh, by simp⟩
      · exact hskip fun mh hmh => .inl hmh

variable {F : Type} {t : InboundTransfer F} {r : InboundResource}

/-- The hashes of a request belong to the window. -/
theorem mem_missing (h : mh ∈ (missing r).1) :
    ∃ pn, r.consecutiveCompleted ≤ pn ∧ pn < r.windowEnd ∧ r.mapHashes[pn]? = some mh := by
  rcases (collect_spec r _ []).1 mh h with hnil | ⟨pn, hpn, hget⟩
  · cases hnil
  · rw [mem_range'_1] at hpn
    exact ⟨pn, hpn.1, by omega, hget⟩

/-- A used-up hash map ends within the window. -/
theorem exhausted_missing (h : (missing r).2 = true) :
    ∃ pn, r.consecutiveCompleted ≤ pn ∧ pn < r.windowEnd ∧ r.mapHashes.length ≤ pn := by
  obtain ⟨pn, hpn, hget⟩ := (collect_spec r _ []).2 h
  rw [mem_range'_1] at hpn
  exact ⟨pn, hpn.1, by omega, getElem?_eq_none_iff.mp hget⟩

/-- The sender reads from a request what the receiver misses. -/
theorem parseRequest_requestData (hpos : 0 < t.hashmapHeight)
    (hlen : t.hashmapHeight ≤ t.resource.mapHashes.length) :
    parseRequest t.resource.resourceHash t.requestData =
      some ⟨if (missing t.resource).2 then t.resource.mapHashes[t.hashmapHeight - 1]? else none,
        (missing t.resource).1⟩ := by
  have hget : t.resource.mapHashes[t.hashmapHeight - 1]? =
      some (t.resource.mapHashes.get ⟨t.hashmapHeight - 1, by omega⟩) :=
    getElem?_eq_getElem _
  have hne : ¬ t.hashmapHeight = 0 := by omega
  unfold requestData
  cases hexhausted : (missing t.resource).2 with
  | false =>
    simp only [hexhausted, Bool.false_eq_true, ↓reduceIte, cons_append, nil_append]
    exact parseRequest_plain _ _
  | true =>
    simp only [hexhausted, ↓reduceIte, if_neg hne, hget, Option.map_some, Option.getD_some,
      cons_append, append_assoc]
    exact parseRequest_exhausted _ _ _

end InboundTransfer

/-! ### Reports -/

theorem hashmapMaxLen_linkMdu : hashmapMaxLen Wire.linkMdu = hashmapStride := by decide

theorem collisionGuardSize_linkMdu : collisionGuardSize Wire.linkMdu = 224 := by decide

namespace OutboundTransfer

variable {t : OutboundTransfer} {mh : Octets 4} {p : ℕ}

/-- A map hash in the search range is found where it is. -/
theorem locate_eq (hnodup : t.resource.mapHashes.Nodup) (hpos : 0 < p)
    (hget : t.resource.mapHashes[p - 1]? = some mh)
    (hstart : t.receiverMinConsecutiveHeight < p)
    (hend : p ≤ t.receiverMinConsecutiveHeight + 224) (hle : p ≤ t.resource.numParts) :
    t.locate mh = p := by
  have hunique (i : ℕ) (hi : t.resource.mapHashes[i]? = some mh) : i = p - 1 := by
    obtain ⟨hlt, -⟩ := getElem?_eq_some_iff.mp hi
    exact (getElem?_inj hlt hnodup).mp (hi.trans hget.symm)
  have hmem : p - 1 ∈ List.range' t.searchRange.1 (t.searchRange.2 - t.searchRange.1) := by
    rw [mem_range'_1]
    simp only [searchRange, collisionGuardSize_linkMdu]
    omega
  unfold locate
  dsimp only
  cases hfind : (List.range' t.searchRange.1 (t.searchRange.2 - t.searchRange.1)).find? fun i =>
      t.resource.mapHashes[i]? = some mh with
  | none =>
    have hnone := find?_eq_none.mp hfind _ hmem
    simp [hget] at hnone
  | some i =>
    have hi := find?_some hfind
    have heq := hunique i (by simpa using hi)
    simp only
    omega

/-- A report at the end of a segment that is not the last is answered with the next segment. -/
theorem hashmapAnswer_eq {resource : OutboundResource}
    (hlen : resource.mapHashes.length = resource.numParts) (hdvd : hashmapStride ∣ p)
    (hlt : p < resource.numParts) :
    hashmapAnswer resource p = .sendHmu (encodeHashmapUpdate resource.resourceHash
      (p / hashmapStride) (hashmapSegment resource (p / hashmapStride))) := by
  obtain ⟨segment, rfl⟩ := hdvd
  have hstride : hashmapStride = 74 := rfl
  have hdiv : hashmapStride * segment / hashmapStride = segment :=
    Nat.mul_div_cancel_left _ (by decide)
  have hne : hashmapSegment resource segment ≠ [] := by
    have hlength : (hashmapSegment resource segment).length =
        (min (min ((segment + 1) * hashmapStride) resource.numParts) resource.mapHashes.length -
          segment * hashmapStride) * 4 := by
      rw [hashmapSegment, hashmapMaxLen_linkMdu, length_flatMap_val, length_drop, length_take]
    intro hnil
    rw [hnil, length_nil, hlen, hstride] at hlength
    rw [hstride] at hlt
    omega
  rw [hashmapAnswer, hashmapMaxLen_linkMdu, hdiv, if_neg]
  rintro (hmod | hnil)
  · exact hmod (Nat.mul_mod_right _ _)
  · exact hne hnil

theorem heightBehind_eq (p : ℕ) : heightBehind p = p - 76 := by
  have hmax : windowMax = 75 := rfl
  unfold heightBehind
  split_ifs <;> omega

end OutboundTransfer

/-! ### The invariant -/

namespace Exchange

variable {F : Type}

/-- A step that hands no report to the sender that lies more than one segment of the hash map
behind an earlier one. -/
def Fresh (x : Exchange F) : Event → Prop
  | .deliver index _ _ => ∀ m ∈ x.log[index]?, ∀ p ∈ x.position m,
    x.reported ≤ p + hashmapMaxLen Wire.linkMdu
  | _ => True

instance (x : Exchange F) (e : Event) : Decidable (x.Fresh e) :=
  match e with
  | .deliver index _ _ => inferInstanceAs (Decidable (∀ m ∈ x.log[index]?, ∀ p ∈ x.position m,
    x.reported ≤ p + hashmapMaxLen Wire.linkMdu))
  | .requestNext .. | .checkTimeout .. | .tick _ | .createHmu | .complete | .cancelOutbound
  | .cancelInbound => isTrue trivial

/-- The used-up hash map of a request ends at a segment that the receiver has and has nearly
received. -/
def ReportOk (resource : OutboundResource) (height consecutive : ℕ) (mh : Octets 4) : Prop :=
  ∃ p, 0 < p ∧ p < resource.numParts ∧ hashmapStride ∣ p ∧ resource.mapHashes[p - 1]? = some mh ∧
    p ≤ height ∧ p ≤ consecutive + 74

/-- Requests are readable and report what is so; updates contain segments that were asked for. -/
def MessageOk (resource : OutboundResource) (height consecutive reported : ℕ) : Message → Prop
  | .request _ data => ∃ request,
    parseRequest resource.resourceHash data = some request ∧
      ∀ mh ∈ request.lastMapHash, ReportOk resource height consecutive mh
  | .update data => ∃ segment, segment * hashmapStride < resource.numParts ∧
    segment * hashmapStride ≤ reported ∧
    data = encodeHashmapUpdate resource.resourceHash segment
      (hashmapSegment resource segment)
  | _ => True

/-- The receiver knows the first map hashes, in whole segments. -/
structure HashmapOk (resource : OutboundResource) (t : InboundTransfer F) : Prop where
  resourceHash : t.resource.resourceHash = resource.resourceHash
  totalParts : t.resource.totalParts = resource.numParts
  mapHashes : t.resource.mapHashes = resource.mapHashes.take t.hashmapHeight
  height_pos : 0 < t.hashmapHeight
  height_le : t.hashmapHeight ≤ resource.numParts
  aligned : t.hashmapHeight = resource.numParts ∨ hashmapStride ∣ t.hashmapHeight
  bounded : t.resource.window.Bounded

/-- The two sides of an exchange whose steps are fresh: the range of the sender starts behind the
receiver and ends beyond the hash map of the receiver. -/
structure Tracks (resource : OutboundResource) (x : Exchange F) : Prop where
  sender : ∃ state window, x.sender.resource = { resource with state, window }
  receiver : HashmapOk resource x.receiver
  height_le : x.receiver.hashmapHeight ≤ x.reported + 74
  reported_le : x.reported ≤ x.receiver.resource.consecutiveCompleted + 74
  start_le : x.sender.receiverMinConsecutiveHeight ≤ x.reported - 76
  le_start : x.reported ≤ x.sender.receiverMinConsecutiveHeight + 150
  log : ∀ m ∈ x.log, MessageOk resource x.receiver.hashmapHeight
    x.receiver.resource.consecutiveCompleted x.reported m
  emitted : ∀ data ∈ x.emitted, data = x.receiver.requestData

section Invariant

variable {resource : OutboundResource}

theorem ReportOk.mono {height height' consecutive consecutive' : ℕ}
    (h : ReportOk resource height consecutive mh) (hh : height ≤ height')
    (hc : consecutive ≤ consecutive') : ReportOk resource height' consecutive' mh := by
  obtain ⟨p, hpos, hlt, hdvd, hget, hle, hle'⟩ := h
  exact ⟨p, hpos, hlt, hdvd, hget, hle.trans hh, hle'.trans (Nat.add_le_add_right hc _)⟩

theorem MessageOk.mono {height height' consecutive consecutive' reported reported' : ℕ} {m : Message}
    (h : MessageOk resource height consecutive reported m) (hh : height ≤ height')
    (hc : consecutive ≤ consecutive') (hr : reported ≤ reported') :
    MessageOk resource height' consecutive' reported' m := by
  cases m with
  | request packetHash data =>
    obtain ⟨request, hparse, hreport⟩ := h
    exact ⟨request, hparse, fun mh hmh => (hreport mh hmh).mono hh hc⟩
  | update data =>
    obtain ⟨segment, hlt, hle, hdata⟩ := h
    exact ⟨segment, hlt, hle.trans hr, hdata⟩
  | part | feedback | proof | cancel => trivial

/-- What the receiver keeps does not hurt its hash map. -/
theorem HashmapOk.keeps {t t' : InboundTransfer F} (h : HashmapOk resource t)
    (hk : InboundTransfer.Keeps t t') : HashmapOk resource t' where
  resourceHash := hk.offer.resourceHash.trans h.resourceHash
  totalParts := hk.offer.totalParts.trans h.totalParts
  mapHashes := by rw [hk.mapHashes, hk.hashmapHeight, h.mapHashes]
  height_pos := by rw [hk.hashmapHeight]; exact h.height_pos
  height_le := by rw [hk.hashmapHeight]; exact h.height_le
  aligned := by rw [hk.hashmapHeight]; exact h.aligned
  bounded := hk.bounded h.bounded

/-- The timer of the sender sends nothing but advertisements. -/
theorem ofAction_tick (t : OutboundTransfer) (packetHash : Octets 32) (now : ℕ) :
    Message.ofAction packetHash (t.tick now).2 = none := by
  unfold tick checkTimeout
  simp only
  repeat' split
  all_goals rfl

variable (hlen : resource.mapHashes.length = resource.numParts)

include hlen

variable {t : InboundTransfer F}

theorem HashmapOk.length_mapHashes (h : HashmapOk resource t) :
    t.resource.mapHashes.length = t.hashmapHeight := by
  rw [h.mapHashes, length_take, hlen, Nat.min_eq_left h.height_le]

/-- The request of a receiver is a proper message. -/
theorem HashmapOk.messageOk_requestData (h : HashmapOk resource t) (packetHash : Octets 32)
    (reported : ℕ) :
    MessageOk resource t.hashmapHeight t.resource.consecutiveCompleted reported
      (.request packetHash t.requestData) := by
  have hlength := h.length_mapHashes hlen
  refine ⟨_, h.resourceHash ▸ InboundTransfer.parseRequest_requestData h.height_pos hlength.ge, ?_⟩
  intro mh hmh
  cases hexhausted : (InboundTransfer.missing t.resource).2 with
  | false => simp [hexhausted] at hmh
  | true =>
    obtain ⟨pn, -, hend, hle⟩ := InboundTransfer.exhausted_missing hexhausted
    have hwindow := h.bounded.window
    have hmax : windowMax = 75 := rfl
    have hwe : t.resource.windowEnd ≤ resource.numParts := h.totalParts ▸ Nat.min_le_right _ _
    have hwe' : t.resource.windowEnd ≤
        t.resource.consecutiveCompleted + t.resource.window.window := Nat.min_le_left _ _
    have hget : t.resource.mapHashes[t.hashmapHeight - 1]? = some mh := by
      simpa [hexhausted] using hmh
    rw [h.mapHashes, getElem?_take_of_lt (by have := h.height_pos; omega)] at hget
    refine ⟨t.hashmapHeight, h.height_pos, by omega, ?_, hget, le_rfl, by omega⟩
    exact h.aligned.resolve_left (by omega)

variable {x : Exchange F} {packetHash : Octets 32} {result : InboundTransfer F × TransferAction}

/-- A call of the receiver that only adds to its hash map and its parts. -/
theorem Tracks.byReceiver_of_le (h : Tracks resource x) (hok : HashmapOk resource result.1)
    (hheight : x.receiver.hashmapHeight ≤ result.1.hashmapHeight)
    (hreported : result.1.hashmapHeight ≤ x.reported + 74)
    (hconsecutive : x.receiver.resource.consecutiveCompleted ≤
      result.1.resource.consecutiveCompleted)
    (hemits : InboundTransfer.Emits result) : Tracks resource (x.byReceiver packetHash result) where
  sender := h.sender
  receiver := hok
  height_le := hreported
  reported_le := h.reported_le.trans (Nat.add_le_add_right hconsecutive _)
  start_le := h.start_le
  le_start := h.le_start
  log := by
    intro m hm
    rcases mem_append.mp hm with hold | hnew
    · exact (h.log m hold).mono hheight hconsecutive le_rfl
    · have hsent : Message.ofAction packetHash result.2 = some m := by simpa using hnew
      cases haction : result.2 with
      | sendRequest data =>
        rw [haction] at hsent
        obtain rfl := Option.some.inj hsent
        rw [hemits.request data haction]
        exact hok.messageOk_requestData hlen packetHash _
      | sendHmu data => exact absurd haction (hemits.no_update data)
      | sendPart | sendProof | sendCancel =>
        rw [haction] at hsent
        obtain rfl := Option.some.inj hsent
        trivial
      | none | sendAdvertisement | complete | failed =>
        rw [haction] at hsent
        cases hsent
  emitted := by
    intro data hdata
    have hrequest : result.2.request = some data := hdata
    cases haction : result.2 <;> rw [haction] at hrequest <;> cases hrequest
    exact hemits.request data haction

theorem Tracks.byReceiver (h : Tracks resource x)
    (hkeeps : InboundTransfer.Keeps x.receiver result.1) (hemits : InboundTransfer.Emits result) :
    Tracks resource (x.byReceiver packetHash result) := by
  have hheight := hkeeps.hashmapHeight
  refine h.byReceiver_of_le hlen (h.receiver.keeps hkeeps) hheight.ge ?_ hkeeps.consecutive_le hemits
  exact hheight ▸ h.height_le

variable {senderRtt receiverRtt now : ℕ}

/-- The receiver when a transfer begins. -/
theorem start_receiver [Binary64 F] (hwf : (advertisement resource).WellFormed)
    (h : start resource senderRtt receiverRtt now = some x) :
    x.receiver.hashmapHeight = min hashmapStride resource.numParts ∧
      x.receiver.retriesLeft = maxRetries ∧ 0 < resource.numParts ∧
      ∃ flags totalSize dataSize, x.receiver.resource =
        { state := .transferring
          parts := List.replicate resource.numParts none
          totalParts := resource.numParts
          randomHash := resource.randomHash
          resourceHash := resource.resourceHash
          flags, totalSize, dataSize
          consecutiveCompleted := 0
          window := .new
          mapHashes := resource.mapHashes.take hashmapStride
          sdu := sdu
          metadata := none } := by
  obtain ⟨-, haccept, -⟩ := start_eq_some hwf h
  obtain ⟨hheight, -, hleft, hreceiver, hpos⟩ := inboundTransferFromAdvertisement_ok haccept
  have hfields : (advertisement resource).numParts = resource.numParts ∧
      (advertisement resource).resourceHash = resource.resourceHash ∧
      (advertisement resource).randomHash = resource.randomHash.1 ∧
      (advertisement resource).hashmap =
        (resource.mapHashes.take (hashmapMaxLen Wire.linkMdu)).flatMap (·.1) := by
    unfold advertisement
    split_ifs <;> exact ⟨rfl, rfl, rfl, rfl⟩
  obtain ⟨hparts, hhash, hrandom, hbytes⟩ := hfields
  have hmap : ResourceAdvertisement.getMapHashes
      { advertisement resource with metadataSize := 0 } =
        resource.mapHashes.take hashmapStride := by
    rw [ResourceAdvertisement.getMapHashes, hbytes, mapHashChunks_flatMap, hashmapMaxLen_linkMdu]
  simp only [hparts] at hpos
  refine ⟨?_, hleft, hpos, x.receiver.resource.flags, x.receiver.resource.totalSize,
    x.receiver.resource.dataSize, ?_⟩
  · rw [hheight, hmap, length_take, hlen]
  · rw [hreceiver, hmap]
    simp only [hparts, hhash, hrandom, read_self]

/-- The invariant holds when a transfer begins. -/
theorem tracks_start [Binary64 F] (hwf : (advertisement resource).WellFormed)
    (h : start resource senderRtt receiverRtt now = some x) : Tracks resource x := by
  obtain ⟨hsender, -, hlog, hemitted, hreported⟩ := start_eq_some hwf h
  obtain ⟨hheight, -, hpos, _, _, _, hreceiver⟩ := start_receiver hlen hwf h
  have hstride : hashmapStride = 74 := rfl
  have htake : resource.mapHashes.take hashmapStride =
      resource.mapHashes.take (min hashmapStride resource.numParts) := by
    rw [← hlen, ← take_eq_take_min]
  have hstart : x.sender.receiverMinConsecutiveHeight = 0 := by
    rw [hsender]
    rfl
  refine ⟨⟨_, _, by rw [hsender]; rfl⟩, ⟨?_, ?_, ?_, ?_, ?_, ?_, ?_⟩, ?_, ?_, ?_, ?_, ?_, ?_⟩
  · rw [hreceiver]
  · rw [hreceiver]
  · rw [hreceiver, hheight, ← htake]
  · rw [hheight]
    omega
  · exact hheight ▸ Nat.min_le_right _ _
  · rw [hheight]
    rcases Nat.le_total hashmapStride resource.numParts with hsmall | hlarge
    · exact .inr (by rw [Nat.min_eq_left hsmall])
    · exact .inl (Nat.min_eq_right hlarge)
  · rw [hreceiver]
    exact WindowState.bounded_new
  · rw [hheight, hreported]
    omega
  · omega
  · omega
  · omega
  · simp [hlog]
  · simp [hemitted]

omit hlen in
/-- A call of the sender that keeps its range and sends neither updates nor requests. -/
theorem Tracks.bySender (h : Tracks resource x)
    {result : OutboundTransfer × List TransferAction}
    (hkeeps : Keeps x.sender result.1)
    (hquiet : ∀ m ∈ result.2.filterMap (Message.ofAction packetHash),
      MessageOk resource x.receiver.hashmapHeight x.receiver.resource.consecutiveCompleted
        x.reported m) : Tracks resource (x.bySender packetHash result) where
  sender := by
    obtain ⟨_, _, hsame⟩ := hkeeps.resource
    obtain ⟨_, _, hsender⟩ := h.sender
    exact ⟨_, _, hsame.trans (by rw [hsender])⟩
  receiver := h.receiver
  height_le := h.height_le
  reported_le := h.reported_le
  start_le := hkeeps.height ▸ h.start_le
  le_start := hkeeps.height ▸ h.le_start
  log := fun m hm => (mem_append.mp hm).elim (h.log m) (hquiet m)
  emitted := fun _ hdata => by cases hdata

omit hlen in
/-- Parts are always proper messages. -/
theorem messageOk_sendPart {height consecutive reported : ℕ}
    {sent : List (ℕ × Bytes)} {m : Message}
    (h : m ∈ (sent.map fun part => TransferAction.sendPart part.1 part.2).filterMap
      (Message.ofAction packetHash)) : MessageOk resource height consecutive reported m := by
  obtain ⟨action, hmem, hm⟩ := mem_filterMap.mp h
  obtain ⟨part, -, rfl⟩ := mem_map.mp hmem
  obtain rfl := Option.some.inj hm
  trivial

/-- The bytes of a segment of the hash map. -/
theorem length_hashmapSegment (segment : ℕ) :
    (hashmapSegment resource segment).length =
      (min ((segment + 1) * hashmapStride) resource.numParts - segment * hashmapStride) * 4 := by
  rw [hashmapSegment, hashmapMaxLen_linkMdu, length_flatMap_val, length_drop,
    length_take, hlen, Nat.min_eq_left (Nat.min_le_right _ _)]

/-- An update that follows the known map hashes adds one segment. -/
theorem HashmapOk.insertSegment {t t₁ : InboundTransfer F} (h : HashmapOk resource t) {segment : ℕ}
    (hlt : segment * hashmapStride < resource.numParts)
    (hle : segment * hashmapStride ≤ t.hashmapHeight)
    (hshort : t.hashmapHeight < segment * hashmapStride +
      (hashmapSegment resource segment).length / 4)
    (hresource : t₁.resource = { t.resource with mapHashes :=
      (InboundTransfer.insertHashes t.resource.totalParts
        (mapHashChunks (hashmapSegment resource segment))
        (segment * hashmapStride) t.resource.mapHashes t.hashmapHeight).1 })
    (hheight : t₁.hashmapHeight = (InboundTransfer.insertHashes t.resource.totalParts
      (mapHashChunks (hashmapSegment resource segment))
      (segment * hashmapStride) t.resource.mapHashes t.hashmapHeight).2) :
    HashmapOk resource t₁ ∧ t.hashmapHeight ≤ t₁.hashmapHeight ∧
      t₁.hashmapHeight = min ((segment + 1) * hashmapStride) resource.numParts := by
  have hstride : hashmapStride = 74 := rfl
  rw [length_hashmapSegment hlen segment] at hshort
  have hsegment : t.hashmapHeight = segment * hashmapStride := by
    rcases h.aligned with hall | ⟨k, hk⟩
    · omega
    · rw [hstride] at hk hle hshort ⊢
      omega
  set last := min ((segment + 1) * hashmapStride) resource.numParts with hlast
  have hmono : t.hashmapHeight ≤ last := by
    rw [hsegment]
    exact Nat.le_min.mpr ⟨Nat.mul_le_mul_right _ (Nat.le_succ _), hlt.le⟩
  have hchunks : mapHashChunks (hashmapSegment resource segment) =
      (resource.mapHashes.take last).drop t.hashmapHeight := by
    rw [hashmapSegment, hashmapMaxLen_linkMdu, mapHashChunks_flatMap, ← hlast, hsegment]
  have hlength : t.resource.mapHashes.length = segment * hashmapStride :=
    (h.length_mapHashes hlen).trans hsegment
  have hnew : (mapHashChunks (hashmapSegment resource segment)).length =
      last - t.hashmapHeight := by
    rw [hchunks, length_drop, length_take, hlen, Nat.min_eq_left (Nat.min_le_right _ _)]
  have hinsert : InboundTransfer.insertHashes t.resource.totalParts
      (mapHashChunks (hashmapSegment resource segment)) (segment * hashmapStride)
      t.resource.mapHashes t.hashmapHeight = (resource.mapHashes.take last, last) := by
    have hfits : t.resource.mapHashes.length +
        (mapHashChunks (hashmapSegment resource segment)).length ≤ t.resource.totalParts := by
      rw [hlength, hnew, h.totalParts]
      omega
    rw [← hlength, InboundTransfer.insertHashes_eq hfits, hnew]
    refine Prod.ext ?_ (Nat.add_sub_cancel' hmono)
    rw [h.mapHashes, hchunks]
    have htake : resource.mapHashes.take t.hashmapHeight =
        (resource.mapHashes.take last).take t.hashmapHeight := by
      rw [take_take, Nat.min_eq_left hmono]
    rw [htake, take_append_drop]
  rw [hinsert] at hresource hheight
  have hle' : last ≤ resource.numParts := Nat.min_le_right _ _
  refine ⟨⟨?_, ?_, ?_, ?_, ?_, ?_, ?_⟩, hheight ▸ hmono, hheight⟩
  · rw [hresource, h.resourceHash]
  · rw [hresource, h.totalParts]
  · rw [hresource, hheight]
  · exact hheight ▸ h.height_pos.trans_le hmono
  · exact hheight ▸ hle'
  · rw [hheight, hlast]
    rcases Nat.le_total ((segment + 1) * hashmapStride) resource.numParts with hsmall | hlarge
    · exact .inr (by rw [Nat.min_eq_left hsmall]; exact Dvd.intro_left _ rfl)
    · exact .inl (Nat.min_eq_right hlarge)
  · rw [hresource]
    exact h.bounded

/-- An update of the sender is taken for what it is. -/
theorem HashmapOk.deliver_update [Sha256] [Binary64 F] (h : HashmapOk resource x.receiver)
    (hsize : resource.numParts ≤ usizeMax) {segment : ℕ}
    (hlt : segment * hashmapStride < resource.numParts) (packetHash : Octets 32) (now : ℕ) :
    x.deliver packetHash now (.update (encodeHashmapUpdate resource.resourceHash segment
        (hashmapSegment resource segment))) =
      x.byReceiver packetHash (x.receiver.hashmapUpdate segment
        (hashmapSegment resource segment) now) := by
  have hstride : hashmapStride = 74 := rfl
  have hu : usizeMax = 2 ^ 64 - 1 := rfl
  have hlength := length_hashmapSegment hlen segment
  have hparse : parseHashmapUpdate (encodeHashmapUpdate resource.resourceHash segment
      (hashmapSegment resource segment)) = .ok (resource.resourceHash, segment,
        hashmapSegment resource segment) := by
    refine parseHashmapUpdate_encodeHashmapUpdate _ ?_ ?_
    · rw [hstride] at hlt
      omega
    · rw [hlength, hstride]
      omega
  simp only [deliver, hparse, h.resourceHash, ↓reduceIte]

variable {data : Bytes} {now : ℕ}

/-- An update arrives. -/
theorem Tracks.deliver_update [Sha256] [Binary64 F] (h : Tracks resource x)
    (hsize : resource.numParts ≤ usizeMax)
    (hm : .update data ∈ x.log) : Tracks resource (x.deliver packetHash now (.update data)) := by
  obtain ⟨segment, hlt, hreported, rfl⟩ := h.log _ hm
  have hstride : hashmapStride = 74 := rfl
  rw [h.receiver.deliver_update hlen hsize hlt]
  rcases x.receiver.hashmapUpdate_eq segment (hashmapSegment resource segment) now
    with ⟨hkeeps, hemits⟩ | ⟨hle, hshort, t₁, heq, hresource, hheight⟩
  · exact h.byReceiver hlen hkeeps hemits
  · rw [hashmapMaxLen_linkMdu] at hle hshort hresource hheight
    obtain ⟨hok, hmono, hlast⟩ :=
      h.receiver.insertSegment hlen hlt hle hshort hresource hheight
    obtain ⟨hkeeps, hemits⟩ := t₁.requestNext_spec now
    rw [heq]
    refine h.byReceiver_of_le hlen (hok.keeps hkeeps) ?_ ?_ ?_ hemits
    · exact hkeeps.hashmapHeight ▸ hmono
    · rw [hkeeps.hashmapHeight, hlast, hstride]
      rw [hstride] at hreported
      omega
    · refine le_trans (le_of_eq ?_) hkeeps.consecutive_le
      rw [hresource]

variable (hnodup : resource.mapHashes.Nodup)

include hnodup

omit hlen in
/-- A report that the sender handles names its position. -/
theorem position_eq (h : Tracks resource x) {requested : List (Octets 4)} {p : ℕ}
    (hnew : packetHash ∉ x.sender.reqHashlist) (hlive : ¬ x.sender.resource.state.isTerminal)
    (hparse : parseRequest resource.resourceHash data = some ⟨some mh, requested⟩) (hpos : 0 < p)
    (hget : resource.mapHashes[p - 1]? = some mh) :
    x.position (.request packetHash data) = some p := by
  obtain ⟨_, _, hsender⟩ := h.sender
  have hhash : x.sender.resource.resourceHash = resource.resourceHash := by rw [hsender]
  have hmap : x.sender.resource.mapHashes = resource.mapHashes := by rw [hsender]
  obtain ⟨hlt, hget⟩ := getElem?_eq_some_iff.mp hget
  have hidx : resource.mapHashes.idxOf mh = p - 1 := by
    rw [← hget]
    exact hnodup.idxOf_getElem _ _
  rw [position, if_neg (by simp [hnew, hlive]), hhash, hparse, hmap]
  simp only [Option.bind_some, Option.map_some, hidx, Option.some.injEq]
  omega

section Report

variable (h : Tracks resource x) {hash : Octets 32} {data : Bytes} {requested : List (Octets 4)}
  {mh : Octets 4} {p : ℕ} (hnew : hash ∉ x.sender.reqHashlist)
  (hlive : ¬ x.sender.resource.state.isTerminal)
  (hparse : parseRequest resource.resourceHash data = some ⟨some mh, requested⟩)
  (hreport : 0 < p ∧ p < resource.numParts ∧ hashmapStride ∣ p ∧
    resource.mapHashes[p - 1]? = some mh ∧ p ≤ x.receiver.hashmapHeight ∧
    p ≤ x.receiver.resource.consecutiveCompleted + 74)
  (hfresh : x.reported ≤ p + 74)

include h hnew hlive hparse hreport hfresh

/-- A fresh report is answered with the next segment of the hash map, and moves the range to the
window behind it. -/
theorem Tracks.handleRequestPacket_report (now : ℕ) :
    ∃ t', x.sender.handleRequestPacket hash data now =
        (t', ((x.sender.requestedParts requested).map fun part => .sendPart part.1 part.2) ++
          [.sendHmu (encodeHashmapUpdate resource.resourceHash (p / hashmapStride)
            (hashmapSegment resource (p / hashmapStride)))]) ∧
      SameResource x.sender t' ∧ t'.receiverMinConsecutiveHeight = p - 76 ∧
      ¬ t'.resource.state.isTerminal := by
  obtain ⟨hpos, hlt, hdvd, hget, hheight, hcc⟩ := hreport
  obtain ⟨_, _, hsender⟩ := h.sender
  have h₁ := h.height_le
  have h₂ := h.start_le
  have h₃ := h.le_start
  set t := { x.sender with reqHashlist := hash :: x.sender.reqHashlist } with ht
  have hlocate : t.locate mh = p := by
    refine locate_eq ?_ hpos ?_ ?_ ?_ ?_ <;> simp only [ht, hsender]
    · exact hnodup
    · exact hget
    · omega
    · omega
    · exact hlt.le
  have hparse' : parseRequest t.resource.resourceHash data =
      some ⟨some mh, requested⟩ := by simpa only [ht, hsender] using hparse
  obtain ⟨t', hhandle, hsame, hstart, halive⟩ :=
    handleRequest_of_some (t := t) hlive now hparse'
  have hanswer : hashmapAnswer t.resource p = .sendHmu
      (encodeHashmapUpdate resource.resourceHash (p / hashmapStride)
        (hashmapSegment resource (p / hashmapStride))) := by
    simp only [ht, hsender]
    exact hashmapAnswer_eq hlen hdvd hlt
  rw [hlocate, hanswer] at hhandle halive
  rw [hlocate, heightBehind_eq] at hstart
  exact ⟨t', (if_neg hnew).trans hhandle, hsame, hstart, halive ⟨_, rfl⟩⟩

/-- The invariant after a fresh report. -/
theorem Tracks.deliver_report :
    Tracks resource { x.bySender packetHash (x.sender.handleRequestPacket hash data now) with
      reported := max x.reported p } := by
  obtain ⟨t', hhandle, ⟨_, _, hsame⟩, hstart, -⟩ :=
    h.handleRequestPacket_report hlen hnodup hnew hlive hparse hreport hfresh now
  obtain ⟨hpos, hlt, hdvd, hget, hheight, hcc⟩ := hreport
  obtain ⟨_, _, hsender⟩ := h.sender
  have h₁ := h.height_le
  have h₂ := h.start_le
  have h₃ := h.le_start
  have h₄ := h.reported_le
  rw [hhandle]
  refine ⟨⟨_, _, hsame.trans (by rw [hsender])⟩, h.receiver, ?_, ?_, ?_, ?_, ?_, ?_⟩
  · exact h₁.trans (Nat.add_le_add_right (Nat.le_max_left _ _) _)
  · exact max_le h₄ hcc
  · show t'.receiverMinConsecutiveHeight ≤ max x.reported p - 76
    omega
  · show max x.reported p ≤ t'.receiverMinConsecutiveHeight + 150
    omega
  · intro m hm
    have hreported : x.reported ≤ max x.reported p := Nat.le_max_left _ _
    rcases mem_append.mp hm with hold | hsent
    · exact (h.log m hold).mono le_rfl le_rfl hreported
    · rw [filterMap_append] at hsent
      rcases mem_append.mp hsent with hpart | hupdate
      · exact messageOk_sendPart hpart
      · obtain rfl : m = _ := by simpa [Message.ofAction] using hupdate
        have hp : p / hashmapStride * hashmapStride = p := Nat.div_mul_cancel hdvd
        exact ⟨_, by rwa [hp], by rw [hp]; exact Nat.le_max_right _ _, rfl⟩
  · exact fun _ hdata => by cases hdata

end Report

/-- A request arrives. -/
theorem Tracks.deliver_request [Sha256] [Binary64 F] (h : Tracks resource x)
    {packetHash hash : Octets 32} (hm : .request hash data ∈ x.log)
    (hfresh : ∀ p ∈ x.position (.request hash data), x.reported ≤ p + 74) :
    Tracks resource (x.deliver packetHash now (.request hash data)) := by
  have hquiet {t' : OutboundTransfer} {actions : List TransferAction}
      (hhandle : x.sender.handleRequestPacket hash data now = (t', actions))
      (hkeeps : Keeps x.sender t') (hposition : x.position (.request hash data) = none)
      (hactions : ∀ m ∈ actions.filterMap (Message.ofAction packetHash),
        MessageOk resource x.receiver.hashmapHeight x.receiver.resource.consecutiveCompleted
          x.reported m) :
      Tracks resource (x.deliver packetHash now (.request hash data)) := by
    have htracks : Tracks resource (x.bySender packetHash (t', actions)) :=
      h.bySender hkeeps hactions
    rw [deliver, hhandle, hposition, Option.getD_none, Nat.max_zero]
    exact htracks
  by_cases hnew : hash ∈ x.sender.reqHashlist
  · exact hquiet (if_pos hnew) (.refl _) (if_pos (.inl hnew)) (by simp)
  have hpacket : x.sender.handleRequestPacket hash data now =
      { x.sender with reqHashlist := hash :: x.sender.reqHashlist }.handleRequest data now :=
    if_neg hnew
  have hlist : Keeps x.sender
      { x.sender with reqHashlist := hash :: x.sender.reqHashlist } := ⟨⟨_, _, rfl⟩, rfl⟩
  by_cases hlive : x.sender.resource.state.isTerminal
  · refine hquiet (hpacket.trans (if_pos hlive)) hlist (if_pos (.inr hlive)) (by simp)
  obtain ⟨_, _, hsender⟩ := h.sender
  have hhash : x.sender.resource.resourceHash = resource.resourceHash := by rw [hsender]
  obtain ⟨⟨last, requested⟩, hparse, hreport⟩ := h.log _ hm
  cases last with
  | none =>
    obtain ⟨t', hhandle, hkeeps, -⟩ := handleRequest_of_none
      (t := { x.sender with reqHashlist := hash :: x.sender.reqHashlist }) hlive now
      (by rw [hhash]; exact hparse)
    refine hquiet (hpacket.trans hhandle) (hlist.trans hkeeps) ?_ fun m => messageOk_sendPart
    rw [position, if_neg (by simp [hnew, hlive]), hhash, hparse]
    rfl
  | some mh =>
    obtain ⟨p, hreport⟩ := hreport mh rfl
    have hposition := position_eq hnodup h hnew hlive hparse hreport.1 hreport.2.2.2.1
    rw [deliver, hposition]
    exact h.deliver_report hlen hnodup hnew hlive hparse hreport (hfresh p hposition)

/-- Fresh steps keep the invariant. -/
theorem Tracks.step [Sha256] [Bzip2] [Binary64 F] (hsize : resource.numParts ≤ usizeMax)
    {decryptFn : Option (Bytes → Except ResourceError Bytes)} {x' : Exchange F} {e : Event}
    (h : Tracks resource x) (hfresh : x.Fresh e) (hstep : x.step decryptFn e = some x') :
    Tracks resource x' := by
  cases e with
  | deliver index packetHash now =>
    obtain ⟨m, hget, rfl⟩ := Option.map_eq_some_iff.mp hstep
    have hm := mem_of_getElem? hget
    match m with
    | .request hash data => exact h.deliver_request hlen hnodup hm (hfresh _ hget)
    | .part data =>
      obtain ⟨hkeeps, hemits⟩ := x.receiver.receivePart_spec data now
      exact h.byReceiver hlen hkeeps hemits
    | .update data => exact h.deliver_update hlen hsize hm
    | .feedback data => exact h.bySender (x.sender.keeps_handleHmu F data now) (by simp)
    | .proof data => exact h.bySender (x.sender.keeps_handleProof data) (by simp)
    | .cancel .icl =>
      exact h.byReceiver hlen (x.receiver.keeps_withState _) (InboundTransfer.emits_of_ne (by simp))
    | .cancel .rcl => exact h.bySender ⟨⟨_, _, rfl⟩, rfl⟩ (by simp)
  | requestNext packetHash now =>
    obtain rfl := Option.some.inj hstep
    obtain ⟨hkeeps, hemits⟩ := x.receiver.requestNext_spec now
    exact h.byReceiver hlen hkeeps hemits
  | checkTimeout packetHash now =>
    obtain rfl := Option.some.inj hstep
    obtain ⟨hkeeps, hemits⟩ := x.receiver.checkTimeout_spec now
    exact h.byReceiver hlen hkeeps hemits
  | tick now =>
    have hstep' : some (x.bySender step.zeroPacket ((x.sender.tick now).1, [(x.sender.tick now).2])) =
      some x' := hstep
    obtain rfl := Option.some.inj hstep'
    exact h.bySender (x.sender.keeps_tick now) (by simp [ofAction_tick])
  | createHmu =>
    obtain rfl := Option.some.inj hstep
    refine ⟨h.sender, h.receiver, h.height_le, h.reported_le, h.start_le, h.le_start, ?_,
      fun _ hdata => by cases hdata⟩
    intro m hm
    rcases mem_append.mp hm with hold | hnew
    · exact h.log m hold
    · obtain rfl := mem_singleton.mp hnew
      trivial
  | complete =>
    obtain rfl := Option.some.inj hstep
    refine h.byReceiver hlen (keeps_completeAction x.receiver) ?_
    unfold completeAction
    split <;> exact InboundTransfer.emits_of_ne (by simp)
  | cancelOutbound =>
    obtain rfl := Option.some.inj hstep
    refine h.bySender (x.sender.keeps_withState _) fun m hm => ?_
    obtain rfl : m = .cancel .icl := by simpa [Message.ofAction] using hm
    trivial
  | cancelInbound =>
    obtain rfl := Option.some.inj hstep
    exact h.byReceiver hlen (x.receiver.keeps_withState _) (InboundTransfer.emits_of_ne (by simp))

omit hlen hnodup in
/-- The range starts behind the receiver. -/
theorem Tracks.start_le_consecutive (h : Tracks resource x) :
    x.sender.receiverMinConsecutiveHeight ≤ x.receiver.resource.consecutiveCompleted := by
  have h₁ := h.start_le
  have h₂ := h.reported_le
  omega

omit hnodup in
/-- What the receiver asks for lies in the range. -/
theorem Tracks.mem_requestedParts (h : Tracks resource x)
    (hmh : mh ∈ (InboundTransfer.missing x.receiver.resource).1) :
    ∃ i part, resource.mapHashes[i]? = some mh ∧ resource.parts[i]? = some part ∧
      (i, part) ∈ x.sender.requestedParts (InboundTransfer.missing x.receiver.resource).1 := by
  obtain ⟨i, hle, -, hget⟩ := InboundTransfer.mem_missing hmh
  obtain ⟨hlt, -⟩ := getElem?_eq_some_iff.mp hget
  rw [h.receiver.length_mapHashes hlen] at hlt
  rw [h.receiver.mapHashes, getElem?_take_of_lt hlt] at hget
  have hparts : i < resource.parts.length := hlt.trans_le h.receiver.height_le
  have hpart : resource.parts[i]? = some (resource.parts.get ⟨i, hparts⟩) :=
    getElem?_eq_getElem hparts
  refine ⟨i, _, hget, hpart, mem_filterMap.mpr ⟨i, ?_, ?_⟩⟩
  · have h₁ := h.start_le_consecutive
    have h₂ := h.height_le
    have h₃ := h.le_start
    obtain ⟨_, _, hsender⟩ := h.sender
    have hnum : x.sender.resource.numParts = resource.parts.length := by rw [hsender]; rfl
    simp only [collisionGuardSize_linkMdu, hnum, mem_range'_1]
    omega
  · obtain ⟨_, _, hsender⟩ := h.sender
    simp [hsender, hget, getPart, hpart, hmh]

omit hnodup in
/-- A request that arrives right away is answered with the parts that it asks for. -/
theorem Tracks.answered (h : Tracks resource x) (hdata : data ∈ x.emitted)
    (hnew : packetHash ∉ x.sender.reqHashlist) (hlive : ¬ x.sender.resource.state.isTerminal)
    (now : ℕ) :
    ∃ request, parseRequest resource.resourceHash data = some request ∧
      ∀ mh ∈ request.requested, ∃ i part, resource.mapHashes[i]? = some mh ∧
        resource.parts[i]? = some part ∧
        .sendPart i part ∈ (x.sender.handleRequestPacket packetHash data now).2 := by
  obtain rfl := h.emitted data hdata
  have hparse := InboundTransfer.parseRequest_requestData h.receiver.height_pos
    (h.receiver.length_mapHashes hlen).ge
  rw [h.receiver.resourceHash] at hparse
  refine ⟨_, hparse, fun mh hmh => ?_⟩
  obtain ⟨i, part, hget, hpart, hmem⟩ := h.mem_requestedParts hlen hmh
  refine ⟨i, part, hget, hpart, ?_⟩
  obtain ⟨_, _, hsender⟩ := h.sender
  have hhash : x.sender.resource.resourceHash = resource.resourceHash := by rw [hsender]
  set t := { x.sender with reqHashlist := packetHash :: x.sender.reqHashlist } with ht
  have hparse' : parseRequest t.resource.resourceHash x.receiver.requestData =
      some _ := (congrArg (parseRequest · _) hhash).trans hparse
  have hpacket : x.sender.handleRequestPacket packetHash x.receiver.requestData now =
      t.handleRequest x.receiver.requestData now := if_neg hnew
  have hsent : TransferAction.sendPart i part ∈
      (t.requestedParts (InboundTransfer.missing x.receiver.resource).1).map fun part =>
        TransferAction.sendPart part.1 part.2 := mem_map.mpr ⟨_, hmem, rfl⟩
  rw [hpacket]
  cases hlast : (if (InboundTransfer.missing x.receiver.resource).2 then
      x.receiver.resource.mapHashes[x.receiver.hashmapHeight - 1]? else none) with
  | none =>
    rw [hlast] at hparse'
    obtain ⟨t', hhandle, -⟩ := handleRequest_of_none (t := t) hlive now hparse'
    rw [hhandle]
    exact hsent
  | some mh' =>
    rw [hlast] at hparse'
    obtain ⟨t', hhandle, -⟩ := handleRequest_of_some (t := t) hlive now hparse'
    rw [hhandle]
    exact mem_append_left _ hsent

end Invariant

/-- In exchanges in which no handled report lies more than one segment of the hash map behind an
earlier one, the range of the sender starts behind the receiver, and what the receiver asks for is
sent. -/
theorem search_range_sound [Sha256] [Bzip2] [Binary64 F] {rng : ℕ → Octets 4}
    {encryptFn : Option (ℕ → Bytes → Bytes)} {data : Bytes} {autoCompress : Bool}
    {metadata : Option Bytes} {linkSdu : Option ℕ} {resource : OutboundResource}
    {label : SegmentLabel}
    (hresource : withOptions rng encryptFn data autoCompress metadata linkSdu = .ok resource)
    (hnodup : resource.mapHashes.Nodup)
    (hwf : (advertisement (resource.label label)).WellFormed)
    {senderRtt receiverRtt start : ℕ} {decryptFn : Option (Bytes → Except ResourceError Bytes)}
    {x₀ x : Exchange F} {es : List Event}
    (hstart : Exchange.start (resource.label label) senderRtt receiverRtt start = some x₀)
    (hfresh : Along (Exchange.step decryptFn) Fresh x₀ es)
    (hrun : run (Exchange.step decryptFn) x₀ es = some x) :
    x.sender.receiverMinConsecutiveHeight ≤ x.receiver.resource.consecutiveCompleted ∧
      ∀ request ∈ x.emitted, ¬ x.sender.resource.state.isTerminal →
        ∀ packetHash ∉ x.sender.reqHashlist, ∀ now,
          ∃ parsed, parseRequest resource.resourceHash request = some parsed ∧
            ∀ mh ∈ parsed.requested, ∃ i part, resource.mapHashes[i]? = some mh ∧
              resource.parts[i]? = some part ∧
              .sendPart i part ∈ (x.sender.handleRequestPacket packetHash request now).2 := by
  obtain ⟨-, k, hbuild⟩ := withOptions_ok hresource
  have hlen : (resource.label label).mapHashes.length = (resource.label label).numParts := by
    rw [hbuild]
    exact length_map _
  have hsize : (resource.label label).numParts ≤ usizeMax := by
    refine le_of_eq_of_le ?_ hwf.numParts
    unfold advertisement
    split_ifs <;> rfl
  have htracks : Tracks (resource.label label) x :=
    run_invariant_along (fun _ _ _ h hC hstep => h.step hlen hnodup hsize hC hstep)
      (tracks_start hlen hwf hstart) hfresh hrun
  exact ⟨htracks.start_le_consecutive, fun request hrequest hlive packetHash hnew now =>
    htracks.answered hlen hrequest hnew hlive now⟩

end Exchange

end Reticulum.Resource
