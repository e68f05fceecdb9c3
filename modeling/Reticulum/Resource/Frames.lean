import Reticulum.Resource.Receiver

/-!
# What the calls of a transfer leave alone

Most calls of the two sides of a transfer touch little: the sender keeps its resource up to the
state and the window, and moves its search range only for requests that report a used-up hash map;
the receiver keeps what was advertised, never forgets a part, and keeps its window bounded.
-/

namespace Reticulum.Resource

open List

/-! ### What the sender keeps -/

namespace OutboundTransfer

/-- The resource is the same up to its state and window. -/
def SameResource (t t' : OutboundTransfer) : Prop :=
  ∃ state window, t'.resource = { t.resource with state, window }

/-- The resource and the start of the search range are the same. -/
structure Keeps (t t' : OutboundTransfer) : Prop where
  resource : SameResource t t'
  height : t'.receiverMinConsecutiveHeight = t.receiverMinConsecutiveHeight

variable {t t' t'' : OutboundTransfer}

theorem SameResource.refl (t : OutboundTransfer) : SameResource t t := ⟨_, _, rfl⟩

theorem SameResource.trans (h : SameResource t t') (h' : SameResource t' t'') :
    SameResource t t'' := by
  obtain ⟨_, _, h⟩ := h
  obtain ⟨_, _, h'⟩ := h'
  exact ⟨_, _, by rw [h', h]⟩

theorem Keeps.refl (t : OutboundTransfer) : Keeps t t := ⟨.refl t, rfl⟩

theorem Keeps.trans (h : Keeps t t') (h' : Keeps t' t'') : Keeps t t'' :=
  ⟨h.resource.trans h'.resource, h'.height.trans h.height⟩

variable (t)

theorem keeps_withState (state : ResourceState) :
    Keeps t (t.withState state) := ⟨⟨_, _, rfl⟩, rfl⟩

theorem keeps_checkTimeout (now : ℕ) : Keeps t (t.checkTimeout now).1 := by
  unfold checkTimeout
  split
  · exact .refl t
  · exact .refl t
  · exact .refl t
  · split_ifs
    · exact keeps_withState t _
    · exact .refl t
  · split_ifs
    · exact keeps_withState t _
    · exact .refl t
  · split_ifs
    · exact .refl t
    · simp only
      split
      · exact ⟨⟨_, _, rfl⟩, rfl⟩
      · exact ⟨⟨_, _, rfl⟩, rfl⟩
    · exact keeps_withState t _
  all_goals exact .refl t

theorem keeps_tick (now : ℕ) : Keeps t (t.tick now).1 := by
  unfold tick
  split
  iterate 4 exact .refl t
  all_goals
    split_ifs
    · exact keeps_checkTimeout t now
    · split
      · exact keeps_withState t _
      · exact ⟨⟨_, _, rfl⟩, rfl⟩

theorem keeps_handleHmu (F : Type) [Binary64 F] (t : OutboundTransfer) (data : Bytes) (now : ℕ) :
    Keeps t (t.handleHmu F data now) := by
  unfold handleHmu
  split
  · exact .refl t
  · simp only
    split_ifs <;> first | exact .refl t | exact ⟨⟨_, _, rfl⟩, rfl⟩

theorem keeps_handleProof (data : Bytes) : Keeps t (t.handleProof data).1 := by
  unfold handleProof
  split_ifs
  · exact .refl t
  · unfold OutboundResource.validateProof
    split_ifs
    · exact .refl t
    · exact ⟨⟨_, _, rfl⟩, rfl⟩
    · exact .refl t

theorem recordSent_eq (sent : List (ℕ × Bytes)) :
    (t.recordSent sent).resource = t.resource ∧
      (t.recordSent sent).receiverMinConsecutiveHeight = t.receiverMinConsecutiveHeight ∧
      (t.recordSent sent).reqHashlist = t.reqHashlist := by
  unfold recordSent
  induction sent generalizing t with
  | nil => exact ⟨rfl, rfl, rfl⟩
  | cons part sent ih =>
    rw [foldl_cons]
    split_ifs
    · exact ih t
    · exact ih _

variable {t}

/-- A transfer that makes progress goes on. -/
theorem isTerminal_recordProgress (hlive : ¬ t.resource.state.isTerminal)
    (previouslySent sentCount now : ℕ) :
    ¬ (t.recordProgress previouslySent sentCount now).resource.state.isTerminal := by
  unfold recordProgress
  split
  · exact hlive
  · simp only
    split_ifs <;> simp [ResourceState.isTerminal]

theorem keeps_recordProgress (t : OutboundTransfer) (previouslySent sentCount now : ℕ) :
    Keeps t (t.recordProgress previouslySent sentCount now) := by
  unfold recordProgress
  split
  · exact .refl t
  · exact ⟨⟨_, _, rfl⟩, rfl⟩

/-- The search depends only on the resource and the start of the range. -/
theorem locate_congr (hresource : t'.resource = t.resource)
    (hheight : t'.receiverMinConsecutiveHeight = t.receiverMinConsecutiveHeight) (mh : Octets 4) :
    t'.locate mh = t.locate mh := by
  simp only [locate, searchRange, hresource, hheight]

/-- The sender after a request for more map hashes. -/
theorem answerExhausted_eq (t : OutboundTransfer) (mh : Octets 4) :
    (t.answerExhausted mh).2 = hashmapAnswer t.resource (t.locate mh) ∧
      (t.answerExhausted mh).1.receiverMinConsecutiveHeight = heightBehind (t.locate mh) ∧
      SameResource t (t.answerExhausted mh).1 ∧
      ((∃ data, (t.answerExhausted mh).2 = .sendHmu data) →
        (t.answerExhausted mh).1.resource = t.resource) := by
  unfold answerExhausted
  simp only
  split
  · exact ⟨rfl, rfl, .refl t, fun _ => rfl⟩
  · rename_i hne
    exact ⟨rfl, rfl, ⟨_, _, rfl⟩, fun ⟨data, hdata⟩ => absurd hdata (hne data)⟩

section Request

variable {requestData : Bytes} {requested : List (Octets 4)}

/-- A request for parts only is answered with the parts in the search range. -/
theorem handleRequest_of_none (hlive : ¬ t.resource.state.isTerminal) (now : ℕ)
    (h : parseRequest t.resource.resourceHash requestData = some ⟨none, requested⟩) :
    ∃ t', t.handleRequest requestData now =
        (t', (t.requestedParts requested).map fun part => .sendPart part.1 part.2) ∧
      Keeps t t' ∧ ¬ t'.resource.state.isTerminal := by
  obtain ⟨hresource, hheight, -⟩ := t.recordSent_eq (t.requestedParts requested)
  refine ⟨_, by simp only [handleRequest, hlive, h]; rfl, ?_, ?_⟩
  · refine .trans ⟨⟨t.resource.state, t.resource.window, hresource⟩, hheight⟩ ?_
    exact keeps_recordProgress _ _ _ _
  · exact isTerminal_recordProgress (by rwa [hresource]) _ _ _

/-- A request for more map hashes is answered with parts and an update or a cancellation. -/
theorem handleRequest_of_some (hlive : ¬ t.resource.state.isTerminal) (now : ℕ) {mh : Octets 4}
    (h : parseRequest t.resource.resourceHash requestData = some ⟨some mh, requested⟩) :
    ∃ t', t.handleRequest requestData now =
        (t', ((t.requestedParts requested).map fun part => .sendPart part.1 part.2) ++
          [hashmapAnswer t.resource (t.locate mh)]) ∧
      SameResource t t' ∧ t'.receiverMinConsecutiveHeight = heightBehind (t.locate mh) ∧
      ((∃ data, hashmapAnswer t.resource (t.locate mh) = .sendHmu data) →
        ¬ t'.resource.state.isTerminal) := by
  obtain ⟨hresource, hheight, -⟩ := t.recordSent_eq (t.requestedParts requested)
  set t₁ := t.recordSent (t.requestedParts requested) with ht₁
  have hlocate := locate_congr hresource hheight mh
  obtain ⟨haction, hbehind, hsame, hupdate⟩ := t₁.answerExhausted_eq mh
  rw [hlocate] at hbehind
  rw [hlocate, hresource] at haction
  have hsame' : SameResource t (t₁.answerExhausted mh).1 :=
    SameResource.trans ⟨t.resource.state, t.resource.window, hresource⟩ hsame
  rw [handleRequest, if_neg hlive, h]
  rw [haction, hresource] at hupdate
  simp only [← ht₁, haction]
  split_ifs with hfailed
  · refine ⟨_, rfl, hsame', hbehind, fun hdata => ?_⟩
    rw [hupdate hdata] at hfailed ⊢
    exact hlive
  · have hkeeps := keeps_recordProgress (t₁.answerExhausted mh).1 t.sentParts
      (t.requestedParts requested).length now
    refine ⟨_, rfl, hsame'.trans hkeeps.resource, hkeeps.height.trans hbehind, fun hdata => ?_⟩
    exact isTerminal_recordProgress (by rwa [hupdate hdata]) _ _ _

end Request

variable (t)

theorem sameResource_handleRequest (requestData : Bytes) (now : ℕ) :
    SameResource t (t.handleRequest requestData now).1 := by
  by_cases hlive : t.resource.state.isTerminal
  · rw [handleRequest, if_pos hlive]
    exact .refl t
  · rcases h : parseRequest t.resource.resourceHash requestData with _ | ⟨_ | mh, requested⟩
    · rw [handleRequest, if_neg hlive, h]
      exact .refl t
    · obtain ⟨t', heq, hkeeps, -⟩ := handleRequest_of_none hlive now h
      rw [heq]
      exact hkeeps.resource
    · obtain ⟨t', heq, hsame, -⟩ := handleRequest_of_some hlive now h
      rw [heq]
      exact hsame

/-- Only the parts in the search range are sent. -/
theorem height_le_of_sendPart {t : OutboundTransfer} {packetHash : Octets 32} {requestData : Bytes}
    {now i : ℕ} {part : Bytes}
    (h : .sendPart i part ∈ (t.handleRequestPacket packetHash requestData now).2) :
    t.receiverMinConsecutiveHeight ≤ i := by
  have hparts (t : OutboundTransfer) (requested : List (Octets 4))
      (h : .sendPart i part ∈ (t.requestedParts requested).map fun part =>
        TransferAction.sendPart part.1 part.2) : t.receiverMinConsecutiveHeight ≤ i := by
    obtain ⟨⟨j, _⟩, hmem, heq⟩ := mem_map.mp h
    obtain ⟨rfl, rfl⟩ := TransferAction.sendPart.inj heq
    obtain ⟨j', hj', heq⟩ := mem_filterMap.mp hmem
    simp only [Option.bind_eq_bind, Option.bind_eq_some_iff, Option.ite_none_right_eq_some] at heq
    obtain ⟨_, -, _, -, -, heq⟩ := heq
    obtain ⟨rfl, -⟩ := Prod.mk.inj (Option.some.inj heq)
    exact (mem_range'_1.mp hj').1
  unfold handleRequestPacket at h
  split_ifs at h
  · cases h
  · set t' := { t with reqHashlist := packetHash :: t.reqHashlist } with ht'
    by_cases hlive : t'.resource.state.isTerminal
    · rw [handleRequest, if_pos hlive] at h
      cases h
    · rcases hparse : parseRequest t'.resource.resourceHash requestData with _ | ⟨_ | mh, requested⟩
      · rw [handleRequest, if_neg hlive, hparse] at h
        cases h
      · obtain ⟨_, heq, -⟩ := handleRequest_of_none hlive now hparse
        rw [heq] at h
        exact hparts t' requested h
      · obtain ⟨_, heq, -⟩ := handleRequest_of_some hlive now hparse
        rw [heq] at h
        rcases mem_append.mp h with h | h
        · exact hparts t' requested h
        · rw [mem_singleton, hashmapAnswer] at h
          split_ifs at h

theorem sameResource_handleRequestPacket (packetHash : Octets 32) (requestData : Bytes) (now : ℕ) :
    SameResource t (t.handleRequestPacket packetHash requestData now).1 := by
  unfold handleRequestPacket
  split_ifs
  · exact .refl t
  · exact .trans ⟨t.resource.state, t.resource.window, rfl⟩
      (sameResource_handleRequest _ requestData now)

end OutboundTransfer

/-! ### What the receiver keeps -/

namespace InboundTransfer

variable {F : Type} {t t' t'' : InboundTransfer F}

/-- What the advertisement has fixed is the same. -/
structure SameOffer (t t' : InboundTransfer F) : Prop where
  resourceHash : t'.resource.resourceHash = t.resource.resourceHash
  randomHash : t'.resource.randomHash = t.resource.randomHash
  flags : t'.resource.flags = t.resource.flags
  totalParts : t'.resource.totalParts = t.resource.totalParts
  metadata : t.resource.flags.hasMetadata = false → t'.resource.metadata = t.resource.metadata

/-- The hash map is the same too, no part is forgotten, and the window stays bounded. -/
structure Keeps (t t' : InboundTransfer F) : Prop where
  offer : SameOffer t t'
  mapHashes : t'.resource.mapHashes = t.resource.mapHashes
  hashmapHeight : t'.hashmapHeight = t.hashmapHeight
  consecutive_le : t.resource.consecutiveCompleted ≤ t'.resource.consecutiveCompleted
  bounded : t.resource.window.Bounded → t'.resource.window.Bounded

theorem SameOffer.refl (t : InboundTransfer F) : SameOffer t t :=
  ⟨rfl, rfl, rfl, rfl, fun _ => rfl⟩

theorem SameOffer.trans (h : SameOffer t t') (h' : SameOffer t' t'') : SameOffer t t'' :=
  ⟨h'.1.trans h.1, h'.2.trans h.2, h'.3.trans h.3, h'.4.trans h.4,
    fun hm => (h'.metadata (h.flags ▸ hm)).trans (h.metadata hm)⟩

theorem Keeps.trans (h : Keeps t t') (h' : Keeps t' t'') : Keeps t t'' :=
  ⟨h.offer.trans h'.offer, h'.mapHashes.trans h.mapHashes, h'.hashmapHeight.trans h.hashmapHeight,
    h.consecutive_le.trans h'.consecutive_le, h'.bounded ∘ h.bounded⟩

variable {state : ResourceState}

/-- A change of the state and, for resources with metadata, of the metadata. -/
theorem Keeps.of_metadata {metadata : Option Bytes}
    (h : t'.resource = { t.resource with state, metadata })
    (hmetadata : t.resource.flags.hasMetadata = false → metadata = t.resource.metadata)
    (hheight : t'.hashmapHeight = t.hashmapHeight) : Keeps t t' :=
  ⟨⟨by rw [h], by rw [h], by rw [h], by rw [h], by rwa [h]⟩, by rw [h], hheight, by rw [h],
    fun hb => by rwa [h]⟩

/-- A change of the state and of bookkeeping outside the resource. -/
theorem Keeps.of_eq (h : t'.resource = { t.resource with state })
    (hheight : t'.hashmapHeight = t.hashmapHeight) : Keeps t t' :=
  .of_metadata h (fun _ => rfl) hheight

variable (t)

theorem Keeps.refl : Keeps t t := .of_eq rfl rfl

theorem keeps_withState (state : ResourceState) :
    Keeps t (t.withState state) := .of_eq rfl rfl

/-- A request leaves the resource alone and contains what is missing in it. -/
theorem requestNext_eq (now : ℕ) :
    t.requestNext now = (t, .none) ∨
      (t.requestNext now).1.resource = t.resource ∧
        (t.requestNext now).1.hashmapHeight = t.hashmapHeight ∧
        (t.requestNext now).2 = .sendRequest t.requestData := by
  unfold requestNext
  split
  · exact .inl rfl
  · exact .inr ⟨rfl, rfl, rfl⟩

/-- The request of a call describes the receiver after it, and a receiver sends no update. -/
structure Emits (result : InboundTransfer F × TransferAction) : Prop where
  request : ∀ data, result.2 = .sendRequest data → data = result.1.requestData
  no_update : ∀ data, result.2 ≠ .sendHmu data

/-- A call that sends no request. -/
theorem emits_of_ne {t : InboundTransfer F} {action : TransferAction}
    (h : ∀ data, action ≠ .sendRequest data ∧ action ≠ .sendHmu data) : Emits (t, action) :=
  ⟨fun data hdata => absurd hdata (h data).1, fun data => (h data).2⟩

variable {t}

theorem requestData_congr (hresource : t'.resource = t.resource)
    (hheight : t'.hashmapHeight = t.hashmapHeight) : t'.requestData = t.requestData := by
  simp only [requestData, hresource, hheight]

theorem requestNext_spec (t : InboundTransfer F) (now : ℕ) :
    Keeps t (t.requestNext now).1 ∧ Emits (t.requestNext now) := by
  rcases t.requestNext_eq now with h | ⟨hresource, hheight, haction⟩
  · rw [h]
    exact ⟨.refl t, emits_of_ne (by simp)⟩
  · refine ⟨.of_eq hresource hheight, fun data hdata => ?_, by simp [haction]⟩
    rw [haction] at hdata
    rw [requestData_congr hresource hheight]
    exact (TransferAction.sendRequest.inj hdata).symm

/-- Map hashes behind the known ones are appended. -/
theorem insertHashes_eq {totalParts height : ℕ} {hashes mapHashes : List (Octets 4)}
    (h : mapHashes.length + hashes.length ≤ totalParts) :
    insertHashes totalParts hashes mapHashes.length mapHashes height =
      (mapHashes ++ hashes, height + hashes.length) := by
  induction hashes generalizing mapHashes height with
  | nil => simp [insertHashes]
  | cons mh rest ih =>
    rw [length_cons] at h
    have hpad : mapHashes ++ List.replicate (mapHashes.length + 1 - mapHashes.length) zeroHash =
        mapHashes ++ [zeroHash] := by
      rw [Nat.add_sub_cancel_left]
      rfl
    have hlen : (mapHashes ++ [mh]).length = mapHashes.length + 1 := by simp
    have hih := @ih (height + 1) (mapHashes ++ [mh]) (by rw [hlen]; omega)
    rw [insertHashes, if_neg (by omega)]
    simp only [hpad, getElem?_concat_length, ↓reduceIte, set_append_right _ _ le_rfl,
      Nat.sub_self, set_cons_zero]
    rw [hlen] at hih
    rw [hih, append_assoc, length_cons]
    exact Prod.ext rfl (by omega)

/-- A hash map update changes nothing but the state, or it follows the known map hashes and
triggers a request. -/
theorem hashmapUpdate_eq (t : InboundTransfer F) (segment : ℕ) (hashmapData : Bytes) (now : ℕ) :
    (Keeps t (t.hashmapUpdate segment hashmapData now).1 ∧
      Emits (t.hashmapUpdate segment hashmapData now)) ∨
    (segment * hashmapMaxLen Wire.linkMdu ≤ t.hashmapHeight ∧
      t.hashmapHeight < segment * hashmapMaxLen Wire.linkMdu + hashmapData.length / 4 ∧
      ∃ t₁ : InboundTransfer F, t.hashmapUpdate segment hashmapData now = t₁.requestNext now ∧
        t₁.resource = { t.resource with mapHashes := (insertHashes t.resource.totalParts
          (mapHashChunks hashmapData) (segment * hashmapMaxLen Wire.linkMdu) t.resource.mapHashes
          t.hashmapHeight).1 } ∧
        t₁.hashmapHeight = (insertHashes t.resource.totalParts (mapHashChunks hashmapData)
          (segment * hashmapMaxLen Wire.linkMdu) t.resource.mapHashes t.hashmapHeight).2) := by
  have hcancel : Keeps t t.cancel.1 ∧ Emits t.cancel :=
    ⟨.of_eq rfl rfl, emits_of_ne (by simp)⟩
  unfold hashmapUpdate
  simp only
  split_ifs with hstate hlen hrange hgap hold
  · exact .inl ⟨.refl t, emits_of_ne (by simp)⟩
  · exact .inl hcancel
  · exact .inl hcancel
  · exact .inl hcancel
  · exact .inl ⟨.refl t, emits_of_ne (by simp)⟩
  · exact .inr ⟨Nat.le_of_not_lt hgap, Nat.lt_of_not_le hold, _, rfl, rfl, rfl⟩

theorem sameOffer_hashmapUpdate (t : InboundTransfer F) (segment : ℕ) (hashmapData : Bytes)
    (now : ℕ) : SameOffer t (t.hashmapUpdate segment hashmapData now).1 := by
  rcases t.hashmapUpdate_eq segment hashmapData now with ⟨h, -⟩ | ⟨-, -, t₁, heq, hresource, -⟩
  · exact h.offer
  · rw [heq]
    refine .trans ?_ (t₁.requestNext_spec now).1.offer
    exact ⟨by rw [hresource], by rw [hresource], by rw [hresource], by rw [hresource],
      fun _ => by rw [hresource]⟩

section

variable [Binary64 F] (t)

theorem keeps_updateEifr : Keeps t t.updateEifr := .of_eq rfl rfl

theorem keeps_measureWindow : Keeps t t.measureWindow := by
  unfold measureWindow
  split
  · exact .refl t
  · simp only
    split
    · exact .of_eq rfl rfl
    · exact .refl t

theorem keeps_growWindow (now : ℕ) : Keeps t (t.growWindow now) :=
  ⟨⟨rfl, rfl, rfl, rfl, fun _ => rfl⟩, rfl, rfl, le_rfl, fun h => h.grow _⟩

theorem recordPart_eq (payloadLen now : ℕ) :
    (t.recordPart payloadLen now).resource = t.resource ∧
      (t.recordPart payloadLen now).hashmapHeight = t.hashmapHeight := by
  unfold recordPart
  simp only
  split <;> exact ⟨rfl, rfl⟩

theorem checkTimeout_spec (now : ℕ) :
    Keeps t (t.checkTimeout now).1 ∧ Emits (t.checkTimeout now) := by
  unfold checkTimeout
  split
  · exact ⟨.refl t, emits_of_ne (by simp)⟩
  · simp only
    split_ifs
    · refine ⟨Keeps.trans ?_ (requestNext_spec _ now).1, (requestNext_spec _ now).2⟩
      exact ⟨⟨rfl, rfl, rfl, rfl, fun _ => rfl⟩, rfl, rfl, le_rfl, fun h => h.shrink⟩
    · exact ⟨.of_eq rfl rfl, emits_of_ne (by simp)⟩
    · exact ⟨keeps_updateEifr t, emits_of_ne (by simp)⟩

variable [Sha256]

/-- The receiver with a part in one of its slots. -/
def place (t : InboundTransfer F) (i : ℕ) (data : Bytes) (now : ℕ) : InboundTransfer F :=
  { t with resource :=
    { t.resource with parts := t.resource.parts.set i (some data) }.updateConsecutive }.recordPart
      data.length now

variable {t}

/-- A part that has a slot is recorded. -/
theorem receivePart_of_slot {data : Bytes} {i : ℕ} (hstate : t.resource.state = .transferring)
    (hslot : t.resource.slot (getMapHash data t.resource.randomHash.1) = some i) (now : ℕ) :
    t.receivePart data now =
      if (t.place i data now).resource.isComplete then
        ({ t.place i data now with partsSinceHmu := 0 }, .complete)
      else if (t.place i data now).outstandingParts = 0 then
        ((t.place i data now).measureWindow.growWindow now).requestNext now
      else (t.place i data now, .none) := by
  unfold receivePart InboundResource.receivePart
  rw [if_neg (not_not.mpr hstate), hslot]
  exact if_neg (by simp)

variable (t)

/-- A part that has no slot changes nothing. -/
theorem receivePart_eq (data : Bytes) (now : ℕ) :
    t.receivePart data now = (t, .none) ∨
      t.resource.state = .transferring ∧
        ∃ i, t.resource.slot (getMapHash data t.resource.randomHash.1) = some i := by
  unfold receivePart InboundResource.receivePart
  by_cases hstate : t.resource.state = .transferring
  · rw [if_neg (not_not.mpr hstate)]
    cases hslot : t.resource.slot (getMapHash data t.resource.randomHash.1) with
    | none => exact .inl (by simp)
    | some i => exact .inr ⟨hstate, i, rfl⟩
  · exact .inl (if_pos hstate)

omit [Sha256] in
theorem keeps_place (i : ℕ) (data : Bytes) (now : ℕ) : Keeps t (t.place i data now) := by
  obtain ⟨hresource, hheight⟩ := { t with resource :=
    { t.resource with parts := t.resource.parts.set i (some data) }.updateConsecutive }.recordPart_eq
      data.length now
  refine ⟨⟨?_, ?_, ?_, ?_, ?_⟩, ?_, hheight, ?_, ?_⟩ <;> rw [place, hresource]
  all_goals first | rfl | exact fun _ => rfl | exact Nat.le_add_right _ _ | exact id

theorem receivePart_spec (data : Bytes) (now : ℕ) :
    Keeps t (t.receivePart data now).1 ∧ Emits (t.receivePart data now) := by
  rcases t.receivePart_eq data now with h | ⟨hstate, i, hslot⟩
  · rw [h]
    exact ⟨.refl t, emits_of_ne (by simp)⟩
  · have hkeeps := t.keeps_place i data now
    rw [receivePart_of_slot hstate hslot]
    split_ifs
    · exact ⟨hkeeps.trans (.of_eq rfl rfl), emits_of_ne (by simp)⟩
    · exact ⟨hkeeps.trans (((keeps_measureWindow _).trans (keeps_growWindow _ now)).trans
        (requestNext_spec _ now).1), (requestNext_spec _ now).2⟩
    · exact ⟨hkeeps, emits_of_ne (by simp)⟩

end

section

variable [Sha256] [Bzip2]

/-- Assembling changes the state and, for resources with metadata, the metadata. -/
theorem assemble_fst (r : InboundResource)
    (decryptFn : Option (Bytes → Except ResourceError Bytes)) :
    ∃ state metadata, (r.assemble decryptFn).1 = { r with state, metadata } ∧
      (r.flags.hasMetadata = false → metadata = r.metadata) := by
  unfold InboundResource.assemble InboundResource.splitMetadata
  simp only
  repeat' split
  all_goals first
    | exact ⟨_, _, rfl, fun _ => rfl⟩
    | exact ⟨_, _, rfl, fun hm => absurd hm (by simp_all)⟩

theorem keeps_complete (t : InboundTransfer F)
    (decryptFn : Option (Bytes → Except ResourceError Bytes)) :
    Keeps t (t.complete decryptFn).1 := by
  obtain ⟨state, metadata, h, hmetadata⟩ := assemble_fst t.resource decryptFn
  unfold complete
  simp only
  split <;> exact .of_metadata h hmetadata rfl

end

end InboundTransfer

end Reticulum.Resource
