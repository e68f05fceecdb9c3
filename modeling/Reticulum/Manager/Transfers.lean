import Reticulum.Manager.Accounts

/-!
# What the handlers of a link do to its accounts

Packets of the peer may repeat hashes, come in any order, and be of any content; calls of the
application and watchdogs may come at any time. Each handler is work on its link: it keeps the tables
together and the accounting stream in order.
-/

namespace Reticulum.Manager

open Wire Resource Table OutboundTransfer AccountingEvent Option Function

variable {F : Type} {linkId : Octets 16} {w w' w'' : LinkWork F} {h : Octets 32} {s : Shared}
  {t : OutboundTransfer}

/-! ### What the parts of the handlers do -/

/-- What the beginning of a lifecycle does: nothing if it is open, and else it opens it. -/
theorem beginLifecycle_cases (linkId : Octets 16) (adv : ResourceAdvertisement) (s : Shared) :
    (∃ l, s.activeInboundLifecycles.get (linkId, advertisedResource adv) = some l ∧
        beginLifecycle linkId adv s = s) ∨
      s.activeInboundLifecycles.get (linkId, advertisedResource adv) = none ∧
        ∃ l, (beginLifecycle linkId adv s).activeInboundLifecycles =
            s.activeInboundLifecycles.insert (linkId, advertisedResource adv) l ∧
          (beginLifecycle linkId adv s).accounting = s.accounting ++
            [.started linkId (advertisedResource adv) .inbound adv.dataSize adv.totalSegments] := by
  unfold beginLifecycle
  dsimp only
  cases hl : s.activeInboundLifecycles.get (linkId, advertisedResource adv) with
  | some l => exact .inl ⟨l, rfl, rfl⟩
  | none => exact .inr ⟨rfl, _, rfl, rfl⟩

theorem contains_offerPart [Sha256] [Binary64Bits F] (data : Bytes) (now : ℕ)
    (l : List (Octets 32 × InboundTransfer F)) (transfers : Table (Octets 32) (InboundTransfer F))
    (h : Octets 32) : (offerPart data now l transfers).1.contains h = transfers.contains h := by
  induction l generalizing transfers with
  | nil => rfl
  | cons entry rest ih =>
    unfold offerPart
    dsimp only
    split_ifs <;> first | exact contains_modify | exact (ih _).trans contains_modify

/-- Another transfer of a resource under a hash, or none, is nothing to the other resources. -/
theorem sends_update {sending : Octets 32 → Option OutboundTransfer} {i id : Octets 32}
    {new : Option OutboundTransfer} (hold : ∀ t, sending h = some t → resourceSent t = id)
    (hnew : ∀ t, new = some t → resourceSent t = id) (hi : i ≠ id) :
    (∃ h' t, Function.update sending h new h' = some t ∧ resourceSent t = i) ↔
      ∃ h' t, sending h' = some t ∧ resourceSent t = i := by
  constructor
  · rintro ⟨h', t, ht, hid⟩
    rw [update_apply] at ht
    split_ifs at ht
    · exact absurd (hid.symm.trans (hnew t ht)) hi
    · exact ⟨h', t, ht, hid⟩
  · rintro ⟨h', t, ht, hid⟩
    refine ⟨h', t, ?_, hid⟩
    rw [update_of_ne, ht]
    rintro rfl
    exact hi (hid.symm.trans (hold t ht))

/-- What a queue yields: nothing, and then it is removed, or its first segment. -/
theorem popSegment_cases (key : Octets 32) (a : ActiveLink F) :
    (∃ queues, popSegment key a = ({ a with outboundSplitQueues := queues }, none) ∧
        queues.get = Function.update a.outboundSplitQueues.get key none) ∨
      ∃ next rest queues, a.outboundSplitQueues.get key = some (next :: rest) ∧
        popSegment key a = ({ a with outboundSplitQueues := queues }, some next) ∧
        queues.get = Function.update a.outboundSplitQueues.get key
          (if rest = [] then none else some rest) := by
  unfold popSegment
  cases hqueue : a.outboundSplitQueues.get key with
  | none => exact .inl ⟨_, rfl, (update_eq_self_iff.mpr hqueue.symm).symm⟩
  | some queue =>
    cases queue with
    | nil => exact .inl ⟨_, rfl, get_erase_eq_update⟩
    | cons next rest =>
      refine .inr ⟨next, rest, _, rfl, rfl, ?_⟩
      by_cases hrest : rest = []
      · simp only [List.tail_cons, hrest, if_true]
        exact get_erase_eq_update
      · simp only [List.tail_cons, hrest, if_false]
        funext key'
        rw [get_modify, update_apply]
        split_ifs with heq
        · rw [heq, hqueue, map_some]
        · rfl

section

variable [Sha256] [Bzip2] {r : OutboundResource} {random : Randomness}

theorem originalHash_of_nextSegment {l l' : LazyMultiSegmentOutbound}
    (hr : l.nextSegment random = (l', .ok (some r))) :
    l'.originalHash = l.originalHash ∧ r.originalHash = some l.originalHash := by
  unfold LazyMultiSegmentOutbound.nextSegment at hr
  by_cases hend : l.totalSegments < l.nextSegmentIndex
  · simp [hend] at hr
  · rw [if_neg hend] at hr
    split at hr
    · cases hr
    · obtain ⟨rfl, hsegment⟩ := Prod.mk.inj hr
      obtain rfl := some.inj (Except.ok.inj hsegment)
      exact ⟨rfl, rfl⟩

variable {rs : List OutboundResource}

/-- The segments of a plan are of one resource. -/
theorem originalHash_of_take {n : ℕ} {l : LazyMultiSegmentOutbound}
    (hrs : l.take random n = .ok rs) : ∀ r ∈ rs, r.originalHash = some l.originalHash := by
  induction n generalizing l rs with
  | zero =>
    obtain rfl := Except.ok.inj hrs
    simp
  | succ n ih =>
    unfold LazyMultiSegmentOutbound.take at hrs
    split at hrs
    · cases hrs
    · obtain rfl := Except.ok.inj hrs
      simp
    · rename_i l' r hr
      obtain ⟨rest, hrest, heq⟩ := bind_eq_ok.mp hrs
      obtain rfl := pure_eq_ok.mp heq
      obtain ⟨hl, horiginal⟩ := originalHash_of_nextSegment hr
      exact List.forall_mem_cons.mpr ⟨horiginal, hl ▸ ih hrest⟩

variable [AesCbc] [Hmac]

/-- A resource of several segments is named by the hash of the original. -/
theorem originalHash_of_preparedSegments {request : ResourceTransferStart} {link : LinkSession F}
    (hrs : preparedSegments request link = some (r :: rs)) (hsplit : rs ≠ []) :
    ∀ r' ∈ r :: rs, r'.originalHash = some (r.originalHash.getD r.resourceHash) := by
  unfold preparedSegments at hrs
  split_ifs at hrs
  obtain ⟨keys, -, hrs⟩ := bind_eq_some_iff.mp hrs
  obtain ⟨-, -, hrs⟩ := bind_eq_some_iff.mp hrs
  rw [toOption_eq_some] at hrs
  unfold prepareSegments at hrs
  dsimp only at hrs
  split_ifs at hrs
  · obtain ⟨resource, -, heq⟩ := bind_eq_ok.mp hrs
    obtain ⟨rfl, rfl⟩ := List.cons.inj (pure_eq_ok.mp heq)
    exact absurd rfl hsplit
  · obtain ⟨resource, hresource, heq⟩ := bind_eq_ok.mp hrs
    obtain ⟨l, -, hl⟩ := bind_eq_ok.mp hresource
    obtain ⟨segments, htake, hl⟩ := bind_eq_ok.mp hl
    obtain rfl := pure_eq_ok.mp hl
    obtain rfl : segments = r :: rs := pure_eq_ok.mp heq
    have horiginal := originalHash_of_take htake
    intro r' hr'
    rw [horiginal r' hr', horiginal r (List.mem_cons_self ..), getD_some]

end

section

variable [AesCbc] [Hmac]

theorem outboundResources_emitFrame (m : Moment) (linkId : Octets 16) (w : LinkWork F)
    (context : PacketContext) (payload : Bytes) (encrypted : Bool) (packetType : PacketType) :
    (emitFrame m linkId w context payload encrypted packetType).1.active.outboundResources =
      w.active.outboundResources := by
  unfold emitFrame
  split
  · rfl
  · split
    · rfl
    · dsimp only
      split_ifs <;> rfl

/-- What the start of a transfer does: nothing that is accounted for, or the transfer is sent. -/
theorem startOutboundTransfer_cases (m : Moment) (linkId : Octets 16) (t : OutboundTransfer)
    (w : LinkWork F) :
    (startOutboundTransfer m linkId t w).2 = none ∧
        Quiet w (startOutboundTransfer m linkId t w).1 ∧
        (startOutboundTransfer m linkId t w).1.active.outboundResources =
          w.active.outboundResources ∨
      ∃ w' t', (startOutboundTransfer m linkId t w).2 = some t.resource.resourceHash ∧
        Quiet w w' ∧ w'.active.outboundResources = w.active.outboundResources ∧
        outboundName t' = outboundName t ∧
        (startOutboundTransfer m linkId t w).1 = { w' with active := { w'.active with
          outboundResources := w'.active.outboundResources.insert t.resource.resourceHash t' } } := by
  have hkeeps := SameResource.name (keeps_tick t m.now).resource
  unfold startOutboundTransfer
  split
  · rename_i t' adv heq
    rw [heq] at hkeeps
    have hemit := Quiet.emitFrame m linkId w .resourceAdv adv true .data
    have htransfers := outboundResources_emitFrame m linkId w .resourceAdv adv true .data
    split
    · rename_i w' hsent
      rw [hsent] at hemit htransfers
      exact .inl ⟨rfl, hemit, htransfers⟩
    · rename_i w' hsent
      rw [hsent] at hemit htransfers
      have hhash : t'.resource.resourceHash = t.resource.resourceHash := (Prod.mk.inj hkeeps).1
      exact .inr ⟨w', t', by rw [hhash], hemit, htransfers, hkeeps, by rw [hhash]⟩
  · exact .inl ⟨rfl, .refl w, rfl⟩

theorem startNext_cases (m : Moment) (linkId : Octets 16) (key : Octets 32) (next : OutboundTransfer)
    (w : LinkWork F) :
    (∃ w' conclusion, Quiet w w' ∧ w'.active.outboundResources = w.active.outboundResources ∧
        startNext m linkId key next w =
          { active := { w'.active with
              outboundSplitQueues := w'.active.outboundSplitQueues.erase key }
            shared := w'.shared.emit (.concluded linkId key .outbound conclusion) }) ∨
      ∃ w' t', Quiet w w' ∧ w'.active.outboundResources = w.active.outboundResources ∧
        outboundName t' = outboundName next ∧
        startNext m linkId key next w = { w' with active := { w'.active with
          outboundResources := w'.active.outboundResources.insert next.resource.resourceHash
            t' } } := by
  have hcases := startOutboundTransfer_cases m linkId next w
  unfold startNext
  generalize startOutboundTransfer m linkId next w = started at hcases ⊢
  obtain ⟨w₁, started⟩ := started
  rcases hcases with ⟨hnone, hquiet, htransfers⟩ | ⟨w', t', hsome, hquiet, htransfers, hname, hstart⟩
  · obtain rfl : started = none := hnone
    exact .inl ⟨w₁, _, hquiet, htransfers, rfl⟩
  · obtain rfl : started = some _ := hsome
    exact .inr ⟨w', t', hquiet, htransfers, hname, hstart⟩

end

/-- The segments of a new resource have hashes that are not in use on the link, and so has the
resource. -/
def DistinctSegments (a : ActiveLink F) (rs : List OutboundResource) : Prop :=
  (rs.map OutboundResource.resourceHash).Nodup ∧
    (∀ r ∈ rs, a.outboundResources.contains r.resourceHash = false) ∧
    (∀ q ∈ a.outboundSplitQueues.values, ∀ t ∈ q, ∀ r ∈ rs,
      t.resource.resourceHash ≠ r.resourceHash) ∧
    ∀ t ∈ a.outboundResources.values, ∀ r ∈ rs,
      resourceSent t ≠ r.originalHash.getD r.resourceHash

instance (a : ActiveLink F) (rs : List OutboundResource) : Decidable (DistinctSegments a rs) := by
  unfold DistinctSegments
  infer_instance

theorem Work.quiet (hwork : Work linkId w w') (hquiet : Quiet w' w'') : Work linkId w w'' :=
  hwork.trans (hquiet.work hwork.ok)

theorem Work.failure (hwork : Work linkId w w') (id : Octets 32)
    (conclusion : LinkResourceConclusion) :
    Work linkId w (concludeInboundFailure linkId id conclusion w') :=
  hwork.trans (work_concludeInboundFailure hwork.ok id conclusion)

variable (hw : LinkOk linkId w) (m : Moment)

include hw

/-! ### Advertisements -/

section Advertisements

/-- A resource that was just opened fails at once. -/
theorem work_begin_failure (adv : ResourceAdvertisement)
    (conclusion : LinkResourceConclusion)
    (hls : s.activeInboundLifecycles = (beginLifecycle linkId adv w.shared).activeInboundLifecycles)
    (hlog : s.accounting = (beginLifecycle linkId adv w.shared).accounting) :
    Work linkId w (concludeInboundFailure linkId (advertisedResource adv) conclusion
      { w with shared := s }) := by
  rcases beginLifecycle_cases linkId adv w.shared with ⟨l, hl, hbegin⟩ | ⟨hnone, l, hls', hlog'⟩
  · rw [hbegin] at hls hlog
    have hquiet := (Quiet.of_shared w hls hlog).work hw
    exact hquiet.failure _ conclusion
  · rw [hls'] at hls
    rw [hlog'] at hlog
    unfold concludeInboundFailure claimInboundTerminal
    simp only [hls, get_insert_self]
    refine hw.retire [_, _] (by simp [About, entry]) erase_insert
      ((congrArg (· ++ [_]) hlog).trans (List.append_assoc ..)) ?_
    rw [Shared.emit, hlog]
    refine Stands.closes (o := True) ?_ trivial not_false (mark_of_entry rfl)
    exact (hw.stands_of_none hnone).opens not_false trivial (mark_of_entry rfl)

/-- A new segment in progress, of a resource that was just opened or waits for it. -/
theorem work_publishSegment (adv : ResourceAdvertisement)
    (transfer : InboundTransfer F)
    (hnew : ¬ w.active.inboundResources.contains adv.resourceHash)
    (hidle : ∀ l, w.shared.activeInboundLifecycles.get (linkId, advertisedResource adv) = some l →
      l.currentSegment = none)
    (hls : s.activeInboundLifecycles = (beginLifecycle linkId adv w.shared).activeInboundLifecycles)
    (hlog : s.accounting = (beginLifecycle linkId adv w.shared).accounting) :
    Work linkId w (publishSegment linkId adv transfer { w with shared := s }) := by
  obtain ⟨es, l, hes, hopen, hothers, hlog', hstands⟩ : ∃ es l,
      About (linkId, .inbound, advertisedResource adv) es ∧
      s.activeInboundLifecycles.get (linkId, advertisedResource adv) = some l ∧
      (∀ key, key ≠ (linkId, advertisedResource adv) →
        s.activeInboundLifecycles.get key = w.shared.activeInboundLifecycles.get key) ∧
      s.accounting = w.shared.accounting ++ es ∧
      Stands mark (linkId, .inbound, advertisedResource adv) s.accounting True := by
    rw [hls, hlog]
    rcases beginLifecycle_cases linkId adv w.shared with ⟨l, hl, hbegin⟩ | ⟨hnone, l, hls', hlog'⟩
    · rw [hbegin]
      exact ⟨[], l, .nil _, hl, fun _ _ => rfl, (List.append_nil _).symm,
        (hw.inboundAccount _).congr (by simp [contains, hl]) rfl⟩
    · rw [hls', hlog']
      exact ⟨[_], l, .single rfl, get_insert_self, fun _ hne => get_insert_ne hne, rfl,
        (hw.stands_of_none hnone).opens not_false trivial (mark_of_entry rfl)⟩
  obtain ⟨-, hsending, hqueues⟩ := transfers_publishRoute adv w.active
  have hshape : InboundShape linkId ({ w with shared := s } : LinkWork F).active
      w.shared.activeInboundLifecycles := hw.inbound
  refine hw.account_inbound es hes (fun key hne => ?_) hlog' ⟨fun h => ?_, hqueues⟩
    (hshape.publish hnew hidle hopen fun i hi => hothers _ fun heq => hi (Prod.mk.inj heq).2)
    (hstands.congr ?_ rfl)
  · exact (get_modify.trans (if_neg hne)).trans (hothers key hne)
  · exact congrArg (fun transfers => (get transfers h).map outboundName) hsending
  · have hcontains : (publishSegment linkId adv transfer
        { w with shared := s }).shared.activeInboundLifecycles.contains
          (linkId, advertisedResource adv) = true :=
      contains_modify.trans (contains_iff.mpr ⟨l, hopen⟩)
    simp [hcontains]

variable [AesCbc] [Hmac]

theorem work_rejectInboundAdvertisement (id h : Octets 32)
    (reason : String) : Work linkId w (rejectInboundAdvertisement m linkId id h reason w) := by
  unfold rejectInboundAdvertisement
  dsimp only
  split_ifs
  · have hsend := (Quiet.send m linkId w (.sendCancel .rcl h)).work hw
    exact hsend.failure id _
  · exact work_concludeInboundFailure hw id _

theorem work_admitSegment (adv : ResourceAdvertisement)
    (transfer : InboundTransfer F) (hnew : ¬ w.active.inboundResources.contains adv.resourceHash)
    (hidle : ∀ l, w.shared.activeInboundLifecycles.get (linkId, advertisedResource adv) = some l →
      l.currentSegment = none) : Work linkId w (admitSegment m linkId adv transfer w) := by
  unfold admitSegment
  dsimp only
  have hsend := Quiet.send m linkId { w with shared := beginLifecycle linkId adv w.shared }
    (transfer.requestNext m.now).2
  -- The request of the first parts only changes the session and the queue.
  have hactive : Quiet w { w with active := (sendResourceAction m linkId
      { w with shared := beginLifecycle linkId adv w.shared }
        (transfer.requestNext m.now).2).1.active } :=
    ⟨⟨hsend.inbound.segments, hsend.inbound.routing, hsend.inbound.coordinators, rfl⟩,
      ⟨hsend.outbound.sending, hsend.outbound.queues⟩, rfl⟩
  have hwork := hactive.work hw
  have hls := hsend.inbound.lifecycles
  have hlog := hsend.accounting
  split
  · rename_i w₁ heq
    rw [heq] at hwork hls hlog
    exact hwork.trans (work_begin_failure hwork.ok adv _ hls hlog)
  · rename_i w₁ heq
    rw [heq] at hwork hls hlog hactive
    have hnew' : ¬ w₁.active.inboundResources.contains adv.resourceHash := by
      rwa [← hactive.inbound.segments] at hnew
    exact hwork.trans (work_publishSegment hwork.ok adv _ hnew' hidle hls hlog)

variable [Binary64Bits F]

theorem work_receiveAdvertisement (adv : ResourceAdvertisement) :
    Work linkId w (receiveAdvertisement m linkId adv w) := by
  have hreject (id : Octets 32) (reason : String) :
      Work linkId w (rejectInboundAdvertisement m linkId id adv.resourceHash reason w) :=
    work_rejectInboundAdvertisement hw m id adv.resourceHash reason
  have hsend := (Quiet.send m linkId w (.sendCancel .rcl adv.resourceHash)).work hw
  unfold receiveAdvertisement
  dsimp only
  cases advertisedTransfer m w adv with
  | error e => split_ifs <;> first | exact .refl hw | exact hreject _ _
  | ok transfer =>
    split_ifs with _ hknown _ hbroken
    iterate 9 first | exact .refl hw | exact hreject _ _
    · exact hsend.failure _ _
    · exact hsend
    · refine work_admitSegment hw m adv _ hknown fun l hl => ?_
      -- A segment continues its resource only when that has none in progress.
      have hvalid : continuityValid l
          (w.active.inboundSplitResources.get (advertisedResource adv)) adv := by
        by_contra hnot
        exact hbroken ⟨l, hl, hnot⟩
      simp only [continuityValid, decide_eq_true_eq] at hvalid
      exact hvalid.2.2.1

end Advertisements

/-! ### Parts and the other packets about inbound resources -/

section Inbound

theorem work_receiveInitiatorCancel (plaintext : Bytes) :
    Work linkId w (receiveInitiatorCancel linkId plaintext w) := by
  unfold receiveInitiatorCancel
  dsimp only
  split_ifs
  · exact .refl hw
  · split
    · exact .refl hw
    · have hwork := (Quiet.modify_transfer w (Octets.read 32 plaintext)
        InboundTransfer.handleCancel).work hw
      exact hwork.failure _ _

theorem work_receiveHashmapUpdate [AesCbc] [Hmac]
    (plaintext : Bytes) : Work linkId w (receiveHashmapUpdate m linkId plaintext w) := by
  unfold receiveHashmapUpdate
  split
  · exact .refl hw
  · rename_i h segment hashmap _
    split
    · exact .refl hw
    · rename_i transfer _
      dsimp only
      generalize transfer.hashmapUpdate segment hashmap m.now = updated
      have hwork := (Quiet.modify_transfer w h fun _ => updated.1).work hw
      have hsend := hwork.quiet (Quiet.send m linkId _ updated.2)
      split
      · exact hsend.failure _ _
      · exact hsend

theorem work_completeResource [Sha256] [Bzip2] (h : Octets 32) :
    Work linkId w (completeResource linkId h w) := by
  unfold completeResource
  split_ifs
  · exact .refl hw
  · split
    · exact .refl hw
    · rename_i transfer _
      dsimp only
      generalize transfer.complete _ = completed
      have hwork := (Quiet.modify_transfer w h fun _ => completed.1).work hw
      split
      · exact hwork.trans (work_concludeInboundComplete hwork.ok _ _ _)
      · exact hwork.failure _ _

variable [Binary64Bits F]

theorem work_awaitSegment {id : Octets 32}
    (hh : w.active.inboundResources.contains h) (hid : resourceOf w.active h = id) :
    Work linkId w (awaitSegment m linkId h id w) := by
  subst hid
  have hcontains : (awaitSegment m linkId h (resourceOf w.active h)
      w).shared.activeInboundLifecycles.contains (linkId, resourceOf w.active h) =
        w.shared.activeInboundLifecycles.contains (linkId, resourceOf w.active h) :=
    contains_modify
  refine hw.account_inbound [] (.nil _) (fun key hne => ?_) (List.append_nil _).symm
    ⟨fun _ => rfl, rfl⟩ (hw.inbound.await hh m)
    ((hw.inboundAccount (resourceOf w.active h)).congr ?_ rfl)
  · exact get_modify.trans (if_neg hne)
  · rw [hcontains]

theorem work_deliverSegment
    (hh : w.active.inboundResources.contains h) (data : Bytes) (metadata : Option Bytes) :
    Work linkId w (deliverSegment m linkId h data metadata w) := by
  unfold deliverSegment
  cases hroute : w.active.segmentRouting.get h with
  | none => exact work_deliverResource hw h data metadata
  | some route =>
    dsimp only
    cases w.active.inboundSplitResources.get route.originalHash with
    | none => exact work_concludeInboundFailure hw route.originalHash _
    | some coordinator =>
      dsimp only
      generalize storeSegment route data metadata coordinator = stored
      have hquiet : Quiet w { w with active := { w.active with
          inboundSplitResources :=
            w.active.inboundSplitResources.modify route.originalHash fun _ => stored.1 } } :=
        ⟨⟨fun _ => rfl, rfl, fun _ => contains_modify, rfl⟩, ⟨fun _ => rfl, rfl⟩, rfl⟩
      have hwork := hquiet.work hw
      split
      · exact hwork.trans (work_deliverResource hwork.ok _ _ _)
      · exact hwork.trans (work_awaitSegment hwork.ok m hh (resourceOf_of_route hroute))
      · exact hwork.failure _ _

variable [AesCbc] [Hmac] [Sha256] [Bzip2]

theorem work_finishSegment (h : Octets 32) :
    Work linkId w (finishSegment m linkId h w) := by
  unfold finishSegment
  cases ht : w.active.inboundResources.get h with
  | none => exact .refl hw
  | some transfer =>
    dsimp only
    generalize transfer.complete _ = completed
    have hwork := (Quiet.modify_transfer w h fun _ => completed.1).work hw
    split
    · have hsend := hwork.quiet (Quiet.send m linkId _ (.sendCancel .rcl h))
      exact hsend.failure _ _
    · rename_i data proof _
      have hquiet := Quiet.send m linkId { w with active := { w.active with
        inboundResources := w.active.inboundResources.modify h fun _ => completed.1 } }
          (.sendProof proof)
      have hsend := hwork.trans (hquiet.work hwork.ok)
      split
      · rename_i w₁ heq
        rw [heq] at hsend
        exact hsend.failure _ _
      · rename_i w₁ heq
        rw [heq] at hsend hquiet
        refine hsend.trans (work_deliverSegment hsend.ok m ?_ data _)
        rw [hquiet.inbound.segments]
        exact contains_modify.trans (contains_iff.mpr ⟨transfer, ht⟩)

theorem work_receivePart (data : Bytes) :
    Work linkId w (receivePart m linkId data w) := by
  unfold receivePart
  dsimp only
  have hwork := (Quiet.of_transfers w (contains_offerPart data m.now
    w.active.inboundResources.toList w.active.inboundResources)).work hw
  generalize offerPart data m.now w.active.inboundResources.toList w.active.inboundResources =
    offered at hwork ⊢
  obtain ⟨transfers, answer, completed⟩ := offered
  have hsent (action : TransferAction) := hwork.quiet (Quiet.send m linkId _ action)
  cases completed with
  | none =>
    cases answer with
    | none => exact hwork
    | some action => exact hsent action
  | some segmentHash =>
    cases answer with
    | none => exact hwork.trans (work_finishSegment hwork.ok m _)
    | some action => exact (hsent action).trans (work_finishSegment (hsent action).ok m _)

end Inbound

/-! ### Outbound resources -/

section Outbound

section

variable (ht : w.active.outboundResources.get h = some t)

include ht

/-- An outbound resource ends with its only transfer. -/
theorem LinkOk.end_outbound (conclusion : LinkResourceConclusion)
    (hsame : SameInbound w w')
    (hsending : w'.active.outboundResources.get =
      Function.update w.active.outboundResources.get h none)
    (hqueues : w'.active.outboundSplitQueues.get =
      Function.update w.active.outboundSplitQueues.get (resourceSent t) none)
    (hlog : w'.shared.accounting =
      w.shared.accounting ++ [.concluded linkId (resourceSent t) .outbound conclusion]) :
    Work linkId w w' := by
  have hgone : ¬ ∃ h' t', w'.active.outboundResources.get h' = some t' ∧
      resourceSent t' = resourceSent t := by
    rintro ⟨h', t', ht', hid⟩
    rw [hsending, update_apply] at ht'
    split_ifs at ht' with hne
    exact hne (hw.outbound.unique h' h t' t ht' ht hid)
  refine hw.account_outbound [_] (.single rfl) hsame hlog ?_ ?_ ?_
  · rw [hsending, hqueues]
    exact hw.outbound.conclude ht
  · intro i hi
    rw [hsending]
    refine sends_update (fun t' ht' => ?_) (fun t' ht' => ?_) hi
    · rw [some.inj (ht'.symm.trans ht)]
    · exact absurd ht' (some_ne_none t').symm
  · rw [hlog]
    exact (hw.outboundAccount _).closes ⟨h, t, ht, rfl⟩ hgone (mark_of_entry rfl)

/-- A segment of an outbound resource takes the place of another one. -/
theorem LinkOk.continue_outbound {key : Octets 32} {next t' : OutboundTransfer}
    {rest : List OutboundTransfer}
    (horiginal : t.resource.originalHash = some key)
    (hqueue : w.active.outboundSplitQueues.get key = some (next :: rest))
    (hname : outboundName t' = outboundName next) (hsame : SameInbound w w')
    (hsending : w'.active.outboundResources.get = Function.update
      (Function.update w.active.outboundResources.get h none) next.resource.resourceHash (some t'))
    (hqueues : w'.active.outboundSplitQueues.get =
      Function.update w.active.outboundSplitQueues.get key (if rest = [] then none else some rest))
    (hlog : w'.shared.accounting = w.shared.accounting) : Work linkId w w' := by
  have hkey : resourceSent t = key := by rw [resourceSent, horiginal, getD_some]
  have hkey' : resourceSent t' = key := by
    have hnext := hw.outbound.queued key _ next hqueue (List.mem_cons_self ..)
    rw [resourceSent, (Prod.mk.inj hname).2, hnext, getD_some]
  have hfree : Function.update w.active.outboundResources.get h none next.resource.resourceHash =
      none := by
    rw [update_apply, hw.outbound.waiting key _ next hqueue List.mem_cons_self, ite_self]
  refine hw.account_outbound [] (.nil (linkId, .outbound, key)) hsame
    (hlog.trans (List.append_nil _).symm) ?_ ?_ ?_
  · rw [hqueues, hsending]
    exact hw.outbound.advance ht horiginal hqueue hname
  · intro i hi
    rw [hsending]
    refine (sends_update (fun t'' ht'' => ?_) (fun t'' ht'' => ?_) hi).trans
      (sends_update (fun t'' ht'' => ?_) (fun t'' ht'' => ?_) hi)
    · exact absurd (hfree.symm.trans ht'') (some_ne_none t'').symm
    · rw [← some.inj ht'', hkey']
    · rw [some.inj (ht''.symm.trans ht), hkey]
    · exact absurd ht'' (some_ne_none t'').symm
  · refine (hw.outboundAccount key).congr ?_ (by rw [hlog])
    rw [hsending]
    exact ⟨fun _ => ⟨h, t, ht, hkey⟩, fun _ => ⟨_, t', update_self .., hkey'⟩⟩

theorem work_concludeOutbound (conclusion : LinkResourceConclusion) :
    Work linkId w (concludeOutbound linkId h (outboundResourceIdentity t).1 conclusion w) :=
  hw.end_outbound ht conclusion ⟨fun _ => rfl, rfl, fun _ => rfl, rfl⟩ get_erase_eq_update
    get_erase_eq_update rfl

end

theorem work_receiveReceiverCancel (plaintext : Bytes) :
    Work linkId w (receiveReceiverCancel linkId plaintext w) := by
  unfold receiveReceiverCancel
  dsimp only
  split_ifs
  · exact .refl hw
  · split
    · exact .refl hw
    · rename_i ht
      exact work_concludeOutbound hw ht _

/-- A new outbound resource. -/
theorem LinkOk.start_outbound {first t' : OutboundTransfer}
    (rest : List OutboundTransfer) (hquiet : Quiet w w')
    (htransfers : w'.active.outboundResources = w.active.outboundResources)
    (hname : outboundName t' = outboundName first)
    (htied : rest ≠ [] → ∀ t ∈ first :: rest, t.resource.originalHash = some (resourceSent first))
    (hdistinct : DistinctSegments w.active ((first :: rest).map resource))
    (dataSize totalSegments : ℕ) :
    Work linkId w
      { active := { w'.active with
          outboundResources := w'.active.outboundResources.insert first.resource.resourceHash t'
          outboundSplitQueues := if rest = [] then w'.active.outboundSplitQueues
            else w'.active.outboundSplitQueues.insert (resourceSent first) rest }
        shared := w'.shared.emit
          (.started linkId (resourceSent first) .outbound dataSize totalSegments) } := by
  obtain ⟨hnodup, hfree, hunqueued, hclosed⟩ := hdistinct
  simp only [List.forall_mem_map] at hfree hunqueued hclosed
  have hopen (h : Octets 32) (t : OutboundTransfer) (ht : w.active.outboundResources.get h = some t) :
      resourceSent t ≠ resourceSent first :=
    hclosed t (mem_values.mpr ⟨h, ht⟩) first (List.mem_cons_self ..)
  have hsending : (w'.active.outboundResources.insert first.resource.resourceHash t').get =
      Function.update w.active.outboundResources.get first.resource.resourceHash (some t') := by
    rw [get_insert_eq_update, htransfers]
  have hsent : resourceSent t' = resourceSent first := resourceSent_of_name hname
  have hnone : w.active.outboundResources.get first.resource.resourceHash = none :=
    not_isSome_iff_eq_none.mp
      (Bool.not_eq_true _ ▸ hfree first (List.mem_cons_self ..))
  have hin := hquiet.inbound
  refine hw.account_outbound [_] (.single rfl)
    ⟨hin.segments, hin.routing, hin.coordinators, hin.lifecycles⟩
    (congrArg (· ++ [_]) hquiet.accounting) ?_ (fun i hi => ?_) ?_
  · have hshape := hw.outbound.start htied (by rwa [List.map_map] at hnodup)
      (fun t ht => not_isSome_iff_eq_none.mp (Bool.not_eq_true _ ▸ hfree t ht))
      (fun key q t hq ht => hunqueued q (mem_values.mpr ⟨key, hq⟩) t ht) hopen
    have hqueues : (if rest = [] then w'.active.outboundSplitQueues
        else w'.active.outboundSplitQueues.insert (resourceSent first) rest).get =
          if rest = [] then w.active.outboundSplitQueues.get
          else Function.update w.active.outboundSplitQueues.get (resourceSent first) (some rest) := by
      rw [hquiet.outbound.queues]
      split_ifs
      · rfl
      · exact get_insert_eq_update
    dsimp only
    rw [hqueues]
    refine hshape.congr fun h => ?_
    rw [hsending, update_apply, update_apply]
    split_ifs
    · rw [map_some, map_some, hname]
    · rfl
  · dsimp only
    rw [hsending]
    refine sends_update (fun t ht => ?_) (fun t ht => ?_) hi
    · exact absurd (hnone.symm.trans ht) (some_ne_none t).symm
    · rw [← some.inj ht, hsent]
  · refine Stands.opens (o := ∃ h t, w.active.outboundResources.get h = some t ∧
      resourceSent t = resourceSent first) ?_ ?_ ⟨_, t', get_insert_self, hsent⟩
      (mark_of_entry rfl)
    · exact (hw.outboundAccount _).congr Iff.rfl (by rw [hquiet.accounting])
    · rintro ⟨h, t, ht, hid⟩
      exact hopen h t ht hid

variable [AesCbc] [Hmac]

theorem work_receiveRequest [Sha256] (packetHash : Octets 32)
    (plaintext : Bytes) : Work linkId w (receiveRequest m linkId packetHash plaintext w) := by
  unfold receiveRequest
  dsimp only
  generalize (if plaintext.head? = some hashmapIsExhausted then 5 else 1) = start
  split_ifs
  · exact .refl hw
  · split
    · exact .refl hw
    · rename_i transfer ht
      exact ((Quiet.modify_outbound w ht
        (sameResource_handleRequestPacket transfer packetHash plaintext
          m.now)).trans (Quiet.sendActions m linkId _ _)).work hw

/-- The next segment of a resource is sent, or the resource is concluded. -/
theorem work_continueOutbound {key : Octets 32}
    (ht : w.active.outboundResources.get h = some t) (horiginal : t.resource.originalHash = some key) :
    Work linkId w (continueOutbound m linkId key { w with active := { w.active with
      outboundResources := w.active.outboundResources.erase h } }) := by
  have hkey : resourceSent t = key := by rw [resourceSent, horiginal, getD_some]
  subst hkey
  unfold continueOutbound
  obtain ⟨queues, hpop, hqueues⟩ | ⟨next, rest, queues, hqueue, hpop, hqueues⟩ :=
    popSegment_cases (resourceSent t)
      { w.active with outboundResources := w.active.outboundResources.erase h }
  · simp only [hpop]
    exact hw.end_outbound ht .complete ⟨fun _ => rfl, rfl, fun _ => rfl, rfl⟩
      get_erase_eq_update hqueues rfl
  · simp only [hpop]
    obtain ⟨w', c, hquiet, htransfers, hstart⟩ | ⟨w', t', hquiet, htransfers, hname, hstart⟩ :=
      startNext_cases m linkId (resourceSent t) next { w with active := { w.active with
        outboundResources := w.active.outboundResources.erase h
        outboundSplitQueues := queues } }
    all_goals
      have hin := hquiet.inbound
      refine (congrArg (Work linkId w) hstart).mpr ?_
    · refine hw.end_outbound ht c ⟨hin.segments, hin.routing, hin.coordinators, hin.lifecycles⟩ ?_ ?_
        (congrArg (· ++ [_]) hquiet.accounting)
      · exact (congrArg get htransfers).trans get_erase_eq_update
      · refine get_erase_eq_update.trans ?_
        rw [hquiet.outbound.queues, hqueues, update_idem]
    · refine hw.continue_outbound ht horiginal hqueue hname
        ⟨hin.segments, hin.routing, hin.coordinators, hin.lifecycles⟩ ?_ ?_ hquiet.accounting
      · refine get_insert_eq_update.trans ?_
        rw [htransfers, get_erase_eq_update]
      · exact (congrArg get hquiet.outbound.queues).trans hqueues

theorem work_receiveProof (data : Bytes) :
    Work linkId w (receiveProof m linkId data w) := by
  unfold receiveProof
  dsimp only
  split_ifs
  · exact .refl hw
  · split
    · exact .refl hw
    · rename_i t ht
      have hkeeps := (keeps_handleProof t data).resource
      split
      · rename_i t' heq
        rw [heq] at hkeeps
        exact (Quiet.modify_outbound w ht hkeeps).work hw
      · split
        · rename_i key horiginal
          exact work_continueOutbound hw m ht horiginal
        · rename_i hsingle
          have hid : resourceSent t = Octets.read 32 data := by
            rw [resourceSent, hsingle, getD_none, hw.outbound.named _ t ht]
          refine hw.end_outbound ht .complete ⟨fun _ => rfl, rfl, fun _ => rfl, rfl⟩
            get_erase_eq_update ?_ (by rw [hid]; rfl)
          exact (update_eq_self_iff.mpr (hw.outbound.queue_eq_none ht hsingle).symm).symm

theorem work_startResourceTransferInner [Sha256] [Bzip2]
    (request : ResourceTransferStart)
    (hdistinct : ∀ rs, preparedSegments request w.active.link = some rs →
      DistinctSegments w.active rs) :
    Work linkId w (startResourceTransferInner m linkId request w) := by
  unfold startResourceTransferInner
  split
  · exact .refl hw
  · exact .refl hw
  · rename_i r rs hprepared
    have hdistinct := hdistinct _ hprepared
    have htied := originalHash_of_preparedSegments hprepared
    dsimp only
    generalize w.active.link.rtt.getD (Duration.fromSecs 1 / 2) = rtt
    have hcases := startOutboundTransfer_cases m linkId (.fromResource r rtt m.now) w
    generalize startOutboundTransfer m linkId (.fromResource r rtt m.now) w = started at hcases ⊢
    obtain ⟨w₁, started⟩ := started
    obtain ⟨hnone, hquiet, -⟩ | ⟨w', t', hsome, hquiet, htransfers, hname, hstart⟩ := hcases
    · obtain rfl : started = none := hnone
      exact hquiet.work hw
    · obtain rfl : started = some _ := hsome
      obtain rfl : w₁ = _ := hstart
      refine hw.start_outbound (rs.map fun r => fromResource r rtt m.now) hquiet
        htransfers hname (fun hsplit => ?_) ?_ _ _
      · have htied := htied fun hnil => hsplit (by rw [hnil, List.map_nil])
        simpa [fromResource, resourceSent] using htied
      · simpa [fromResource, comp_def] using hdistinct

end Outbound

/-! ### Cancellation and the watchdogs -/

section Watchdogs

theorem work_watchDeadlines :
    Work linkId w (watchDeadlines m linkId w) :=
  Work.foldl (fun _ id hw => work_concludeInboundFailure hw id _) hw _

variable [AesCbc] [Hmac]

theorem work_cancelLinkResource (resourceId : Octets 32)
    (direction : LinkResourceDirection) :
    Work linkId w (cancelLinkResource m linkId resourceId direction w) := by
  cases direction with
  | outbound =>
    unfold cancelLinkResource
    dsimp only
    split
    · exact .refl hw
    · rename_i segmentHash transfer hfind
      have ht := mem_toList.mp (List.mem_of_find?_eq_some hfind)
      have hquiet := Quiet.send m linkId w (.sendCancel .icl segmentHash)
      have hwork := hquiet.work hw
      -- The packet leaves the transfer under its name.
      have hname := hquiet.outbound.sending segmentHash
      rw [ht] at hname
      obtain ⟨t', ht', hname⟩ := map_eq_some_iff.mp hname
      refine hwork.trans ?_
      have hsent : (outboundResourceIdentity transfer).1 = (outboundResourceIdentity t').1 :=
        (resourceSent_of_name hname).symm
      rw [hsent]
      exact work_concludeOutbound hwork.ok ht' _
  | inbound =>
    unfold cancelLinkResource
    dsimp only
    split
    · rename_i segmentHash _
      have hwork := (Quiet.send m linkId w (.sendCancel .rcl segmentHash)).work hw
      exact hwork.failure _ _
    · split_ifs
      · exact work_concludeInboundFailure hw _ _
      · exact .refl hw

theorem work_watchOutbounds :
    Work linkId w (watchOutbounds m linkId w) := by
  have hquiet : Quiet w { w with active := { w.active with
      outboundResources :=
        w.active.outboundResources.mapValues fun _ t => (t.checkTimeout m.now).1 } } := by
    refine .of_outbound w fun h => ?_
    rw [get_mapValues, map_map]
    refine map_congr fun t _ => ?_
    exact SameResource.name (keeps_checkTimeout t m.now).resource
  have hwork := hquiet.work hw
  refine hwork.trans (Work.foldl (fun w polled hw => ?_) hwork.ok _)
  unfold watchOutbound
  split
  · exact .refl hw
  · split
    · rename_i ht
      exact work_concludeOutbound hw ht _
    · exact .refl hw
  · exact (Quiet.send m linkId w _).work hw

theorem work_tickLink :
    Work linkId w (tickLink m linkId w).1 := by
  refine Quiet.work ?_ hw
  unfold tickLink
  dsimp only
  generalize LinkSession.tick _ m.now (m.iv w.shared.emissions) = ticked
  have hkeepalive (link : LinkSession F) :
      Quiet w (sendKeepalivePacket m linkId { w with active := { w.active with link } }) :=
    .of_link w _ rfl rfl
  have hlink : Quiet w { w with active := { w.active with link := ticked.1 } } :=
    .of_link w ticked.1 rfl rfl
  split
  · exact hlink
  · exact hkeepalive _
  · dsimp only
    split_ifs
    · exact hkeepalive _
    · exact hlink
  · split_ifs
    · exact hlink
    · exact .stage m w _ _
  · exact hlink

variable [Binary64Bits F]

theorem work_watchInbounds :
    Work linkId w (watchInbounds m linkId w) := by
  have hquiet : Quiet w { w with active := { w.active with
      inboundResources := w.active.inboundResources.mapValues fun _ t => (t.checkTimeout m.now).1 } } :=
    .of_transfers w fun _ => contains_mapValues
  have hwork := hquiet.work hw
  refine hwork.trans (Work.foldl (fun w polled hw => ?_) hwork.ok _)
  unfold watchInbound
  split_ifs
  · split
    · exact .refl hw
    · exact work_concludeInboundFailure hw _ _
    · exact (Quiet.send m linkId w _).work hw
  · exact .refl hw

theorem work_watchResources :
    Work linkId w (watchResources m linkId w) := by
  have hinbounds := work_watchInbounds hw m
  have hdeadlines := hinbounds.trans (work_watchDeadlines hinbounds.ok m)
  exact hdeadlines.trans (work_watchOutbounds hdeadlines.ok m)

end Watchdogs

end Reticulum.Manager
