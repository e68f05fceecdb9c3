import Reticulum.Manager.Transfers

/-!
# Resources are accounted for exactly once

What the handlers do on one link is put together for the whole manager: every link that is active
keeps its invariant, and nothing of a link that is not active is open. The invariant holds after any
sequence of packets, calls, ticks and closes, as long as the segments that the application sends have
hashes that are not in use on their link.

## Main definitions

* `ManagerOk` — the invariant of the manager.
* `LinkManager.Distinct` — the segments of a resource that is started have new hashes.

## Main results

* `managerOk_step` — every event keeps the invariant.
* `resources_accounted_once` — the accounting stream and the tables after any run.
-/

namespace Reticulum.Manager

open Wire Resource LinkManager Table AccountingEvent

variable {F : Type} {linkId : Octets 16} {s : LinkManager F} {a : ActiveLink F}

/-! ### The invariant -/

/-- The invariant of the manager. -/
structure ManagerOk (s : LinkManager F) : Prop where
  active : ∀ linkId a, s.activeLinks.get linkId = some a →
    LinkOk linkId { active := a, shared := s.shared }
  gone : ∀ linkId, s.activeLinks.get linkId = none →
    (∀ id, s.shared.activeInboundLifecycles.get (linkId, id) = none) ∧
      ∀ k : ResourceKey, k.1 = linkId → s.shared.phase k = some .closed

/-- The invariant of a link is not touched by work on another one. -/
theorem LinkOk.of_apart {l : Octets 16} {shared shared' : Shared}
    (hl : LinkOk l { active := a, shared }) (hapart : Apart linkId shared shared')
    (hne : l ≠ linkId) : LinkOk l { active := a, shared := shared' } where
  inbound := hl.inbound.congr (fun _ => rfl) rfl (fun _ => rfl) fun id => hapart.lifecycles l id hne
  outbound := hl.outbound
  inboundAccount id := (hl.inboundAccount id).congr
    (by simp only [contains, hapart.lifecycles l id hne]) (hapart.phases _ hne)
  outboundAccount id := (hl.outboundAccount id).congr Iff.rfl (hapart.phases _ hne)

variable {shared : Shared}

namespace ManagerOk

/-- Nothing of a link that is not active is opened by work on another one. -/
theorem gone_of_apart {l : Octets 16} (hs : ManagerOk s) (hapart : Apart linkId s.shared shared)
    (hl : s.activeLinks.get l = none) (hne : l ≠ linkId) :
    (∀ id, shared.activeInboundLifecycles.get (l, id) = none) ∧
      ∀ k : ResourceKey, k.1 = l → shared.phase k = some .closed := by
  obtain ⟨hnone, hclosed⟩ := hs.gone l hl
  refine ⟨fun id => (hapart.lifecycles l id hne).trans (hnone id), fun k hk => ?_⟩
  exact (hapart.phases k fun hk' => hne (hk.symm.trans hk')).trans (hclosed k hk)

/-- Work on one active link. -/
theorem work (hs : ManagerOk s) (ha : s.activeLinks.get linkId = some a) {w : LinkWork F}
    (hwork : Work linkId { active := a, shared := s.shared } w) :
    ManagerOk { activeLinks := s.activeLinks.modify linkId fun _ => w.active, shared := w.shared } where
  active l b hb := by
    rw [get_modify] at hb
    split_ifs at hb with heq
    · subst heq
      rw [ha] at hb
      obtain rfl := Option.some.inj hb
      exact hwork.ok
    · exact (hs.active l b hb).of_apart hwork.apart heq
  gone l hl := by
    rw [get_modify] at hl
    split_ifs at hl with heq
    · rw [heq, ha] at hl
      cases hl
    · exact hs.gone_of_apart hwork.apart hl heq

theorem withLink (hs : ManagerOk s) {f : LinkWork F → LinkWork F}
    (hf : ∀ a, s.activeLinks.get linkId = some a →
      LinkOk linkId { active := a, shared := s.shared } →
        Work linkId { active := a, shared := s.shared } (f { active := a, shared := s.shared })) :
    ManagerOk (s.withLink linkId f) := by
  unfold LinkManager.withLink
  cases ha : s.activeLinks.get linkId with
  | none => exact hs
  | some a => exact hs.work ha (hf a ha (hs.active linkId a ha))

/-- Changes to what no link accounts for. -/
theorem of_shared (hs : ManagerOk s)
    (hls : shared.activeInboundLifecycles = s.shared.activeInboundLifecycles)
    (hlog : shared.accounting = s.shared.accounting) : ManagerOk { s with shared } where
  active l b hb := ((Quiet.of_shared _ hls hlog).work (hs.active l b hb)).ok
  gone l hl := by
    obtain ⟨hnone, hclosed⟩ := hs.gone l hl
    refine ⟨fun id => ?_, fun k hk => ?_⟩
    · rw [hls, hnone id]
    · rw [Shared.phase, hlog]
      exact hclosed k hk

end ManagerOk

/-- The stream is in order for every resource. -/
theorem ManagerOk.exists_phase (hs : ManagerOk s) (k : ResourceKey) :
    ∃ p, s.shared.phase k = some p := by
  obtain ⟨linkId, direction, id⟩ := k
  cases ha : s.activeLinks.get linkId with
  | none => exact ⟨_, (hs.gone linkId ha).2 _ rfl⟩
  | some a =>
    have hl := hs.active linkId a ha
    cases direction with
    | inbound => exact (hl.inboundAccount id).exists_phase
    | outbound => exact (hl.outboundAccount id).exists_phase

/-- The stream shows an inbound resource open while its lifecycle is. -/
theorem ManagerOk.contains_iff_opened (hs : ManagerOk s) (linkId : Octets 16) (id : Octets 32) :
    s.shared.activeInboundLifecycles.contains (linkId, id) ↔
      s.shared.phase (linkId, .inbound, id) = some .opened := by
  cases ha : s.activeLinks.get linkId with
  | none =>
    obtain ⟨hnone, hclosed⟩ := hs.gone linkId ha
    rw [contains, hnone id, hclosed _ rfl]
    decide
  | some a => exact ((hs.active linkId a ha).inboundAccount id).iff_opened

/-! ### The start and the end of a link -/

/-- A link without resources. -/
theorem LinkOk.fresh {link : LinkSession F} {interfaceId : ℕ} {interfaceOwner : Option ℕ}
    (hnone : ∀ id, shared.activeInboundLifecycles.get (linkId, id) = none)
    (hclosed : ∀ k : ResourceKey, k.1 = linkId → shared.phase k = some .closed) :
    LinkOk linkId
      { active :=
          { link, interfaceId, interfaceOwner, inboundResources := ∅, outboundResources := ∅
            outboundSplitQueues := ∅, inboundSplitResources := ∅, segmentRouting := ∅ }
        shared } where
  inbound :=
    { segment := fun h hh => absurd hh Bool.false_ne_true
      route := fun h route hroute => nomatch hroute
      coordinator := fun id hid => absurd hid Bool.false_ne_true
      lifecycle := fun id l hl => nomatch (hnone id).symm.trans hl }
  outbound :=
    { named := fun _ _ ht => nomatch ht
      unique := fun _ _ _ _ ht => nomatch ht
      queued := fun _ _ _ hq => nomatch hq
      nodup := fun _ _ hq => nomatch hq
      apart := fun _ _ _ _ _ _ hq => nomatch hq
      waiting := fun _ _ _ hq => nomatch hq
      owner := fun _ _ hq => nomatch hq }
  inboundAccount id := by
    refine ⟨fun hopen => ?_, fun _ => hclosed _ rfl⟩
    rw [contains, hnone id] at hopen
    cases hopen
  outboundAccount id := by
    refine ⟨fun hopen => ?_, fun _ => hclosed _ rfl⟩
    obtain ⟨_, _, ht, -⟩ := hopen
    cases ht

theorem managerOk_acceptLink (hs : ManagerOk s) (link : LinkSession F) (interfaceId : ℕ)
    (interfaceOwner : Option ℕ) : ManagerOk (s.acceptLink link interfaceId interfaceOwner) := by
  unfold acceptLink
  split_ifs with hknown
  · exact hs
  · have hnew : s.activeLinks.get link.linkId = none :=
      Option.not_isSome_iff_eq_none.mp hknown
    obtain ⟨hnone, hclosed⟩ := hs.gone link.linkId hnew
    constructor
    · intro l b hb
      obtain ⟨heq, rfl⟩ | hb := of_get_insert hb
      · subst heq
        exact .fresh hnone hclosed
      · exact hs.active l b hb
    · intro l hl
      rw [get_insert] at hl
      split_ifs at hl
      exact hs.gone l hl

section Close

variable {w : LinkWork F} (conclusion : LinkResourceConclusion)

theorem activeInboundLifecycles_concludeInboundFailure (linkId : Octets 16) (id : Octets 32)
    (w : LinkWork F) :
    (concludeInboundFailure linkId id conclusion w).shared.activeInboundLifecycles =
      w.shared.activeInboundLifecycles.erase (linkId, id) := by
  unfold concludeInboundFailure claimInboundTerminal
  cases w.shared.activeInboundLifecycles.get (linkId, id) <;> rfl

theorem outboundResources_foldl_concludeInboundFailure (linkId : Octets 16)
    (ids : List (Octets 32)) (w : LinkWork F) :
    (ids.foldl (fun w id => concludeInboundFailure linkId id conclusion w)
      w).active.outboundResources = w.active.outboundResources := by
  induction ids generalizing w with
  | nil => rfl
  | cons i ids ih =>
    rw [List.foldl_cons, ih]
    refine .trans ?_ (outbound_dropInboundLogical w.active i).1
    unfold concludeInboundFailure
    dsimp only
    split <;> rfl

/-- A loop of failures takes out the lifecycles it names. -/
theorem get_foldl_concludeInboundFailure (linkId : Octets 16) (id : Octets 32)
    (ids : List (Octets 32)) (w : LinkWork F) :
    (ids.foldl (fun w id => concludeInboundFailure linkId id conclusion w)
        w).shared.activeInboundLifecycles.get (linkId, id) =
      if id ∈ ids then none else w.shared.activeInboundLifecycles.get (linkId, id) := by
  induction ids generalizing w with
  | nil => simp
  | cons i ids ih =>
    rw [List.foldl_cons, ih, activeInboundLifecycles_concludeInboundFailure, get_erase]
    by_cases hi : id = i <;> by_cases hid : id ∈ ids <;> simp [hi, hid]

/-- A loop of conclusions closes what the stream shows open, if that is what it names. -/
theorem stands_foldl_concluded (linkId : Octets 16) (ids : List (Octets 32)) (hids : ids.Nodup)
    (shared : Shared)
    (hopen : ∀ id, Stands mark (linkId, .outbound, id) shared.accounting (id ∈ ids))
    (id : Octets 32) :
    Stands mark (linkId, .outbound, id)
      (ids.foldl (fun s id => s.emit (.concluded linkId id .outbound conclusion)) shared).accounting
      False := by
  induction ids generalizing shared with
  | nil => exact (hopen id).congr (by simp) rfl
  | cons i ids ih =>
    obtain ⟨hi, hids⟩ := List.nodup_cons.mp hids
    refine ih hids (shared.emit (.concluded linkId i .outbound conclusion)) fun j => ?_
    by_cases hj : j = i
    · subst hj
      exact (hopen j).closes (List.mem_cons_self ..) hi (mark_of_entry rfl)
    · refine (hopen j).append (by simp [hj]) fun e he => ?_
      rw [List.mem_singleton.mp he]
      exact mark_of_ne rfl (by simpa using Ne.symm hj)

/-- The conclusions of outbound resources are apart from everything else. -/
theorem shared_foldl_concluded (linkId : Octets 16) (ids : List (Octets 32)) (shared : Shared) :
    (ids.foldl (fun s id => s.emit (.concluded linkId id .outbound conclusion))
        shared).activeInboundLifecycles = shared.activeInboundLifecycles ∧
      ∀ k : ResourceKey, k.1 ≠ linkId ∨ k.2.1 = .inbound →
        (ids.foldl (fun s id => s.emit (.concluded linkId id .outbound conclusion)) shared).phase k =
          shared.phase k := by
  induction ids generalizing shared with
  | nil => exact ⟨rfl, fun _ _ => rfl⟩
  | cons i ids ih =>
    obtain ⟨hls, hphase⟩ := ih (shared.emit (.concluded linkId i .outbound conclusion))
    refine ⟨hls, fun k hk => (hphase k hk).trans (phase_append_of_unmarked fun e he => ?_)⟩
    rw [List.mem_singleton.mp he]
    refine mark_of_ne rfl ?_
    rintro rfl
    simp at hk

/-- The closing of a link is not about a resource. -/
theorem work_emit_linkClosed (hw : LinkOk linkId w) (l : Octets 16) :
    Work linkId w { w with shared := w.shared.emit (.linkClosed l) } where
  apart :=
    { lifecycles := fun _ _ _ => rfl
      phases := fun _ _ => phase_append_of_unmarked fun e he => by
        rw [List.mem_singleton.mp he]
        rfl }
  ok :=
    { inbound := hw.inbound
      outbound := hw.outbound
      inboundAccount := fun id => (hw.inboundAccount id).append Iff.rfl fun e he => by
        rw [List.mem_singleton.mp he]
        rfl
      outboundAccount := fun id => (hw.outboundAccount id).append Iff.rfl fun e he => by
        rw [List.mem_singleton.mp he]
        rfl }

variable [AesCbc] [Hmac]

omit conclusion in
theorem Quiet.endSession (m : Moment) (linkId : Octets 16) (reason : CloseReason)
    (sendTeardown : Bool) (w : LinkWork F) :
    Quiet w (endSession m linkId reason sendTeardown w) := by
  unfold LinkManager.endSession
  split_ifs
  · dsimp only
    split
    · exact .stage m w _ _
    · exact .of_link w _ rfl rfl
  · exact .of_link w _ rfl rfl

omit conclusion in
theorem outboundResources_endSession (m : Moment) (linkId : Octets 16) (reason : CloseReason)
    (sendTeardown : Bool) (w : LinkWork F) :
    (endSession m linkId reason sendTeardown w).active.outboundResources =
      w.active.outboundResources := by
  unfold endSession
  split_ifs <;> rfl

omit conclusion in
theorem managerOk_closeActiveLinkInner (hs : ManagerOk s) (m : Moment) (linkId : Octets 16)
    (reason : CloseReason) (sendTeardown : Bool) :
    ManagerOk (s.closeActiveLinkInner m linkId reason sendTeardown) := by
  unfold closeActiveLinkInner
  cases ha : s.activeLinks.get linkId with
  | none => exact hs
  | some a =>
    dsimp only
    generalize hinbound : (s.shared.activeInboundLifecycles.keys.filterMap fun key =>
      if key.1 = linkId then some key.2 else none) = inboundIds
    generalize houtbound : (a.outboundResources.values.map fun t =>
      (outboundResourceIdentity t).1).dedup = outboundIds
    generalize LinkResourceConclusion.failed _ = failure
    have hquiet := Quiet.endSession m linkId reason sendTeardown { active := a, shared := s.shared }
    have hended := hquiet.work (hs.active linkId a ha)
    have hsending := outboundResources_endSession m linkId reason sendTeardown
      { active := a, shared := s.shared }
    generalize endSession m linkId reason sendTeardown
      { active := a, shared := s.shared } = w₁ at hquiet hended hsending ⊢
    have htold := hended.trans (work_emit_linkClosed hended.ok linkId)
    have hwork := htold.trans (Work.foldl (fun _ id hw => work_concludeInboundFailure hw id failure)
      htold.ok inboundIds)
    have hnone (id : Octets 32) := get_foldl_concludeInboundFailure failure linkId id inboundIds
      { w₁ with shared := w₁.shared.emit (.linkClosed linkId) }
    have hout := outboundResources_foldl_concludeInboundFailure failure linkId inboundIds
      { w₁ with shared := w₁.shared.emit (.linkClosed linkId) }
    generalize inboundIds.foldl (fun w id => concludeInboundFailure linkId id failure w)
      { w₁ with shared := w₁.shared.emit (.linkClosed linkId) } = w₂ at hwork hnone hout ⊢
    obtain ⟨hls, hphases⟩ := shared_foldl_concluded failure linkId outboundIds w₂.shared
    -- Every inbound resource of the link was named by the loop.
    have hnone (id : Octets 32) : w₂.shared.activeInboundLifecycles.get (linkId, id) = none := by
      refine (hnone id).trans (ite_eq_left_iff.mpr fun hid => ?_)
      refine (congrArg (get · _) hquiet.inbound.lifecycles).trans ?_
      refine Option.not_isSome_iff_eq_none.mp fun hopen => hid ?_
      rw [← hinbound, List.mem_filterMap]
      exact ⟨(linkId, id), mem_keys.mpr hopen, if_pos rfl⟩
    -- And so was every outbound one.
    have hopen (id : Octets 32) :
        Stands mark (linkId, .outbound, id) w₂.shared.accounting (id ∈ outboundIds) := by
      refine (hwork.ok.outboundAccount id).congr ?_ rfl
      rw [hout, ← houtbound, List.mem_dedup, List.mem_map]
      constructor
      · rintro ⟨t, ht, hid⟩
        obtain ⟨h, hh⟩ := mem_values.mp ht
        exact ⟨h, t, hsending ▸ hh, hid⟩
      · rintro ⟨h, t, ht, hid⟩
        exact ⟨t, mem_values.mpr ⟨h, hsending ▸ ht⟩, hid⟩
    have hapart : Apart linkId s.shared (outboundIds.foldl (fun s id =>
        s.emit (.concluded linkId id .outbound failure)) w₂.shared) :=
      hwork.apart.trans ⟨fun _ _ _ => by rw [hls], fun k hk => hphases k (.inl hk)⟩
    constructor
    · intro l b hb
      rw [get_erase] at hb
      split_ifs at hb with hne
      exact (hs.active l b hb).of_apart hapart hne
    · intro l hl
      by_cases heq : l = linkId
      · subst heq
        refine ⟨fun id => by rw [hls, hnone id], ?_⟩
        rintro ⟨_, direction, id⟩ rfl
        cases direction with
        | inbound =>
          refine (hphases _ (.inr rfl)).trans ((hwork.ok.inboundAccount id).closed ?_)
          rw [contains, hnone id]
          exact Bool.false_ne_true
        | outbound =>
          have hnodup : outboundIds.Nodup := houtbound ▸ List.nodup_dedup _
          exact (stands_foldl_concluded failure _ outboundIds hnodup w₂.shared hopen id).closed
            not_false
      · rw [get_erase, if_neg heq] at hl
        exact hs.gone_of_apart hapart hl heq

end Close

/-! ### Ticks and packets -/

section Events

theorem shared_flushQueue (m : Moment) (messages : List Bytes) (shared : Shared) :
    (flushQueue m messages shared).activeInboundLifecycles = shared.activeInboundLifecycles ∧
      (flushQueue m messages shared).accounting = shared.accounting := by
  induction messages generalizing shared with
  | nil => exact ⟨rfl, rfl⟩
  | cons message rest ih =>
    unfold flushQueue
    dsimp only
    split
    · exact ih _
    · exact ⟨rfl, rfl⟩
    · exact ⟨rfl, rfl⟩

variable [Binary64Bits F] [AesCbc] [Hmac]

theorem managerOk_tickActive {p : LinkManager F × List (Octets 16)} (hp : ManagerOk p.1) (m : Moment)
    (linkId : Octets 16) : ManagerOk (tickActive m p linkId).1 := by
  unfold tickActive
  cases ha : p.1.activeLinks.get linkId with
  | none => exact hp
  | some a =>
    have hwatched := work_watchResources (hp.active linkId a ha) m
    exact hp.work ha (hwatched.trans (work_tickLink hwatched.ok m))

theorem managerOk_onTick (hs : ManagerOk s) (m : Moment) : ManagerOk (s.onTick m) := by
  obtain ⟨hls, hlog⟩ := shared_flushQueue m s.shared.pendingLinkControl s.shared
  unfold onTick
  refine List.foldlRecOn _ _ ?_ fun s hs linkId _ =>
    managerOk_closeActiveLinkInner hs m linkId .timeout false
  exact List.foldlRecOn (motive := fun p : LinkManager F × List (Octets 16) => ManagerOk p.1) _ _
    (hs.of_shared hls hlog) fun p hp linkId _ => managerOk_tickActive hp m linkId

omit [Binary64Bits F] in
theorem work_withPlaintext {w : LinkWork F} (hw : LinkOk linkId w) (m : Moment) (data : Bytes)
    {f : Bytes → LinkWork F → LinkWork F}
    (hf : ∀ plaintext w, LinkOk linkId w → Work linkId w (f plaintext w)) :
    Work linkId w (withPlaintext m data f w) := by
  have hquiet := (Quiet.of_link w ((w.active.link.recordInbound m.now).recordRx data.length)
    rfl rfl).work hw
  unfold withPlaintext
  dsimp only
  split
  · exact hquiet
  · exact hquiet.trans (hf _ _ hquiet.ok)

theorem managerOk_handleAdvertisement (hs : ManagerOk s) (m : Moment) (linkId : Octets 16)
    (data : Bytes) : ManagerOk (s.handleAdvertisement m linkId data) := by
  unfold handleAdvertisement
  split
  · exact hs
  · have hclose (unreadable : Bool) {s : LinkManager F} (hwork : ManagerOk s) : ManagerOk
        (if unreadable then closeActiveLinkInner m linkId .destinationClosed true s else s) := by
      split_ifs
      · exact managerOk_closeActiveLinkInner hwork m linkId .destinationClosed true
      · exact hwork
    refine hclose _ (hs.withLink fun a _ hw => work_withPlaintext hw m data fun plaintext w hw => ?_)
    split
    · exact .refl hw
    · exact work_receiveAdvertisement hw m _

variable [Sha256] [Bzip2]

theorem managerOk_handleInboundPacket (hs : ManagerOk s) (m : Moment) (raw : Bytes)
    (interfaceId : ℕ) (interfaceOwner : Option ℕ) :
    ManagerOk (s.handleInboundPacket m raw interfaceId interfaceOwner) := by
  have hreceived (linkId : Octets 16) (data : Bytes) (a : ActiveLink F)
      (_ : s.activeLinks.get linkId = some a)
      (hw : LinkOk linkId { active := a, shared := s.shared }) :=
    (Quiet.of_link { active := a, shared := s.shared }
      ((a.link.recordInbound m.now).recordRx data.length) rfl rfl).work hw
  unfold handleInboundPacket
  split
  · exact hs
  · rename_i header dataOffset _
    dsimp only
    split
    · exact hs
    · split_ifs
      · exact hs
      · exact hs
      · split
        · exact managerOk_handleAdvertisement hs m _ _
        · refine hs.withLink fun a ha hw => ?_
          have hlink := hreceived _ (raw.drop dataOffset) a ha hw
          exact hlink.trans (work_receivePart hlink.ok m _)
        · refine hs.withLink fun a _ hw => work_withPlaintext hw m _ fun plaintext w hw => ?_
          split
          · exact .refl hw
          · exact work_receiveRequest hw m _ plaintext
        · exact hs.withLink fun a _ hw => work_withPlaintext hw m _ fun plaintext w hw =>
            work_receiveInitiatorCancel hw plaintext
        · exact hs.withLink fun a _ hw => work_withPlaintext hw m _ fun plaintext w hw =>
            work_receiveReceiverCancel hw plaintext
        · exact hs.withLink fun a _ hw => work_withPlaintext hw m _ fun plaintext w hw =>
            work_receiveHashmapUpdate hw m plaintext
        · refine hs.withLink fun a ha hw => ?_
          have hlink := hreceived _ (raw.drop dataOffset) a ha hw
          exact hlink.trans (work_receiveProof hlink.ok m _)
        · exact hs

/-! ### Runs -/

/-- The segments of a resource that the event starts have hashes that are not in use on the link. -/
def LinkManager.Distinct (s : LinkManager F) (e : Moment × ManagerEvent F) : Prop :=
  match e.2 with
  | .start linkId request => ∀ a ∈ s.activeLinks.get linkId,
      ∀ rs ∈ preparedSegments request a.link, DistinctSegments a rs
  | _ => True

omit [Binary64Bits F] in
instance (s : LinkManager F) (e : Moment × ManagerEvent F) : Decidable (s.Distinct e) := by
  unfold Distinct
  split <;> infer_instance

variable [Ed25519] [X25519] [Hkdf]

theorem managerOk_step (hs : ManagerOk s) (e : Moment × ManagerEvent F) (he : s.Distinct e) :
    ManagerOk (s.step e) := by
  obtain ⟨m, e⟩ := e
  cases e with
  | linkRequest link interfaceId owner => exact managerOk_acceptLink hs link interfaceId owner
  | linkCall linkId call =>
    have hcall : ManagerOk (s.withLink linkId fun w =>
        { w with active := { w.active with link := w.active.link.call call } }) :=
      hs.withLink fun a _ hw => (Quiet.of_link _ _ rfl rfl).work hw
    exact hcall
  | packet raw interfaceId owner => exact managerOk_handleInboundPacket hs m raw interfaceId owner
  | start linkId request =>
    exact hs.withLink fun a ha hw => work_startResourceTransferInner hw m request (he a ha)
  | cancel linkId resourceId direction =>
    exact hs.withLink fun a _ hw => work_cancelLinkResource hw m resourceId direction
  | complete linkId resourceHash =>
    exact hs.withLink fun a _ hw => work_completeResource hw resourceHash
  | setResourceStrategy strategy => exact hs.of_shared rfl rfl
  | setResourceAcceptHandler registered => exact hs.of_shared rfl rfl
  | setRequestHandler registered => exact hs.of_shared rfl rfl
  | setRequestHandlerEx registered => exact hs.of_shared rfl rfl
  | setDestinationRequestHandlers paths => exact hs.of_shared rfl rfl
  | close linkId reason sendTeardown =>
    exact managerOk_closeActiveLinkInner hs m linkId reason sendTeardown
  | tick => exact managerOk_onTick hs m

omit [Binary64Bits F] [AesCbc] [Hmac] [Sha256] [Bzip2] [Ed25519] [X25519] [Hkdf] in
theorem managerOk_new : ManagerOk (new : LinkManager F) where
  active _ _ ha := nomatch ha
  gone _ _ := ⟨fun _ => rfl, fun _ _ => rfl⟩

/-- After every run from a new manager, of packets with any content, calls, ticks and closes, in
which outbound resources have distinct hashes: the stream of each resource on a link alternates
between its start and its conclusion, with at most one completion in between and only while it is
open; nothing of a link that is not active is open; the transfers, the routes and the coordinators
of an active link belong to open lifecycles; and an open lifecycle is of an active link and has
exactly one segment in progress, or none and a deadline. -/
theorem resources_accounted_once (es : List (Moment × ManagerEvent F))
    (hes : Along (fun s e => some (s.step e)) Distinct new es) :
    let s := es.foldl step new
    (∀ k : ResourceKey, ∃ p, s.shared.phase k = some p) ∧
      (∀ k : ResourceKey, s.activeLinks.get k.1 = none → s.shared.phase k = some .closed) ∧
      (∀ linkId id, s.shared.activeInboundLifecycles.contains (linkId, id) ↔
        s.shared.phase (linkId, .inbound, id) = some .opened) ∧
      (∀ linkId a, s.activeLinks.get linkId = some a →
        (∀ h, a.inboundResources.contains h → s.shared.activeInboundLifecycles.contains
          (linkId, (inboundResourceIdentity a h).1)) ∧
        (∀ h route, a.segmentRouting.get h = some route →
          s.shared.activeInboundLifecycles.contains (linkId, route.originalHash)) ∧
        ∀ id, a.inboundSplitResources.contains id →
          s.shared.activeInboundLifecycles.contains (linkId, id)) ∧
      ∀ linkId id l, s.shared.activeInboundLifecycles.get (linkId, id) = some l →
        ∃ a, s.activeLinks.get linkId = some a ∧
          ((∃! h, a.inboundResources.contains h ∧ (inboundResourceIdentity a h).1 = id) ∧
              l.interSegmentDeadline = none ∨
            (∀ h, a.inboundResources.contains h → (inboundResourceIdentity a h).1 ≠ id) ∧
              ∃ deadline, l.interSegmentDeadline = some deadline) := by
  intro s
  have hs : ManagerOk s :=
    foldl_invariant_along (fun _ e hs he => managerOk_step hs e he) managerOk_new hes
  refine ⟨hs.exists_phase, fun k hk => (hs.gone k.1 hk).2 k rfl, hs.contains_iff_opened, ?_, ?_⟩
  · intro linkId a ha
    have hin := (hs.active linkId a ha).inbound
    have hsegment (h : Octets 32) (hh : a.inboundResources.contains h) :
        s.shared.activeInboundLifecycles.contains (linkId, resourceOf a h) := by
      obtain ⟨l, hl, -⟩ := hin.segment h hh
      exact contains_iff.mpr ⟨l, hl⟩
    refine ⟨fun h hh => ?_, fun h route hroute => ?_, hin.coordinator⟩
    · rw [inboundResourceIdentity_fst]
      exact hsegment h hh
    · rw [← resourceOf_of_route hroute]
      exact hsegment h (hin.route h route hroute)
  · intro linkId id l hl
    cases ha : s.activeLinks.get linkId with
    | none => cases ((hs.gone linkId ha).1 id).symm.trans hl
    | some a =>
      refine ⟨a, rfl, ?_⟩
      simp only [inboundResourceIdentity_fst]
      have hin := (hs.active linkId a ha).inbound
      have hcurrent (h : Octets 32) (hh : a.inboundResources.contains h) (hid : resourceOf a h = id) :
          l.currentSegment = some h := by
        obtain ⟨l', hl', hcurrent⟩ := hin.segment h hh
        rw [hid] at hl'
        obtain rfl := Option.some.inj (hl.symm.trans hl')
        exact hcurrent
      rcases hin.lifecycle id l hl with ⟨h, hh, hin, hid, hdeadline⟩ | ⟨hidle, hdeadline⟩
      · refine .inl ⟨⟨h, ⟨hin, hid⟩, fun h' hh' => ?_⟩, hdeadline⟩
        exact Option.some.inj ((hcurrent h' hh'.1 hh'.2).symm.trans hh)
      · refine .inr ⟨fun h hh hid => ?_, Option.isSome_iff_exists.mp hdeadline⟩
        cases hidle.symm.trans (hcurrent h hh hid)

end Events

/-! ### A resource that ends with its link

Three bytes that are sent over the link of the session, under tags and initialisation vectors of
zeros. The functions below have the values of the real primitives on the inputs of that resource; its
payload is not compressed. -/

/-- The hash of the resource. -/
private def managedHash : Octets 32 :=
  .ofNat 0x33039fca04699df0cbf328f37d8fd61eeac2612d2d2cddb89d4c6fc4a4a1a3de

@[reducible] private def managedSha256 : Sha256 where
  digest x := match x.length with
    | 7 => managedHash
    | 35 => .ofNat 0xbe22a57be88388bf1081ba5977e653dee45ccfa8dc3ccab987072cc13a44b8a6
    | 68 => .ofNat 0xd939a021f1af61c17aa08be51a9496ee765e00ea75a08539dfdfab8abe5521f8
    | _ => sessionSha256.digest x

@[reducible] private def managedAesCbc : AesCbc where
  encrypt _ _ n _ := Octets.read n (if n = 16 then
      [142, 71, 80, 12, 36, 40, 141, 41, 168, 77, 135, 67, 130, 53, 70, 211]
    else
      [44, 205, 244, 224, 150, 90, 33, 152, 227, 64, 113, 216, 185, 71, 174, 196, 109, 41, 209,
      34, 0, 10, 133, 187, 241, 165, 117, 48, 224, 204, 241, 212, 193, 61, 10, 30, 54, 174, 245,
      134, 158, 192, 156, 118, 99, 184, 112, 0, 226, 201, 242, 163, 130, 199, 34, 158, 250, 200,
      34, 204, 166, 122, 189, 236, 176, 142, 102, 114, 246, 119, 122, 60, 178, 1, 52, 241, 13, 55,
      95, 220, 237, 197, 91, 46, 54, 248, 231, 166, 195, 144, 247, 59, 15, 186, 58, 211, 235, 132,
      188, 165, 205, 222, 10, 55, 227, 252, 198, 217, 118, 103, 78, 114])
  decrypt _ _ _ x := x

@[reducible] private def managedHmac : Hmac where
  mac _ x := if x.length = 32 then
      .ofNat 0x740a85266bac89e6525d0aba734476f1c7148529c94919acc3b5016aad5cc812
    else
      .ofNat 0xb19e0005c2ac165075ff9f2b98e69355b2c5eba785e65eb5d9f1256942274ac3

@[reducible] private def managedBzip2 : Bzip2 where
  compress _ := none
  decoder x := (x, true)

/-- A moment at which every packet is taken. -/
private def managedMoment : Moment where
  now := 0
  iv _ := Octets.replicate 16 0
  trySend _ := .ok
  accepted := true
  ownsEndpoint _ := true
  channelExhausted _ := false

/-- A link, the resource that is sent over it, and the end of the link. -/
private def managedRun (link : LinkSession ℚ) : List (Moment × ManagerEvent ℚ) :=
  [(managedMoment, .linkRequest link 0 none),
    (managedMoment, .start link.linkId
      { data := [1, 2, 3]
        metadata := none
        autoCompress := false
        requestId := none
        isResponse := false
        allowHandshake := true
        randomHash := Octets.replicate 4 0
        tag := fun _ _ => Octets.replicate 4 0
        iv := fun _ _ => Octets.replicate 16 0 }),
    (managedMoment, .close link.linkId .timeout false)]

attribute [local instance] sessionBinary64 managedSha256 sessionEd25519 sessionX25519 sessionHkdf
  managedAesCbc managedHmac managedBzip2

/-- The resource is started, and concluded when the link is closed. -/
theorem resources_accounted_once_at_close :
    ∃ (link : LinkSession ℚ) (proofData : Bytes), sessionResponder = .ok (link, proofData) ∧
      ((managedRun link).foldl step .new).shared.accounting =
        [.started link.linkId managedHash .outbound 3 1, .linkClosed link.linkId,
          .concluded link.linkId managedHash .outbound (.failed "link closed: Timeout")] ∧
      ∀ k : ResourceKey, ((managedRun link).foldl step .new).activeLinks.get k.1 = none →
        ((managedRun link).foldl step .new).shared.phase k = some .closed := by
  obtain ⟨link, proofData, h, hcheck⟩ := exists_ok_of_any (x := sessionResponder)
    (p := fun link => Along (fun s e => some (s.step e)) Distinct .new (managedRun link) ∧
        ((managedRun link).foldl step .new).shared.accounting =
          [.started link.linkId managedHash .outbound 3 1, .linkClosed link.linkId,
            .concluded link.linkId managedHash .outbound (.failed "link closed: Timeout")])
    (by decide +kernel)
  exact ⟨link, proofData, h, hcheck.2, (resources_accounted_once _ hcheck.1).2.1⟩

end Reticulum.Manager
