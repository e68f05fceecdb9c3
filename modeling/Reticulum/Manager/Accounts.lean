import Reticulum.Foundation.Phases
import Reticulum.Manager.Shapes

/-!
# Accounting of resources on one link

The accounting stream is read for one resource at a time: it starts, its payload may be delivered,
and it is concluded. What a handler does on a link keeps the tables of the link together, shows a
resource open in the stream exactly when a table of the link owns it, and does not touch what belongs
to other links.
-/

namespace Reticulum.Manager

open Wire Resource AccountingEvent Table

/-! ### The stream and the tables -/

/-- A resource on a link, in one direction. -/
abbrev ResourceKey : Type := Octets 16 × LinkResourceDirection × Octets 32

/-- The resource that an event is about, and what it says. -/
def AccountingEvent.entry : AccountingEvent → Option (ResourceKey × Mark)
  | .started linkId resourceId direction _ _ => some ((linkId, direction, resourceId), .opened)
  | .concluded linkId resourceId direction _ => some ((linkId, direction, resourceId), .closed)
  | .resourceCompletion linkId resourceHash _ _ => some ((linkId, .inbound, resourceHash), .noted)
  | .linkClosed _ => none

/-- What an event says about a resource. -/
def AccountingEvent.mark (k : ResourceKey) (e : AccountingEvent) : Option Mark :=
  match e.entry with
  | some (k', m) => if k' = k then some m else none
  | none => none

variable {F : Type} {linkId : Octets 16} {w w' w'' : LinkWork F} {id h : Octets 32}
  {s s' s'' : Shared} {k k' : ResourceKey} {e : AccountingEvent} {mk : Mark}

theorem AccountingEvent.mark_of_entry (he : e.entry = some (k, mk)) : e.mark k = some mk := by
  simp [mark, he]

theorem AccountingEvent.mark_of_ne (he : e.entry = some (k', mk)) (hne : k' ≠ k) :
    e.mark k = none := by
  simp [mark, he, hne]

/-- What the accounting stream shows a resource to be. -/
def Shared.phase (s : Shared) (k : ResourceKey) : Option Phase :=
  Reticulum.phase mark k s.accounting

/-- The invariant of a link: its tables belong together, and the stream shows open what they own. -/
structure LinkOk (linkId : Octets 16) (w : LinkWork F) : Prop where
  inbound : InboundShape linkId w.active w.shared.activeInboundLifecycles
  outbound : OutboundShape w.active.outboundResources.get w.active.outboundSplitQueues.get
  inboundAccount : ∀ id, Stands mark (linkId, .inbound, id) w.shared.accounting
    (w.shared.activeInboundLifecycles.contains (linkId, id) = true)
  outboundAccount : ∀ id, Stands mark (linkId, .outbound, id) w.shared.accounting
    (∃ h t, w.active.outboundResources.get h = some t ∧ resourceSent t = id)

/-- What belongs to other links is left alone. -/
structure Apart (linkId : Octets 16) (s s' : Shared) : Prop where
  lifecycles : ∀ l id, l ≠ linkId →
    s'.activeInboundLifecycles.get (l, id) = s.activeInboundLifecycles.get (l, id)
  phases : ∀ k : ResourceKey, k.1 ≠ linkId → s'.phase k = s.phase k

namespace Apart

theorem refl (linkId : Octets 16) (s : Shared) : Apart linkId s s :=
  ⟨fun _ _ _ => rfl, fun _ _ => rfl⟩

theorem trans (h : Apart linkId s s') (h' : Apart linkId s' s'') : Apart linkId s s'' where
  lifecycles l id hl := (h'.lifecycles l id hl).trans (h.lifecycles l id hl)
  phases k hk := (h'.phases k hk).trans (h.phases k hk)

end Apart

/-- Events about one resource. -/
def About (k : ResourceKey) (es : List AccountingEvent) : Prop :=
  ∀ e ∈ es, ∃ mk, e.entry = some (k, mk)

theorem About.nil (k : ResourceKey) : About k [] := by simp [About]

theorem About.single (he : e.entry = some (k, mk)) : About k [e] := by
  simp [About, he]

variable {es : List AccountingEvent}

theorem About.unmarked (hes : About k es) (hne : k ≠ k') :
    ∀ e ∈ es, e.mark k' = none := fun e he =>
  let ⟨_, hentry⟩ := hes e he
  mark_of_ne hentry hne

theorem About.apart (hes : About k es) (hk : k.1 = linkId)
    (hls : ∀ l id, l ≠ linkId →
      s'.activeInboundLifecycles.get (l, id) = s.activeInboundLifecycles.get (l, id))
    (hlog : s'.accounting = s.accounting ++ es) : Apart linkId s s' where
  lifecycles := hls
  phases k' hk' := by
    rw [Shared.phase, hlog]
    refine phase_append_of_unmarked (hes.unmarked ?_)
    rintro rfl
    exact hk' hk

/-- Work on a link that keeps its invariant. -/
structure Work (linkId : Octets 16) (w w' : LinkWork F) : Prop where
  apart : Apart linkId w.shared w'.shared
  ok : LinkOk linkId w'

namespace Work

theorem refl (hw : LinkOk linkId w) : Work linkId w w := ⟨.refl linkId _, hw⟩

theorem trans (hwork : Work linkId w w') (hwork' : Work linkId w' w'') : Work linkId w w'' :=
  ⟨hwork.apart.trans hwork'.apart, hwork'.ok⟩

/-- A loop of work. -/
theorem foldl {α : Type*} {f : LinkWork F → α → LinkWork F}
    (hf : ∀ w a, LinkOk linkId w → Work linkId w (f w a)) (hw : LinkOk linkId w) (l : List α) :
    Work linkId w (l.foldl f w) := by
  induction l generalizing w with
  | nil => exact .refl hw
  | cons a l ih => exact (hf w a hw).trans (ih (hf w a hw).ok)

end Work

/-! ### Quiet work -/

/-- The tables of inbound resources are the same, up to what transfers and coordinators hold. -/
structure SameInbound (w w' : LinkWork F) : Prop where
  segments : ∀ h, w'.active.inboundResources.contains h = w.active.inboundResources.contains h
  routing : w'.active.segmentRouting = w.active.segmentRouting
  coordinators : ∀ id,
    w'.active.inboundSplitResources.contains id = w.active.inboundSplitResources.contains id
  lifecycles : w'.shared.activeInboundLifecycles = w.shared.activeInboundLifecycles

/-- The tables of outbound resources are the same, up to what transfers hold. -/
structure SameOutbound (w w' : LinkWork F) : Prop where
  sending : ∀ h, (w'.active.outboundResources.get h).map outboundName =
    (w.active.outboundResources.get h).map outboundName
  queues : w'.active.outboundSplitQueues = w.active.outboundSplitQueues

/-- Work that is not accounted for. -/
structure Quiet (w w' : LinkWork F) : Prop where
  inbound : SameInbound w w'
  outbound : SameOutbound w w'
  accounting : w'.shared.accounting = w.shared.accounting

theorem SameInbound.trans (hsame : SameInbound w w') (hsame' : SameInbound w' w'') :
    SameInbound w w'' where
  segments h := (hsame'.segments h).trans (hsame.segments h)
  routing := hsame'.routing.trans hsame.routing
  coordinators id := (hsame'.coordinators id).trans (hsame.coordinators id)
  lifecycles := hsame'.lifecycles.trans hsame.lifecycles

theorem SameOutbound.trans (hsame : SameOutbound w w') (hsame' : SameOutbound w' w'') :
    SameOutbound w w'' where
  sending h := (hsame'.sending h).trans (hsame.sending h)
  queues := hsame'.queues.trans hsame.queues

theorem SameInbound.shape (hsame : SameInbound w w')
    (hshape : InboundShape linkId w.active w.shared.activeInboundLifecycles) :
    InboundShape linkId w'.active w'.shared.activeInboundLifecycles :=
  hshape.congr hsame.segments hsame.routing hsame.coordinators fun _ => by rw [hsame.lifecycles]

theorem SameOutbound.shape (hsame : SameOutbound w w')
    (hshape : OutboundShape w.active.outboundResources.get w.active.outboundSplitQueues.get) :
    OutboundShape w'.active.outboundResources.get w'.active.outboundSplitQueues.get := by
  rw [hsame.queues]
  exact hshape.congr hsame.sending

theorem SameOutbound.exists_iff (hsame : SameOutbound w w') :
    (∃ h t, w'.active.outboundResources.get h = some t ∧ resourceSent t = id) ↔
      ∃ h t, w.active.outboundResources.get h = some t ∧ resourceSent t = id := by
  have hmap {w w' : LinkWork F} (hsame : ∀ h, (w'.active.outboundResources.get h).map outboundName =
      (w.active.outboundResources.get h).map outboundName) :
      (∃ h t, w.active.outboundResources.get h = some t ∧ resourceSent t = id) →
        ∃ h t, w'.active.outboundResources.get h = some t ∧ resourceSent t = id := by
    rintro ⟨h, t, ht, hid⟩
    have hname := hsame h
    rw [ht] at hname
    obtain ⟨t', ht', heq⟩ := Option.map_eq_some_iff.mp hname
    exact ⟨h, t', ht', (resourceSent_of_name heq).trans hid⟩
  exact ⟨hmap fun h => (hsame.sending h).symm, hmap hsame.sending⟩

namespace Quiet

theorem trans (hquiet : Quiet w w') (hquiet' : Quiet w' w'') : Quiet w w'' where
  inbound := hquiet.inbound.trans hquiet'.inbound
  outbound := hquiet.outbound.trans hquiet'.outbound
  accounting := hquiet'.accounting.trans hquiet.accounting

variable (w)

/-- Changes to the session and to what is not accounted for. -/
theorem of_link (link : LinkSession F)
    (hls : s.activeInboundLifecycles = w.shared.activeInboundLifecycles)
    (hlog : s.accounting = w.shared.accounting) :
    Quiet w { active := { w.active with link }, shared := s } :=
  ⟨⟨fun _ => rfl, rfl, fun _ => rfl, hls⟩, ⟨fun _ => rfl, rfl⟩, hlog⟩

theorem of_shared (hls : s.activeInboundLifecycles = w.shared.activeInboundLifecycles)
    (hlog : s.accounting = w.shared.accounting) : Quiet w { w with shared := s } :=
  of_link w w.active.link hls hlog

theorem refl : Quiet w w := of_shared w rfl rfl

/-- Changes to what inbound transfers hold. -/
theorem of_transfers {transfers : Table (Octets 32) (InboundTransfer F)}
    (hcontains : ∀ h, transfers.contains h = w.active.inboundResources.contains h) :
    Quiet w { w with active := { w.active with inboundResources := transfers } } :=
  ⟨⟨hcontains, rfl, fun _ => rfl, rfl⟩, ⟨fun _ => rfl, rfl⟩, rfl⟩

/-- Changes to what outbound transfers hold. -/
theorem of_outbound {transfers : Table (Octets 32) OutboundTransfer}
    (hnames : ∀ h, (transfers.get h).map outboundName =
      (w.active.outboundResources.get h).map outboundName) :
    Quiet w { w with active := { w.active with outboundResources := transfers } } :=
  ⟨⟨fun _ => rfl, rfl, fun _ => rfl, rfl⟩, ⟨hnames, rfl⟩, rfl⟩

variable {w}

theorem work (hquiet : Quiet w w') (hw : LinkOk linkId w) : Work linkId w w' where
  apart :=
    { lifecycles := fun _ _ _ => by rw [hquiet.inbound.lifecycles]
      phases := fun _ _ => by rw [Shared.phase, hquiet.accounting, Shared.phase] }
  ok :=
    { inbound := hquiet.inbound.shape hw.inbound
      outbound := hquiet.outbound.shape hw.outbound
      inboundAccount := fun id => (hw.inboundAccount id).congr
        (by rw [hquiet.inbound.lifecycles]) (by rw [hquiet.accounting])
      outboundAccount := fun id => (hw.outboundAccount id).congr hquiet.outbound.exists_iff
        (by rw [hquiet.accounting]) }

theorem modify_transfer (w : LinkWork F) (h : Octets 32) (f : InboundTransfer F → InboundTransfer F) :
    Quiet w { w with active := { w.active with
      inboundResources := w.active.inboundResources.modify h f } } :=
  of_transfers w fun _ => contains_modify

theorem modify_outbound {t t' : OutboundTransfer} (w : LinkWork F)
    (ht : w.active.outboundResources.get h = some t) (hsame : t.SameResource t') :
    Quiet w { w with active := { w.active with
      outboundResources := w.active.outboundResources.modify h fun _ => t' } } := by
  refine of_outbound w fun h' => ?_
  rw [get_modify]
  split_ifs with heq
  · rw [heq, ht, Option.map_some, Option.map_some, Option.map_some,
      OutboundTransfer.SameResource.name hsame]
  · rfl

variable (m : Moment)

theorem stage (w : LinkWork F) (message : Bytes) (link : LinkSession F) :
    Quiet w
      { active := { w.active with link }, shared := (stageLinkControl m w.shared message).1 } := by
  refine of_link w link ?_ ?_
  all_goals
    unfold stageLinkControl
    dsimp only
    split_ifs
    · split <;> rfl
    · rfl
    · rfl

variable [AesCbc] [Hmac]

theorem emitFrame (linkId : Octets 16) (w : LinkWork F) (context : PacketContext)
    (payload : Bytes) (encrypted : Bool) (packetType : PacketType) :
    Quiet w (Manager.emitFrame m linkId w context payload encrypted packetType).1 := by
  unfold Manager.emitFrame
  split
  · exact refl w
  · split
    · exact refl w
    · dsimp only
      split_ifs
      · exact stage m w _ _
      · exact stage m w _ w.active.link

theorem send (linkId : Octets 16) (w : LinkWork F) (action : TransferAction) :
    Quiet w (sendResourceAction m linkId w action).1 := by
  unfold sendResourceAction
  split
  · exact refl w
  · exact emitFrame ..

theorem sendActions (linkId : Octets 16) (actions : List TransferAction)
    (w : LinkWork F) : Quiet w (sendResourceActions m linkId actions w) := by
  induction actions generalizing w with
  | nil => exact refl w
  | cons action rest ih =>
    have hsend := send m linkId w action
    unfold sendResourceActions
    split
    · simpa only [*] using hsend
    · refine .trans ?_ (ih _)
      simpa only [*] using hsend

end Quiet

/-! ### Work on one resource -/

section

variable (hw : LinkOk linkId w)

include hw

/-- Work that changes the standing of one inbound resource. -/
theorem LinkOk.account_inbound (es : List AccountingEvent)
    (hes : About (linkId, .inbound, id) es)
    (hls : ∀ key, key ≠ (linkId, id) →
      w'.shared.activeInboundLifecycles.get key = w.shared.activeInboundLifecycles.get key)
    (hlog : w'.shared.accounting = w.shared.accounting ++ es) (hsame : SameOutbound w w')
    (hshape : InboundShape linkId w'.active w'.shared.activeInboundLifecycles)
    (hstands : Stands mark (linkId, .inbound, id) w'.shared.accounting
      (w'.shared.activeInboundLifecycles.contains (linkId, id) = true)) : Work linkId w w' where
  apart := hes.apart rfl (fun l i hl => hls _ fun heq => hl (Prod.mk.inj heq).1) hlog
  ok := by
    refine ⟨hshape, hsame.shape hw.outbound, fun i => ?_, fun i => ?_⟩
    · by_cases heq : i = id
      · exact heq ▸ hstands
      · have hne : ((linkId, .inbound, id) : ResourceKey) ≠ (linkId, .inbound, i) := by
          simpa using Ne.symm heq
        rw [hlog]
        refine (hw.inboundAccount i).append ?_ (hes.unmarked hne)
        rw [contains, hls _ fun heq' => heq (Prod.mk.inj heq').2, contains]
    · rw [hlog]
      exact (hw.outboundAccount i).append hsame.exists_iff (hes.unmarked (by simp))

/-- Work that changes the standing of one outbound resource. -/
theorem LinkOk.account_outbound (es : List AccountingEvent)
    (hes : About (linkId, .outbound, id) es) (hsame : SameInbound w w')
    (hlog : w'.shared.accounting = w.shared.accounting ++ es)
    (hshape : OutboundShape w'.active.outboundResources.get w'.active.outboundSplitQueues.get)
    (hothers : ∀ i, i ≠ id →
      ((∃ h t, w'.active.outboundResources.get h = some t ∧ resourceSent t = i) ↔
        ∃ h t, w.active.outboundResources.get h = some t ∧ resourceSent t = i))
    (hstands : Stands mark (linkId, .outbound, id) w'.shared.accounting
      (∃ h t, w'.active.outboundResources.get h = some t ∧ resourceSent t = id)) :
    Work linkId w w' where
  apart := hes.apart rfl (fun _ _ _ => by rw [hsame.lifecycles]) hlog
  ok := by
    refine ⟨hsame.shape hw.inbound, hshape, fun i => ?_, fun i => ?_⟩
    · rw [hlog]
      refine (hw.inboundAccount i).append ?_ (hes.unmarked (by simp))
      rw [hsame.lifecycles]
    · by_cases heq : i = id
      · exact heq ▸ hstands
      · have hne : ((linkId, .outbound, id) : ResourceKey) ≠ (linkId, .outbound, i) := by
          simpa using Ne.symm heq
        rw [hlog]
        exact (hw.outboundAccount i).append (hothers i heq) (hes.unmarked hne)

/-! ### The end of an inbound resource -/

/-- A resource is dropped with its lifecycle, and the stream shows it closed. -/
theorem LinkOk.retire (es : List AccountingEvent) (hes : About (linkId, .inbound, id) es)
    (hls : s.activeInboundLifecycles = w.shared.activeInboundLifecycles.erase (linkId, id))
    (hlog : s.accounting = w.shared.accounting ++ es)
    (hclosed : Stands mark (linkId, .inbound, id) s.accounting False) :
    Work linkId w { active := dropInboundLogical w.active id, shared := s } := by
  obtain ⟨hsending, hqueues⟩ := outbound_dropInboundLogical w.active id
  refine hw.account_inbound es hes (fun key hne => ?_) hlog ⟨fun h => ?_, hqueues⟩ ?_ ?_
  · simp only [hls, get_erase, if_neg hne]
  · rw [hsending]
  · rw [hls]
    exact hw.inbound.drop id
  · exact hclosed.congr (by simp [hls, contains_erase]) rfl

/-- The stream shows a resource without a lifecycle closed. -/
theorem LinkOk.stands_of_none (hnone : w.shared.activeInboundLifecycles.get (linkId, id) = none) :
    Stands mark (linkId, .inbound, id) w.shared.accounting False :=
  (hw.inboundAccount id).congr (by simp [contains, hnone]) rfl

theorem work_concludeInboundFailure (id : Octets 32) (conclusion : LinkResourceConclusion) :
    Work linkId w (concludeInboundFailure linkId id conclusion w) := by
  unfold concludeInboundFailure claimInboundTerminal
  cases hl : w.shared.activeInboundLifecycles.get (linkId, id) with
  | none =>
    exact hw.retire [] (.nil _) rfl (List.append_nil _).symm (hw.stands_of_none hl)
  | some l =>
    refine hw.retire [_] (.single rfl) rfl rfl ?_
    exact (hw.inboundAccount id).closes (contains_iff.mpr ⟨l, hl⟩) not_false
      (mark_of_entry rfl)

theorem work_concludeInboundComplete (id : Octets 32) (data : Bytes) (metadata : Option Bytes) :
    Work linkId w (concludeInboundComplete linkId id data metadata w) := by
  unfold concludeInboundComplete claimInboundTerminal
  cases hl : w.shared.activeInboundLifecycles.get (linkId, id) with
  | none =>
    exact hw.retire [] (.nil _) rfl (List.append_nil _).symm (hw.stands_of_none hl)
  | some l =>
    have hopen := contains_iff.mpr ⟨l, hl⟩
    dsimp only
    split_ifs
    · refine hw.retire [_] (.single rfl) rfl rfl ?_
      exact (hw.inboundAccount id).closes hopen not_false (mark_of_entry rfl)
    · refine hw.retire [_, _] (by simp [About, entry]) rfl (List.append_assoc ..) ?_
      rw [Shared.emit, Shared.emit, List.append_assoc]
      exact (hw.inboundAccount id).noted_closes hopen not_false (mark_of_entry rfl)
        (mark_of_entry rfl)

theorem work_deliverResource (id : Octets 32) (data : Bytes)
    (metadata : Option Bytes) : Work linkId w (deliverResource linkId id data metadata w) := by
  have hwork := work_concludeInboundComplete hw id data metadata
  unfold deliverResource
  dsimp only
  split_ifs
  · refine hwork.trans (Quiet.work ?_ hwork.ok)
    exact .of_shared _ rfl rfl
  · exact hwork

end

end Reticulum.Manager
