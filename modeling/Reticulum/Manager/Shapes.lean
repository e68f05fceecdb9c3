import Reticulum.Manager.Handlers

/-!
# How the tables of a link belong together

The four tables of inbound resources are keyed by hashes that the peer chooses, of segments and of
whole resources. They belong together when every segment in progress is the current segment of an
open lifecycle, and every open lifecycle has a current segment or waits for its next one until a
deadline. The tables of outbound resources belong together when no two transfers are of one resource,
and the queued segments of a resource follow a transfer of the same resource. Both are invariants of
what handlers do to the tables, whatever hashes the peer repeats.
-/

namespace Reticulum.Manager

open Wire Resource Option Function List Table

variable {F : Type}

/-! ### Inbound resources -/

/-- The resource of a segment. -/
def resourceOf (a : ActiveLink F) (h : Octets 32) : Octets 32 :=
  ((a.segmentRouting.get h).map SegmentRoute.originalHash).getD h

theorem inboundResourceIdentity_fst (a : ActiveLink F) (h : Octets 32) :
    (inboundResourceIdentity a h).1 = resourceOf a h := by
  unfold inboundResourceIdentity resourceOf
  cases a.segmentRouting.get h <;> rfl

variable {h : Octets 32}

theorem resourceOf_of_route {a : ActiveLink F} {route : SegmentRoute}
    (hroute : a.segmentRouting.get h = some route) : resourceOf a h = route.originalHash := by
  rw [resourceOf, hroute]
  rfl

theorem resourceOf_congr {a a' : ActiveLink F}
    (hroute : a'.segmentRouting.get h = a.segmentRouting.get h) : resourceOf a' h = resourceOf a h := by
  rw [resourceOf, hroute, resourceOf]

/-- A table of lifecycles. -/
abbrev Lifecycles : Type := Table (Octets 16 × Octets 32) InboundResourceLifecycle

/-- The tables of inbound resources belong together. -/
structure InboundShape (linkId : Octets 16) (a : ActiveLink F) (ls : Lifecycles) : Prop where
  /-- A segment in progress is the current one of its resource. -/
  segment : ∀ h, a.inboundResources.contains h →
    ∃ l, ls.get (linkId, resourceOf a h) = some l ∧ l.currentSegment = some h
  /-- Only segments in progress are routed. -/
  route : ∀ h route, a.segmentRouting.get h = some route → a.inboundResources.contains h
  /-- Only open resources have coordinators. -/
  coordinator : ∀ id, a.inboundSplitResources.contains id → ls.contains (linkId, id)
  /-- An open resource has a current segment, or a deadline. -/
  lifecycle : ∀ id l, ls.get (linkId, id) = some l →
    (∃ h, l.currentSegment = some h ∧ a.inboundResources.contains h ∧ resourceOf a h = id ∧
        l.interSegmentDeadline = none) ∨
      l.currentSegment = none ∧ l.interSegmentDeadline.isSome

theorem foldl_dropSegment (hs : List (Octets 32)) (a : ActiveLink F) :
    (hs.foldl dropSegment a).segmentRouting = a.segmentRouting ∧
      (hs.foldl dropSegment a).inboundSplitResources = a.inboundSplitResources ∧
      (hs.foldl dropSegment a).outboundResources = a.outboundResources ∧
      (hs.foldl dropSegment a).outboundSplitQueues = a.outboundSplitQueues ∧
      ∀ h, (hs.foldl dropSegment a).inboundResources.contains h ↔
        a.inboundResources.contains h ∧ h ∉ hs := by
  induction hs generalizing a with
  | nil => simp
  | cons h' hs ih =>
    obtain ⟨hroute, hsplit, hout, hqueues, hcontains⟩ := ih (dropSegment a h')
    refine ⟨hroute, hsplit, hout, hqueues, fun h => (hcontains h).trans ?_⟩
    have herase : (dropSegment a h').inboundResources.contains h ↔
        h ≠ h' ∧ a.inboundResources.contains h := by
      simp [dropSegment, contains_erase]
    rw [herase, mem_cons, not_or]
    tauto

section Drop

variable (a : ActiveLink F) (id : Octets 32)

theorem contains_dropInboundLogical :
    (dropInboundLogical a id).inboundResources.contains h ↔
      a.inboundResources.contains h ∧ resourceOf a h ≠ id := by
  refine ((foldl_dropSegment _ a).2.2.2.2 h).trans ?_
  rw [mem_filter, Table.mem_keys, inboundResourceIdentity_fst, decide_eq_true_iff]
  tauto

theorem segmentRouting_dropInboundLogical :
    (dropInboundLogical a id).segmentRouting.get h =
      (a.segmentRouting.get h).filter fun route => route.originalHash ≠ id := by
  unfold dropInboundLogical
  rw [get_retain, (foldl_dropSegment _ a).1]

theorem inboundSplitResources_dropInboundLogical {i : Octets 32} :
    (dropInboundLogical a id).inboundSplitResources.contains i ↔
      i ≠ id ∧ a.inboundSplitResources.contains i := by
  simp only [dropInboundLogical, (foldl_dropSegment _ a).2.1, contains_erase,
    Bool.and_eq_true, decide_eq_true_iff]

theorem outbound_dropInboundLogical :
    (dropInboundLogical a id).outboundResources = a.outboundResources ∧
      (dropInboundLogical a id).outboundSplitQueues = a.outboundSplitQueues :=
  ⟨(foldl_dropSegment _ a).2.2.1, (foldl_dropSegment _ a).2.2.2.1⟩

/-- The segments of other resources keep their resources. -/
theorem resourceOf_dropInboundLogical (hne : resourceOf a h ≠ id) :
    resourceOf (dropInboundLogical a id) h = resourceOf a h := by
  refine resourceOf_congr ?_
  rw [segmentRouting_dropInboundLogical]
  cases hroute : a.segmentRouting.get h with
  | none => rfl
  | some route =>
    rw [resourceOf_of_route hroute] at hne
    simp [hne]

end Drop

section Publish

variable (adv : ResourceAdvertisement) (a : ActiveLink F)

theorem segmentRouting_publishRoute (hne : h ≠ adv.resourceHash) :
    (publishRoute adv a).segmentRouting.get h = a.segmentRouting.get h := by
  by_cases hsplit : isSplit adv
  · simp [publishRoute, hsplit, get_insert_ne hne]
  · simp [publishRoute, hsplit]

theorem resourceOf_publishRoute (hunrouted : a.segmentRouting.get adv.resourceHash = none) :
    resourceOf (publishRoute adv a) adv.resourceHash = advertisedResource adv := by
  by_cases hsplit : isSplit adv
  · simp [resourceOf, publishRoute, advertisedResource, hsplit]
  · simp [resourceOf, publishRoute, advertisedResource, hsplit, hunrouted]

theorem inboundSplitResources_publishRoute {i : Octets 32}
    (hi : (publishRoute adv a).inboundSplitResources.contains i) :
    i = advertisedResource adv ∨ a.inboundSplitResources.contains i := by
  by_cases hsplit : isSplit adv
  · by_cases hold : a.inboundSplitResources.contains adv.originalHash
    · exact .inr (by simpa [publishRoute, hsplit, hold] using hi)
    · simpa [publishRoute, advertisedResource, hsplit, hold, Table.contains_insert] using hi
  · exact .inr (by simpa [publishRoute, hsplit] using hi)

theorem transfers_publishRoute :
    (publishRoute adv a).inboundResources = a.inboundResources ∧
      (publishRoute adv a).outboundResources = a.outboundResources ∧
      (publishRoute adv a).outboundSplitQueues = a.outboundSplitQueues := by
  by_cases hsplit : isSplit adv
  · simp [publishRoute, hsplit]
  · simp [publishRoute, hsplit]

end Publish

namespace InboundShape

variable {linkId : Octets 16} {a a' : ActiveLink F} {ls ls' : Lifecycles} {id h : Octets 32}

section

variable (hshape : InboundShape linkId a ls)

include hshape

theorem congr (hcontains : ∀ h, a'.inboundResources.contains h = a.inboundResources.contains h)
    (hrouting : a'.segmentRouting = a.segmentRouting)
    (hsplit : ∀ i, a'.inboundSplitResources.contains i = a.inboundSplitResources.contains i)
    (hls : ∀ id, ls'.get (linkId, id) = ls.get (linkId, id)) : InboundShape linkId a' ls' := by
  have hof (h : Octets 32) : resourceOf a' h = resourceOf a h := resourceOf_congr (by rw [hrouting])
  refine ⟨fun h hh => ?_, fun h route hroute => ?_, fun i hi => ?_, fun id l hl => ?_⟩
  · rw [hof, hls]
    exact hshape.segment h (hcontains h ▸ hh)
  · rw [hcontains]
    exact hshape.route h route (hrouting ▸ hroute)
  · rw [Table.contains, hls]
    exact hshape.coordinator i (hsplit i ▸ hi)
  · refine (hshape.lifecycle id l (hls id ▸ hl)).imp_left ?_
    rintro ⟨h, hcurrent, hh, hid, hdeadline⟩
    exact ⟨h, hcurrent, (hcontains h).trans hh, (hof h).trans hid, hdeadline⟩

/-- Two segments in progress of one resource are the same. -/
theorem segment_unique {h' : Octets 32} (hh : a.inboundResources.contains h)
    (hh' : a.inboundResources.contains h') (hid : resourceOf a h = resourceOf a h') : h = h' := by
  obtain ⟨l, hl, hcurrent⟩ := hshape.segment h hh
  obtain ⟨l', hl', hcurrent'⟩ := hshape.segment h' hh'
  rw [hid, hl'] at hl
  obtain rfl := some.inj hl
  exact some.inj (hcurrent.symm.trans hcurrent')

/-- Dropping a resource with its lifecycle. -/
theorem drop (id : Octets 32) :
    InboundShape linkId (dropInboundLogical a id) (ls.erase (linkId, id)) := by
  have hget {i : Octets 32} (hi : i ≠ id) : (ls.erase (linkId, id)).get (linkId, i) =
      ls.get (linkId, i) := by
    rw [get_erase, if_neg fun heq => hi (Prod.mk.inj heq).2]
  refine ⟨fun h hh => ?_, fun h route hroute => ?_, fun i hi => ?_, fun i l hl => ?_⟩
  · obtain ⟨hh, hne⟩ := (contains_dropInboundLogical a id).mp hh
    rw [resourceOf_dropInboundLogical a id hne, hget hne]
    exact hshape.segment h hh
  · rw [segmentRouting_dropInboundLogical, filter_eq_some_iff] at hroute
    refine (contains_dropInboundLogical a id).mpr ⟨hshape.route h route hroute.1, ?_⟩
    rw [resourceOf_of_route hroute.1]
    simpa using hroute.2
  · obtain ⟨hne, hi⟩ := (inboundSplitResources_dropInboundLogical a id).mp hi
    rw [Table.contains, hget hne]
    exact hshape.coordinator i hi
  · have hne : i ≠ id := by
      rintro rfl
      simp [get_erase] at hl
    refine (hshape.lifecycle i l (hget hne ▸ hl)).imp_left ?_
    rintro ⟨h, hcurrent, hh, rfl, hdeadline⟩
    exact ⟨h, hcurrent, (contains_dropInboundLogical a id).mpr ⟨hh, hne⟩,
      resourceOf_dropInboundLogical a id hne, hdeadline⟩

end

/-- A new segment of a resource that has none in progress. -/
theorem publish {adv : ResourceAdvertisement} {transfer : InboundTransfer F} {w : LinkWork F}
    {l : InboundResourceLifecycle} (hshape : InboundShape linkId w.active ls)
    (hnew : ¬ w.active.inboundResources.contains adv.resourceHash)
    (hidle : ∀ l, ls.get (linkId, advertisedResource adv) = some l → l.currentSegment = none)
    (hopen : w.shared.activeInboundLifecycles.get (linkId, advertisedResource adv) = some l)
    (hothers : ∀ id, id ≠ advertisedResource adv →
      w.shared.activeInboundLifecycles.get (linkId, id) = ls.get (linkId, id)) :
    InboundShape linkId (publishSegment linkId adv transfer w).active
      (publishSegment linkId adv transfer w).shared.activeInboundLifecycles := by
  have hunrouted : w.active.segmentRouting.get adv.resourceHash = none :=
    eq_none_iff_forall_ne_some.mpr fun route hroute => hnew (hshape.route _ route hroute)
  have hrouting (h : Octets 32) (hne : h ≠ adv.resourceHash) :
      (publishSegment linkId adv transfer w).active.segmentRouting.get h =
        w.active.segmentRouting.get h := segmentRouting_publishRoute adv w.active hne
  have hself : resourceOf (publishSegment linkId adv transfer w).active adv.resourceHash =
      advertisedResource adv := resourceOf_publishRoute adv w.active hunrouted
  have hcontains (h : Octets 32) :
      (publishSegment linkId adv transfer w).active.inboundResources.contains h ↔
        h = adv.resourceHash ∨ w.active.inboundResources.contains h := by
    simp [publishSegment, (transfers_publishRoute adv w.active).1, Table.contains_insert]
  have hget : (publishSegment linkId adv transfer w).shared.activeInboundLifecycles.get
      (linkId, advertisedResource adv) = some { l with
        currentSegment := some adv.resourceHash
        interSegmentDeadline := none } := by
    simp [publishSegment, Table.get_modify, hopen]
  have hget' (id : Octets 32) (hne : id ≠ advertisedResource adv) :
      (publishSegment linkId adv transfer w).shared.activeInboundLifecycles.get (linkId, id) =
        ls.get (linkId, id) := by
    rw [← hothers id hne]
    simp [publishSegment, Table.get_modify, hne]
  refine ⟨fun h hh => ?_, fun h route hroute => ?_, fun i hi => ?_, fun i l' hl' => ?_⟩
  · by_cases heq : h = adv.resourceHash
    · rw [heq, hself]
      exact ⟨_, hget, rfl⟩
    · have hold := ((hcontains h).mp hh).resolve_left heq
      obtain ⟨l', hl', hcurrent⟩ := hshape.segment h hold
      rw [resourceOf_congr (hrouting h heq), hget']
      · exact ⟨l', hl', hcurrent⟩
      · intro hid
        rw [hid] at hl'
        exact absurd (hcurrent.symm.trans (hidle l' hl')) (some_ne_none h)
  · refine (hcontains h).mpr (or_iff_not_imp_left.mpr fun hne => ?_)
    exact hshape.route h route (hrouting h hne ▸ hroute)
  · by_cases heq : i = advertisedResource adv
    · rw [heq, Table.contains, hget]
      rfl
    · rw [Table.contains, hget' i heq]
      exact hshape.coordinator i
        ((inboundSplitResources_publishRoute adv w.active hi).resolve_left heq)
  · by_cases heq : i = advertisedResource adv
    · rw [heq, hget] at hl'
      obtain rfl := some.inj hl'
      exact .inl ⟨_, rfl, (hcontains _).mpr (.inl rfl), hself.trans heq.symm, rfl⟩
    · refine (hshape.lifecycle i l' (hget' i heq ▸ hl')).imp_left ?_
      rintro ⟨h, hcurrent, hh, hid, hdeadline⟩
      have hne : h ≠ adv.resourceHash := by
        rintro rfl
        exact hnew hh
      exact ⟨h, hcurrent, (hcontains h).mpr (.inr hh),
        (resourceOf_congr (hrouting h hne)).trans hid, hdeadline⟩

/-- A segment that is done, of a resource that waits for its next one. -/
theorem await [Binary64Bits F] {w : LinkWork F}
    (hshape : InboundShape linkId w.active w.shared.activeInboundLifecycles)
    (hh : w.active.inboundResources.contains h) (m : Moment) :
    InboundShape linkId (awaitSegment m linkId h (resourceOf w.active h) w).active
      (awaitSegment m linkId h (resourceOf w.active h) w).shared.activeInboundLifecycles := by
  have hcontains (h' : Octets 32) :
      (awaitSegment m linkId h (resourceOf w.active h) w).active.inboundResources.contains h' ↔
        h' ≠ h ∧ w.active.inboundResources.contains h' := by
    simp [awaitSegment, contains_erase]
  have hrouting {h' : Octets 32} (hne : h' ≠ h) :
      (awaitSegment m linkId h (resourceOf w.active h) w).active.segmentRouting.get h' =
        w.active.segmentRouting.get h' := by
    simp [awaitSegment, get_erase, hne]
  have hget {id : Octets 32} (hne : id ≠ resourceOf w.active h) :
      (awaitSegment m linkId h (resourceOf w.active h) w).shared.activeInboundLifecycles.get
        (linkId, id) = w.shared.activeInboundLifecycles.get (linkId, id) := by
    simp [awaitSegment, get_modify, hne]
  refine ⟨fun h' hh' => ?_, fun h' route hroute => ?_, fun i hi => ?_, fun i l hl => ?_⟩
  · obtain ⟨hne, hh'⟩ := (hcontains h').mp hh'
    rw [resourceOf_congr (hrouting hne),
      hget fun hid => hne (hshape.segment_unique hh' hh hid)]
    exact hshape.segment h' hh'
  · have hne : h' ≠ h := by
      rintro rfl
      simp [awaitSegment, get_erase] at hroute
    exact (hcontains h').mpr ⟨hne, hshape.route h' route (hrouting hne ▸ hroute)⟩
  · have hopen := hshape.coordinator i hi
    simpa [awaitSegment, contains_modify] using hopen
  · by_cases heq : i = resourceOf w.active h
    · simp only [heq, awaitSegment, get_modify, if_true, map_eq_some_iff] at hl
      obtain ⟨l', -, rfl⟩ := hl
      exact .inr ⟨rfl, rfl⟩
    · refine (hshape.lifecycle i l (hget heq ▸ hl)).imp_left ?_
      rintro ⟨h', hcurrent, hh', rfl, hdeadline⟩
      have hne : h' ≠ h := by
        rintro rfl
        exact heq rfl
      exact ⟨h', hcurrent, (hcontains h').mpr ⟨hne, hh'⟩, resourceOf_congr (hrouting hne), hdeadline⟩

end InboundShape

/-! ### Outbound resources -/

/-- What accounting knows a transfer by: the hashes of its segment and of the resource. -/
def outboundName (t : OutboundTransfer) : Octets 32 × Option (Octets 32) :=
  (t.resource.resourceHash, t.resource.originalHash)

/-- The resource that a transfer sends. -/
def resourceSent (t : OutboundTransfer) : Octets 32 :=
  t.resource.originalHash.getD t.resource.resourceHash

variable {t t' : OutboundTransfer}

theorem resourceSent_of_name (h : outboundName t' = outboundName t) :
    resourceSent t' = resourceSent t := by
  obtain ⟨hhash, horiginal⟩ := Prod.mk.inj h
  rw [resourceSent, hhash, horiginal, resourceSent]

theorem OutboundTransfer.SameResource.name
    (h : t.SameResource t') : outboundName t' = outboundName t := by
  obtain ⟨state, window, h⟩ := h
  rw [outboundName, h, outboundName]

/-- The tables of outbound resources belong together. -/
structure OutboundShape (sending : Octets 32 → Option OutboundTransfer)
    (queues : Octets 32 → Option (List OutboundTransfer)) : Prop where
  /-- Transfers stand under the hash of their segment. -/
  named : ∀ h t, sending h = some t → t.resource.resourceHash = h
  /-- One transfer for each resource. -/
  unique : ∀ h h' t t', sending h = some t → sending h' = some t' →
    resourceSent t = resourceSent t' → h = h'
  /-- Queued segments are of the resource of the queue. -/
  queued : ∀ key q t, queues key = some q → t ∈ q → t.resource.originalHash = some key
  /-- Queued segments have distinct hashes. -/
  nodup : ∀ key q, queues key = some q → (q.map fun t => t.resource.resourceHash).Nodup
  apart : ∀ key key' q q' t t', queues key = some q → queues key' = some q' → t ∈ q → t' ∈ q' →
    t.resource.resourceHash = t'.resource.resourceHash → key = key'
  waiting : ∀ key q t, queues key = some q → t ∈ q → sending t.resource.resourceHash = none
  /-- Queued segments follow a transfer of their resource. -/
  owner : ∀ key q, queues key = some q → ∃ h t, sending h = some t ∧ t.resource.originalHash = some key

namespace OutboundShape

variable {sending sending' : Octets 32 → Option OutboundTransfer}
  {queues : Octets 32 → Option (List OutboundTransfer)} {h : Octets 32} {t : OutboundTransfer}

section

variable (hshape : OutboundShape sending queues)

include hshape

/-- Only the names of transfers matter. -/
theorem congr (hnames : ∀ h, (sending' h).map outboundName = (sending h).map outboundName) :
    OutboundShape sending' queues := by
  have hback {h : Octets 32} {t' : OutboundTransfer} (ht' : sending' h = some t') :
      ∃ t, sending h = some t ∧ outboundName t = outboundName t' := by
    have hname := hnames h
    rw [ht'] at hname
    exact map_eq_some_iff.mp hname.symm
  refine { hshape with named := ?_, unique := ?_, waiting := ?_, owner := ?_ }
  · intro h t ht
    obtain ⟨u, hu, hname⟩ := hback ht
    exact (Prod.mk.inj hname).1.symm.trans (hshape.named h u hu)
  · intro h h' t t' ht ht' heq
    obtain ⟨u, hu, hname⟩ := hback ht
    obtain ⟨u', hu', hname'⟩ := hback ht'
    refine hshape.unique h h' u u' hu hu' ?_
    rw [resourceSent_of_name hname, resourceSent_of_name hname', heq]
  · intro key q t hq ht
    have hname := hnames t.resource.resourceHash
    rw [hshape.waiting key q t hq ht, map_none] at hname
    exact map_eq_none_iff.mp hname
  · intro key q hq
    obtain ⟨h, t, ht, horiginal⟩ := hshape.owner key q hq
    have hname := hnames h
    rw [ht] at hname
    obtain ⟨t', ht', heq⟩ := map_eq_some_iff.mp hname
    exact ⟨h, t', ht', (Prod.mk.inj heq).2.trans horiginal⟩

/-- Only transfers of split resources have queues. -/
theorem queue_eq_none (ht : sending h = some t)
    (hsingle : t.resource.originalHash = none) : queues (resourceSent t) = none := by
  refine eq_none_iff_forall_ne_some.mpr fun q hq => ?_
  obtain ⟨h', t', ht', horiginal⟩ := hshape.owner _ q hq
  have hsent : resourceSent t' = resourceSent t := by
    rw [resourceSent, horiginal, getD_some]
  obtain rfl := hshape.unique h' h t' t ht' ht hsent
  obtain rfl := some.inj (ht.symm.trans ht')
  exact absurd (hsingle.symm.trans horiginal) (some_ne_none _).symm

/-- The end of a resource: its transfer and its queue are removed. -/
theorem conclude (ht : sending h = some t) :
    OutboundShape (Function.update sending h none)
      (Function.update queues (resourceSent t) none) := by
  have hsending {h' : Octets 32} {t' : OutboundTransfer}
      (ht' : Function.update sending h none h' = some t') : sending h' = some t' := by
    rw [update_apply] at ht'
    split_ifs at ht'
    exact ht'
  have hqueues {key : Octets 32} {q : List OutboundTransfer}
      (hq : Function.update queues (resourceSent t) none key = some q) :
      key ≠ resourceSent t ∧ queues key = some q := by
    rw [update_apply] at hq
    split_ifs at hq with hne
    exact ⟨hne, hq⟩
  constructor
  · exact fun h' t' ht' => hshape.named h' t' (hsending ht')
  · exact fun h₁ h₂ t₁ t₂ h₁' h₂' => hshape.unique h₁ h₂ t₁ t₂ (hsending h₁') (hsending h₂')
  · exact fun key q t' hq => hshape.queued key q t' (hqueues hq).2
  · exact fun key q hq => hshape.nodup key q (hqueues hq).2
  · exact fun key key' q q' t₁ t₂ hq hq' =>
      hshape.apart key key' q q' t₁ t₂ (hqueues hq).2 (hqueues hq').2
  · intro key q t' hq ht'
    rw [update_apply, hshape.waiting key q t' (hqueues hq).2 ht', ite_self]
  · intro key q hq
    obtain ⟨hne, hq⟩ := hqueues hq
    obtain ⟨h', t', ht', horiginal⟩ := hshape.owner key q hq
    refine ⟨h', t', ?_, horiginal⟩
    rw [update_of_ne, ht']
    -- The removed transfer is of another resource.
    rintro rfl
    obtain rfl := some.inj (ht.symm.trans ht')
    exact hne (by rw [resourceSent, horiginal, getD_some])

end

variable {rest : List OutboundTransfer}

/-- A new resource, with hashes that are not in use. -/
theorem start {first : OutboundTransfer}
    (hshape : OutboundShape sending queues)
    (htied : rest ≠ [] → ∀ t ∈ first :: rest, t.resource.originalHash = some (resourceSent first))
    (hnodup : ((first :: rest).map fun t => t.resource.resourceHash).Nodup)
    (hfree : ∀ t ∈ first :: rest, sending t.resource.resourceHash = none)
    (hunqueued : ∀ key q t, queues key = some q → t ∈ q → ∀ t' ∈ first :: rest,
      t.resource.resourceHash ≠ t'.resource.resourceHash)
    (hclosed : ∀ h t, sending h = some t → resourceSent t ≠ resourceSent first) :
    OutboundShape (Function.update sending first.resource.resourceHash (some first))
      (if rest = [] then queues else Function.update queues (resourceSent first) (some rest)) := by
  rw [map_cons, nodup_cons] at hnodup
  have hsending {h' : Octets 32} {t' : OutboundTransfer}
      (ht' : Function.update sending first.resource.resourceHash (some first) h' = some t') :
      h' = first.resource.resourceHash ∧ t' = first ∨ sending h' = some t' := by
    rw [update_apply] at ht'
    split_ifs at ht' with heq
    · exact .inl ⟨heq, (some.inj ht').symm⟩
    · exact .inr ht'
  have hqueues {key : Octets 32} {q : List OutboundTransfer}
      (hq : (if rest = [] then queues
        else Function.update queues (resourceSent first) (some rest)) key = some q) :
      rest ≠ [] ∧ key = resourceSent first ∧ q = rest ∨ queues key = some q := by
    split_ifs at hq with hrest
    · exact .inr hq
    · rw [update_apply] at hq
      split_ifs at hq with heq
      · exact .inl ⟨hrest, heq, (some.inj hq).symm⟩
      · exact .inr hq
  constructor
  · intro h' t' ht'
    rcases hsending ht' with ⟨rfl, rfl⟩ | ht'
    · rfl
    · exact hshape.named h' t' ht'
  · intro h₁ h₂ t₁ t₂ h₁' h₂' heq
    rcases hsending h₁' with ⟨hh₁, ht₁⟩ | ht₁ <;> rcases hsending h₂' with ⟨hh₂, ht₂⟩ | ht₂
    · exact hh₁.trans hh₂.symm
    · exact absurd (heq.symm.trans (congrArg resourceSent ht₁)) (hclosed h₂ t₂ ht₂)
    · exact absurd (heq.trans (congrArg resourceSent ht₂)) (hclosed h₁ t₁ ht₁)
    · exact hshape.unique h₁ h₂ t₁ t₂ ht₁ ht₂ heq
  · intro key q t hq ht
    rcases hqueues hq with ⟨hrest, rfl, rfl⟩ | hq
    · exact htied hrest t (mem_cons_of_mem first ht)
    · exact hshape.queued key q t hq ht
  · intro key q hq
    rcases hqueues hq with ⟨-, -, rfl⟩ | hq
    · exact hnodup.2
    · exact hshape.nodup key q hq
  · intro key₁ key₂ q₁ q₂ t₁ t₂ hq₁ hq₂ ht₁ ht₂ heq
    rcases hqueues hq₁ with ⟨-, hkey₁, hrest₁⟩ | hq₁ <;>
      rcases hqueues hq₂ with ⟨-, hkey₂, hrest₂⟩ | hq₂
    · exact hkey₁.trans hkey₂.symm
    · exact absurd heq.symm
        (hunqueued key₂ q₂ t₂ hq₂ ht₂ t₁ (mem_cons_of_mem first (hrest₁ ▸ ht₁)))
    · exact absurd heq
        (hunqueued key₁ q₁ t₁ hq₁ ht₁ t₂ (mem_cons_of_mem first (hrest₂ ▸ ht₂)))
    · exact hshape.apart key₁ key₂ q₁ q₂ t₁ t₂ hq₁ hq₂ ht₁ ht₂ heq
  · intro key q t hq ht
    rcases hqueues hq with ⟨-, -, rfl⟩ | hq
    · have hne : t.resource.resourceHash ≠ first.resource.resourceHash := fun heq =>
        hnodup.1 (heq ▸ mem_map_of_mem ht)
      rw [update_of_ne hne]
      exact hfree t (mem_cons_of_mem first ht)
    · rw [update_of_ne (hunqueued key q t hq ht first (mem_cons_self ..))]
      exact hshape.waiting key q t hq ht
  · intro key q hq
    rcases hqueues hq with ⟨hrest, rfl, rfl⟩ | hq
    · exact ⟨_, first, update_self .., htied hrest first (mem_cons_self ..)⟩
    · obtain ⟨h, t, ht, horiginal⟩ := hshape.owner key q hq
      refine ⟨h, t, ?_, horiginal⟩
      rw [update_of_ne, ht]
      rintro rfl
      exact absurd ((hfree first (mem_cons_self ..)).symm.trans ht) (some_ne_none t).symm

/-- The next segment of a resource takes the place of the one that is proven: the resource ends, and
starts again with what is left of it. -/
theorem advance {key : Octets 32} {next next' : OutboundTransfer}
    (hshape : OutboundShape sending queues) (ht : sending h = some t)
    (horiginal : t.resource.originalHash = some key) (hqueue : queues key = some (next :: rest))
    (hname : outboundName next' = outboundName next) :
    OutboundShape
      (Function.update (Function.update sending h none) next.resource.resourceHash (some next'))
      (Function.update queues key (if rest = [] then none else some rest)) := by
  obtain ⟨hhash, htied'⟩ := Prod.mk.inj hname
  have hsent : resourceSent t = key := by rw [resourceSent, horiginal, getD_some]
  -- What is left was queued, but for the state of its first segment.
  have hleft (t' : OutboundTransfer) (ht' : t' ∈ next' :: rest) : ∃ u ∈ next :: rest,
      outboundName t' = outboundName u := by
    rcases mem_cons.mp ht' with rfl | ht'
    · exact ⟨next, mem_cons_self, hname⟩
    · exact ⟨t', mem_cons_of_mem _ ht', rfl⟩
  have htied (t' : OutboundTransfer) (ht' : t' ∈ next' :: rest) :
      t'.resource.originalHash = some key := by
    obtain ⟨u, hu, hname'⟩ := hleft t' ht'
    exact (Prod.mk.inj hname').2.trans (hshape.queued key _ u hqueue hu)
  have hkey : resourceSent next' = key := by
    rw [resourceSent, htied next' mem_cons_self, getD_some]
  have hended := hshape.conclude ht
  rw [hsent] at hended
  have hnodup : ((next' :: rest).map fun t => t.resource.resourceHash).Nodup := by
    have hnodup := hshape.nodup key _ hqueue
    rw [map_cons, ← hhash] at hnodup
    exact hnodup
  have hstart := hended.start (fun _ t' ht' => hkey ▸ htied t' ht') hnodup
    (fun t' ht' => ?_) (fun key' q t' hq ht' t'' ht'' heq => ?_) fun h' t' ht' => ?_
  · rw [hkey, hhash] at hstart
    convert hstart using 1
    split_ifs
    · rfl
    · exact (update_idem ..).symm
  · obtain ⟨u, hu, hname'⟩ := hleft t' ht'
    rw [(Prod.mk.inj hname').1, update_apply, hshape.waiting key _ u hqueue hu, ite_self]
  · obtain ⟨u, hu, hname'⟩ := hleft t'' ht''
    rw [update_apply] at hq
    split_ifs at hq with hne
    exact hne (hshape.apart key' key q _ t' u hq hqueue ht' hu
      (heq.trans (Prod.mk.inj hname').1))
  · rw [update_apply] at ht'
    split_ifs at ht' with hne
    rw [hkey, ← hsent]
    exact fun hid => hne (hshape.unique h' h t' t ht' ht hid)

end OutboundShape

end Reticulum.Manager
