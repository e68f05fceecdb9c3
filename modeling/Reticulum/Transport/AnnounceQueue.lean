import Reticulum.Transport.Steady
import Reticulum.Transport.TransitLinks

/-!
# The announce queues of the interfaces

Announces wait on each interface for their turn: `broadcast_announce_on_interfaces` of
`actor/mod.rs` queues them, `process_announce_queues` and `cull_announce_queues` of
`actor/maintenance.rs` send them and drop old ones. Here the three are taken in any order, together
with everything else a node does, which at most removes queued announces.

## Main results

* `QueuedAnnounce.Inventory.enqueue`, `QueuedAnnounce.renews_of_mem_enqueue` — queueing an announce.
* `QueuedAnnounce.select_least` — the announce that is sent next.
* `Actor.processAnnounceQueue_cases` — what a turn of an interface does.
* `announce_queue_inventory` — the queues over whole runs.
-/

namespace Reticulum.Transport

open Wire QueuedAnnounce Binary64 List Option

section

variable {F : Type}

/-! ### One queue -/

namespace QueuedAnnounce

/-- One entry for each destination, and at most `MAX_QUEUED_ANNOUNCES`. -/
structure Inventory (queue : List (QueuedAnnounce F)) : Prop where
  nodup : (queue.map (·.destinationHash)).Nodup
  length : queue.length ≤ maxQueuedAnnounces

/-- The second announce is one of the same destination that was emitted later. -/
def Renews (q q' : QueuedAnnounce F) : Prop :=
  q'.destinationHash = q.destinationHash ∧
    ∃ old new, announceEmittedFromRaw q.raw = some old ∧ announceEmittedFromRaw q'.raw = some new ∧
      old < new

variable {queue queue' : List (QueuedAnnounce F)} {q q' : QueuedAnnounce F}

theorem Inventory.nil : Inventory ([] : List (QueuedAnnounce F)) := ⟨nodup_nil, Nat.zero_le _⟩

theorem Inventory.sublist (h : Inventory queue) (hsub : queue'.Sublist queue) :
    Inventory queue' :=
  ⟨h.nodup.sublist (hsub.map _), hsub.length_le.trans h.length⟩

theorem Inventory.eq_of_destination (h : Inventory queue) (hq : q ∈ queue) (hq' : q' ∈ queue)
    (hd : q'.destinationHash = q.destinationHash) : q' = q :=
  inj_on_of_nodup_map h.nodup hq' hq hd

section

variable {now : F} {destinationHash : Octets 16} {hops : UInt8} {raw : Bytes}

/-- What `broadcast_announce_on_interfaces` does to the entry of the same destination. -/
def renew (now : F) (hops : UInt8) (raw : Bytes) (existing : QueuedAnnounce F) : QueuedAnnounce F :=
  match announceEmittedFromRaw raw, announceEmittedFromRaw existing.raw with
  | some new, some old => if old < new then { existing with time := now, hops, raw } else existing
  | _, _ => existing

theorem renew_cases (now : F) (hops : UInt8) (raw : Bytes) (q : QueuedAnnounce F) :
    renew now hops raw q = q ∨ Renews q (renew now hops raw q) := by
  unfold renew
  split
  next new old hnew hold =>
    split_ifs with hlt
    · exact .inr ⟨rfl, old, new, hold, hnew, hlt⟩
    · exact .inl rfl
  · exact .inl rfl

theorem destinationHash_renew : (renew now hops raw q).destinationHash = q.destinationHash := by
  rcases renew_cases now hops raw q with h | h
  · rw [h]
  · exact h.1

variable (queue)

/-- An announce joins the queue, or meets the entry of its destination. -/
theorem enqueue_cases (now : F) (destinationHash : Octets 16) (hops : UInt8) (raw : Bytes) :
    (∃ idx, enqueue queue now destinationHash hops raw = queue.modify idx (renew now hops raw)) ∨
    (∀ q ∈ queue, q.destinationHash ≠ destinationHash) ∧
      ∃ n, enqueue queue now destinationHash hops raw =
        (queue ++ [mk destinationHash now hops raw]).drop n ∧
        queue.length + 1 ≤ n + maxQueuedAnnounces := by
  unfold enqueue
  split
  next idx _ => exact .inl ⟨idx, rfl⟩
  next hnone =>
    rw [findIdx?_eq_none_iff] at hnone
    refine .inr ⟨fun q hq => of_decide_eq_false (hnone q hq),
      (queue ++ [mk destinationHash now hops raw]).length - maxQueuedAnnounces, rfl, ?_⟩
    rw [length_append, length_singleton]
    exact Nat.sub_le_iff_le_add.mp le_rfl

theorem map_destinationHash_modify (idx : ℕ) :
    (queue.modify idx (renew now hops raw)).map (·.destinationHash) =
      queue.map (·.destinationHash) := by
  refine ext_getElem? fun i => ?_
  rw [getElem?_map, getElem?_map, getElem?_modify, Option.map_eq_map, Option.map_map]
  congr 1
  funext q
  simp only [Function.comp_apply]
  split_ifs
  · exact destinationHash_renew
  · rfl

variable {queue}

theorem Inventory.enqueue (h : Inventory queue) :
    Inventory (enqueue queue now destinationHash hops raw) := by
  obtain ⟨idx, heq⟩ | ⟨hnew, n, heq, hn⟩ := enqueue_cases queue now destinationHash hops raw
  · rw [heq]
    exact ⟨(map_destinationHash_modify queue idx).symm ▸ h.nodup,
      (length_modify ..).trans_le h.length⟩
  · rw [heq]
    have hnodup : ((queue ++ [QueuedAnnounce.mk destinationHash now hops raw]).map
        (·.destinationHash)).Nodup := by
      rw [map_append, map_singleton, nodup_append]
      refine ⟨h.nodup, nodup_singleton _, fun d hd d' hd' => ?_⟩
      obtain ⟨q, hq, rfl⟩ := mem_map.mp hd
      rw [mem_singleton.mp hd']
      exact hnew q hq
    refine ⟨hnodup.sublist ((drop_sublist n _).map _), ?_⟩
    simp only [length_drop, length_append, length_singleton]
    omega

/-- An entry is only replaced by a newer announce of its destination. -/
theorem renews_of_mem_enqueue (h : Inventory queue) (hq : q ∈ queue)
    (hq' : q' ∈ enqueue queue now destinationHash hops raw)
    (hd : q'.destinationHash = q.destinationHash) : q' = q ∨ Renews q q' := by
  obtain ⟨idx, heq⟩ | ⟨hnew, n, heq, -⟩ := enqueue_cases queue now destinationHash hops raw
  · rw [heq] at hq'
    rcases mem_of_mem_modify hq' with hmem | ⟨existing, hmem, rfl⟩
    · exact .inl (h.eq_of_destination hq hmem hd)
    · obtain rfl := h.eq_of_destination hq hmem (destinationHash_renew.symm.trans hd)
      exact renew_cases now hops raw existing
  · rw [heq] at hq'
    rcases mem_append.mp (mem_of_mem_drop hq') with hmem | hmem
    · exact .inl (h.eq_of_destination hq hmem hd)
    · rw [mem_singleton.mp hmem] at hd
      exact absurd hd.symm (hnew q hq)

end

variable [Binary64 F]

/-- The announce that is sent next has no more hops than any other, and of those with as few none
was queued earlier. -/
theorem select_least (hlt : StrictOrder F) {idx : ℕ}
    (h : select queue = some (q, idx)) :
    ∀ other ∈ queue, q.hops ≤ other.hops ∧
      (other.hops = q.hops → lt other.time q.time = false) := by
  have hhops : q.hops = (queue.map (·.hops)).min?.getD 0 :=
    of_decide_eq_true (mem_filter.mp (mem_filter_of_select h)).2
  have hleast := (foldl_least (r := fun e e' : QueuedAnnounce F × ℕ => lt e.1.time e'.1.time)
    (fun e => hlt.irrefl e.1.time) (fun a b c => hlt.trans a.1.time b.1.time c.1.time)
    (fun _ => rfl) (fun _ _ => rfl) h).2
  intro other hother
  constructor
  · obtain ⟨least, hmin⟩ := isSome_iff_exists.mp
      (isSome_min?_of_mem (mem_map_of_mem (f := (·.hops)) hother))
    rw [hhops, hmin, getD_some]
    exact (min?_eq_some_iff.mp hmin).2 _ (mem_map_of_mem hother)
  · intro heq
    obtain ⟨i, hi, rfl⟩ := getElem_of_mem hother
    refine hleast (queue[i], i) (mem_filter.mpr ⟨?_, decide_eq_true (heq.trans hhops)⟩)
    exact mem_zipIdx_iff_getElem?.mpr (getElem?_eq_getElem hi)

end QueuedAnnounce

/-! ### A turn of an interface -/

namespace Actor

/-- Only the queues of interfaces may have lost announces, and nothing is sent. -/
structure Trims (s s' : Actor F) : Prop where
  transmissions : s'.transmissions = s.transmissions
  interfaces : ∀ id entry', s'.interfaces.get id = some entry' →
    ∃ entry queue, s.interfaces.get id = some entry ∧ queue.Sublist entry.announceQueue ∧
      entry' = { entry with announceQueue := queue }

variable {s s' s'' : Actor F} {m : Moment F} {id : ℕ}

theorem Trims.refl (s : Actor F) : Trims s s :=
  ⟨rfl, fun _ entry h => ⟨entry, _, h, .refl _, rfl⟩⟩

theorem Trims.trans (h : Trims s s') (h' : Trims s' s'') : Trims s s'' := by
  refine ⟨h'.transmissions.trans h.transmissions, fun id entry'' hget => ?_⟩
  obtain ⟨entry', queue', hget', hsub', rfl⟩ := h'.interfaces id entry'' hget
  obtain ⟨entry, queue, hentry, hsub, rfl⟩ := h.interfaces id entry' hget'
  exact ⟨entry, queue', hentry, hsub'.trans hsub, rfl⟩

variable (s)

theorem trims_modifyQueue (id : ℕ) {f : List (QueuedAnnounce F) → List (QueuedAnnounce F)}
    (hf : ∀ queue, (f queue).Sublist queue) : Trims s (s.modifyQueue id f) := by
  refine ⟨rfl, fun id' entry' hget => ?_⟩
  rw [modifyQueue] at hget
  obtain ⟨entry, hentry, rfl, -⟩ | hget := Table.of_get_modify hget
  · exact ⟨entry, _, hentry, hf _, rfl⟩
  · exact ⟨entry', _, hget, .refl _, rfl⟩

theorem trims_cullAnnounceQueues [Binary64 F] (m : Moment F) :
    Trims s (s.cullAnnounceQueues m) := by
  refine ⟨rfl, fun id entry' hget => ?_⟩
  rw [cullAnnounceQueues, Table.get_mapValues] at hget
  obtain ⟨entry, hentry, rfl⟩ := map_eq_some_iff.mp hget
  exact ⟨entry, _, hentry, (drop_sublist _ _).trans filter_sublist, rfl⟩

variable [Sha256] [Ed25519] [Hkdf] [Binary64 F]

/-- In its turn an interface only loses queued announces, or the announce that is selected from the
live ones goes out. It is offered to a driver that sends in the background. Otherwise the channel
takes it, and the next has to wait. -/
theorem processAnnounceQueue_cases (m : Moment F) (id : ℕ) :
    Trims s (s.processAnnounceQueue m id) ∨
    ∃ entry queued idx queue tx allowedAt, s.interfaces.get id = some entry ∧
      le entry.announceAllowedAt m.now ∧
      select (entry.announceQueue.filter (isLive m.now)) = some (queued, idx) ∧
      (s.processAnnounceQueue m id).transmissions =
        s.transmissions ++ [⟨.announce, id, queued.raw⟩] ∧
      (s.processAnnounceQueue m id).interfaces.get = Function.update s.interfaces.get id
        (some { entry with announceQueue := queue, tx, announceAllowedAt := allowedAt }) ∧
      queue.Sublist entry.announceQueue ∧
      (entry.background = false → allowedAt = add m.now (announceDelay entry queued.raw)) := by
  unfold processAnnounceQueue
  cases hentry : s.interfaces.get id with
  | none => exact .inl (.refl s)
  | some entry =>
    dsimp only
    split
    · exact .inl (.refl s)
    next hready =>
    have hallowed : le entry.announceAllowedAt m.now := by
      simp only [Bool.or_eq_true, not_or, Bool.not_eq_true', Bool.not_eq_false] at hready
      exact hready.1.1.1.2
    have htrim : Trims s (s.modifyQueue id (·.filter (isLive m.now))) :=
      trims_modifyQueue s id fun _ => filter_sublist
    have hlive : (s.modifyQueue id (·.filter (isLive m.now))).interfaces.get =
        Function.update s.interfaces.get id (some { entry with
          announceQueue := entry.announceQueue.filter (isLive m.now) }) := by
      funext id'
      rw [modifyQueue, Table.get_modify, Function.update_apply]
      split_ifs with hid
      · rw [hid, hentry]
        rfl
      · rfl
    split
    · exact .inl htrim
    next queued idx hselect =>
    have hdropped := htrim.trans (trims_modifyQueue _ id fun queue => eraseIdx_sublist queue idx)
    split
    · exact .inl hdropped
    split
    · exact .inl hdropped
    split
    next hbackground =>
      split
      · exact .inl hdropped
      split
      · exact .inr ⟨entry, queued, idx, _, entry.tx, entry.announceAllowedAt, rfl, hallowed, hselect,
          rfl, hlive, filter_sublist, fun hfalse => absurd hbackground (by simp [hfalse])⟩
      · exact .inl htrim
    · split
      next sent htry =>
        obtain ⟨-, entry', pendingLocalLinkRequests, hentry', rfl⟩ | ⟨hne, -⟩ :=
          trySendToInterface_eq htry
        · rw [hlive, Function.update_self] at hentry'
          obtain rfl := some.inj hentry'
          refine .inr ⟨entry, queued, idx,
            (entry.announceQueue.filter (isLive m.now)).eraseIdx idx,
            { entry.tx with room := entry.tx.room - 1 },
            add m.now (announceDelay entry queued.raw), rfl, hallowed, hselect, rfl, ?_,
            (eraseIdx_sublist _ idx).trans filter_sublist, fun _ => rfl⟩
          funext id'
          simp only [accept, Table.get_modify, Table.get_insert, hlive, Function.update_apply]
          split_ifs <;> rfl
        · exact absurd rfl hne
      · exact .inl htrim
      · exact .inl htrim
      · exact .inl hdropped

end Actor

/-! ### Whole runs -/

/-- What can happen to the queues of a node: an announce is broadcast, an interface has its turn, old
announces are dropped, or the node does something else, which at most removes queued announces and
registers interfaces with an empty queue. -/
inductive QueueStep [Sha256] [Ed25519] [Hkdf] [Binary64 F] : Actor F → Actor F → Prop
  | broadcast (s : Actor F) (m : Moment F) (raw : Bytes) (except : Option ℕ) :
    QueueStep s (s.broadcastAnnounceOnInterfaces m raw except)
  | turn (s : Actor F) (m : Moment F) (id : ℕ) : QueueStep s (s.processAnnounceQueue m id)
  | cull (s : Actor F) (m : Moment F) : QueueStep s (s.cullAnnounceQueues m)
  | elsewhere {s s' : Actor F}
      (h : ∀ id entry', s'.interfaces.get id = some entry' → entry'.announceQueue = [] ∨
        ∃ entry, s.interfaces.get id = some entry ∧
          entry'.announceQueue.Sublist entry.announceQueue) : QueueStep s s'

namespace QueueStep

variable [Sha256] [Ed25519] [Hkdf] [Binary64 F] {s s' : Actor F}

/-- Every queue after a step is what an announce makes of the queue before, or a part of it. -/
theorem queue_cases (h : QueueStep s s') {id : ℕ} {entry' : Interface F}
    (hentry' : s'.interfaces.get id = some entry') :
    entry'.announceQueue = [] ∨ ∃ entry, s.interfaces.get id = some entry ∧
      (entry'.announceQueue.Sublist entry.announceQueue ∨
        ∃ now destinationHash hops raw, entry'.announceQueue =
          enqueue entry.announceQueue now destinationHash hops raw) := by
  cases h with
  | broadcast m raw except =>
    rw [Actor.broadcastAnnounceOnInterfaces, Table.get_mapValues] at hentry'
    obtain ⟨entry, hentry, rfl⟩ := map_eq_some_iff.mp hentry'
    refine .inr ⟨entry, hentry, ?_⟩
    split_ifs
    · exact .inr ⟨_, _, _, _, rfl⟩
    · exact .inl (.refl _)
  | turn m id' =>
    rcases s.processAnnounceQueue_cases m id' with htrim |
      ⟨entry, queued, idx, queue, tx, allowedAt, hentry, -, -, -, hget, hsub, -⟩
    · obtain ⟨entry, queue, hentry, hsub, rfl⟩ := htrim.interfaces id entry' hentry'
      exact .inr ⟨entry, hentry, .inl hsub⟩
    · rw [hget, Function.update_apply] at hentry'
      split_ifs at hentry' with hid
      · obtain rfl := some.inj hentry'
        exact .inr ⟨entry, hid ▸ hentry, .inl hsub⟩
      · exact .inr ⟨entry', hentry', .inl (.refl _)⟩
  | cull m =>
    obtain ⟨entry, queue, hentry, hsub, rfl⟩ :=
      (s.trims_cullAnnounceQueues m).interfaces id entry' hentry'
    exact .inr ⟨entry, hentry, .inl hsub⟩
  | elsewhere h =>
    obtain hnil | ⟨entry, hentry, hsub⟩ := h id entry' hentry'
    · exact .inl hnil
    · exact .inr ⟨entry, hentry, .inl hsub⟩

end QueueStep

/-- The queues of all interfaces are in order. -/
def Actor.QueueInventory (s : Actor F) : Prop :=
  ∀ id entry, s.interfaces.get id = some entry → Inventory entry.announceQueue

variable [Sha256] [Ed25519] [Hkdf] [Binary64 F] {s₀ s s' : Actor F}

theorem QueueStep.queueInventory (h : QueueStep s s') (hs : s.QueueInventory) :
    s'.QueueInventory := by
  intro id entry' hentry'
  rcases h.queue_cases hentry' with hnil | ⟨entry, hentry, hsub | ⟨now, d, hops, raw, heq⟩⟩
  · exact hnil ▸ .nil
  · exact (hs id entry hentry).sublist hsub
  · exact heq ▸ (hs id entry hentry).enqueue

theorem QueueStep.renews (h : QueueStep s s') (hs : s.QueueInventory) {id : ℕ}
    {entry entry' : Interface F} {q q' : QueuedAnnounce F}
    (hentry : s.interfaces.get id = some entry) (hentry' : s'.interfaces.get id = some entry')
    (hq : q ∈ entry.announceQueue) (hq' : q' ∈ entry'.announceQueue)
    (hd : q'.destinationHash = q.destinationHash) : q' = q ∨ q.Renews q' := by
  rcases h.queue_cases hentry' with hnil | ⟨entry₀, hentry₀, hcase⟩
  · exact absurd hq' (hnil ▸ not_mem_nil)
  obtain rfl := some.inj (hentry₀.symm.trans hentry)
  rcases hcase with hsub | ⟨now, d, hops, raw, heq⟩
  · exact .inl ((hs id entry₀ hentry).eq_of_destination hq (hsub.subset hq') hd)
  · exact renews_of_mem_enqueue (hs id entry₀ hentry) hq (heq ▸ hq') hd

/-- In every run of a node that begins with empty queues, each queue has at most one entry for a
destination and at most `MAX_QUEUED_ANNOUNCES`; a step replaces an entry only by an announce of the
same destination that was emitted later; and what an interface sends in its turn is, of the live
announces in its queue, one with the least hops, and of those with as few none was queued earlier. -/
theorem announce_queue_inventory (hlt : StrictOrder F)
    (hstart : ∀ id entry, s₀.interfaces.get id = some entry → entry.announceQueue = [])
    (hrun : Relation.ReflTransGen QueueStep s₀ s) :
    (∀ id entry, s.interfaces.get id = some entry →
      (entry.announceQueue.map (·.destinationHash)).Nodup ∧ entry.announceQueue.length ≤ 16384) ∧
    (∀ s', QueueStep s s' → ∀ id entry entry', s.interfaces.get id = some entry →
      s'.interfaces.get id = some entry' → ∀ q ∈ entry.announceQueue, ∀ q' ∈ entry'.announceQueue,
      q'.destinationHash = q.destinationHash → q' = q ∨ q.Renews q') ∧
    ∀ m id, (s.processAnnounceQueue m id).transmissions = s.transmissions ∨
      ∃ entry, s.interfaces.get id = some entry ∧
        ∃ queued ∈ entry.announceQueue.filter (isLive m.now),
          (s.processAnnounceQueue m id).transmissions =
            s.transmissions ++ [⟨.announce, id, queued.raw⟩] ∧
          ∀ other ∈ entry.announceQueue.filter (isLive m.now),
            queued.hops ≤ other.hops ∧
              (other.hops = queued.hops → lt other.time queued.time = false) := by
  have hs : s.QueueInventory := by
    induction hrun with
    | refl => exact fun id entry hentry => hstart id entry hentry ▸ .nil
    | tail _ hstep ih => exact hstep.queueInventory ih
  refine ⟨fun id entry hentry => ⟨(hs id entry hentry).nodup, (hs id entry hentry).length⟩,
    fun s' hstep id entry entry' hentry hentry' q hq q' hq' hd =>
      hstep.renews hs hentry hentry' hq hq' hd, fun m id => ?_⟩
  rcases s.processAnnounceQueue_cases m id with htrim |
    ⟨entry, queued, idx, -, -, -, hentry, -, hselect, hsent, -⟩
  · exact .inl htrim.transmissions
  · exact .inr ⟨entry, hentry, queued, mem_of_select hselect, hsent, select_least hlt hselect⟩

end

/-- The announce of another destination, from three hops away. -/
def Session.farAnnounce : Bytes := [1, 3] ++ transportId.1 ++ announce.drop 18

open Transport.Session Relation in
/-- Two announces are queued on interface 1, the farther one first. The nearer one is sent. -/
theorem announce_queue_inventory_session :
    let start := { node with localDestinations := [destination, transportId] }
    let queued := (start.broadcastAnnounceOnInterfaces (moment 1700000001) farAnnounce
      none).broadcastAnnounceOnInterfaces (moment 1700000002) announce none
    ((queued.interfaces.get 1).map fun entry => entry.announceQueue.map (·.raw)) =
        some [farAnnounce, announce] ∧
      (queued.processAnnounceQueue (moment 1700000003) 1).transmissions =
        [⟨.announce, 1, announce⟩] ∧
      ∃ entry, queued.interfaces.get 1 = some entry ∧
        (entry.announceQueue.map (·.destinationHash)).Nodup ∧
        ∃ next ∈ entry.announceQueue, next.raw = announce ∧
          ∀ other ∈ entry.announceQueue.filter (isLive 1700000003), next.hops ≤ other.hops := by
  intro start queued
  have hstart : ∀ id entry, start.interfaces.get id = some entry → entry.announceQueue = [] := by
    intro id entry hentry
    simp only [start, node, Table.get_insert] at hentry
    split_ifs at hentry <;> cases hentry <;> rfl
  have hsent : (queued.processAnnounceQueue (moment 1700000003) 1).transmissions =
      [⟨.announce, 1, announce⟩] := by decide +kernel
  obtain ⟨hqueues, -, hnext⟩ := announce_queue_inventory strictOrder_rat hstart
    (.tail (.single (.broadcast _ (moment 1700000001) farAnnounce none))
      (.broadcast _ (moment 1700000002) announce none))
  rcases hnext (moment 1700000003) 1 with hquiet | ⟨entry, hentry, next, hmem, hnext, hleast⟩
  · cases hsent.symm.trans hquiet
  · have hraw : [(⟨.announce, 1, announce⟩ : Transmission)] = [⟨.announce, 1, next.raw⟩] :=
      hsent.symm.trans hnext
    refine ⟨by decide +kernel, hsent, entry, hentry, (hqueues 1 entry hentry).1, next,
      (List.mem_filter.mp hmem).1, ?_, fun other hother => (hleast other hother).1⟩
    simpa using hraw.symm

end Reticulum.Transport
