import Reticulum.Foundation.Lists
import Reticulum.Transport.Steady

/-!
# Sending announces on

How a node sends the announces of others: it wraps them in a header of its own, queues them on the
interfaces that may carry them, offers them to drivers or hands them over, and tries again where an
interface was full. The functions follow `actor/mod.rs`, `actor/announce_admission.rs`,
`actor/maintenance.rs` and `actor/recursive_discovery.rs` of the `rns-transport` crate. Replies to
local announces are left out: what a node relays has none.
-/

namespace Reticulum.Transport

open Wire Binary64 QueuedAnnounce PacketHeader List

variable {F : Type}

/-! ### Constants -/

/-- `MAX_QUEUED_ANNOUNCES`. -/
def maxQueuedAnnounces : ℕ := 16384

/-- `QUEUED_ANNOUNCE_LIFE`. -/
def queuedAnnounceLife : ℚ := 86400

/-- `PATH_REQUEST_GATE_TIMEOUT`. -/
def pathRequestGateTimeout : ℚ := 120

/-- `MAX_PENDING` announces, and `MAX_PENDING_ADMISSIONS` of path requests. -/
def maxPending : ℕ := 256

/-- `MAX_POLL` of announces, and `MAX_ADMISSION_POLL` of path requests. -/
def maxPoll : ℕ := 32

/-- `announce_emitted_from_raw`. -/
def announceEmittedFromRaw (raw : Bytes) : Option ℕ := do
  let (header, dataOffset) ← (unpack raw).toOption
  if header.flags.packetType ≠ .announce ∨ raw.length ≤ dataOffset then none
  else
    let announce ← (AnnounceData.unpack (raw.drop dataOffset) header.flags.contextFlag).toOption
    return announceTimebase announce.randomHash

/-- The destination that a packet names. -/
def packetDestination (raw : Bytes) : Option (Octets 16) :=
  (unpack raw).toOption.map fun e => e.1.destinationHash

/-! ### Queues -/

variable {raw : Bytes} {destinationHash : Octets 16}

namespace QueuedAnnounce

variable [Binary64 F]

/-- Whether a queued announce is still to be sent. -/
def isLive (now : F) (queued : QueuedAnnounce F) : Bool :=
  lt (sub now queued.time) (ofRat queuedAnnounceLife)

/-- The queue of an interface after `broadcast_announce_on_interfaces`: one announce for each
destination, which a newer one replaces. -/
def enqueue (queue : List (QueuedAnnounce F)) (now : F) (destinationHash : Octets 16) (hops : UInt8)
    (raw : Bytes) : List (QueuedAnnounce F) :=
  match queue.findIdx? fun queued => queued.destinationHash = destinationHash with
  | some idx => queue.modify idx fun existing =>
    match announceEmittedFromRaw raw, announceEmittedFromRaw existing.raw with
    | some new, some old => if old < new then { existing with time := now, hops, raw } else existing
    | _, _ => existing
  | none =>
    let queue := queue ++ [{ destinationHash, time := now, hops, raw }]
    queue.drop (queue.length - maxQueuedAnnounces)

/-- The announce of a queue that is sent next, and its index: one of least hops, of these the
oldest. -/
def select (queue : List (QueuedAnnounce F)) : Option (QueuedAnnounce F × ℕ) :=
  let minHops := (queue.map (·.hops)).min?.getD 0
  (queue.zipIdx.filter fun e => e.1.hops = minHops).foldl
    (fun best e => match best with
      | none => some e
      | some least => if lt e.1.time least.1.time then some e else some least)
    none

variable {queue : List (QueuedAnnounce F)} {q : QueuedAnnounce F}

omit [Binary64 F] in
theorem mem_of_mem_modify {idx : ℕ} {f : QueuedAnnounce F → QueuedAnnounce F}
    (h : q ∈ queue.modify idx f) : q ∈ queue ∨ ∃ q' ∈ queue, q = f q' := by
  obtain ⟨i, hi, rfl⟩ := getElem_of_mem h
  rw [length_modify] at hi
  rw [getElem_modify]
  split_ifs
  · exact .inr ⟨_, getElem_mem hi, rfl⟩
  · exact .inl (getElem_mem hi)

omit [Binary64 F] in
/-- Queueing an announce brings in no other. -/
theorem mem_of_mem_enqueue {now : F} {hops : UInt8}
    (h : q ∈ enqueue queue now destinationHash hops raw) : q ∈ queue ∨ q.raw = raw := by
  unfold enqueue at h
  split at h
  · rcases mem_of_mem_modify h with hq | ⟨q', hq, rfl⟩
    · exact .inl hq
    · split
      · split_ifs
        · exact .inr rfl
        · exact .inl hq
      · exact .inl hq
  · rcases mem_append.mp (mem_of_mem_drop h) with h | h
    · exact .inl h
    · rw [mem_singleton.mp h]
      exact .inr rfl

variable {e : QueuedAnnounce F × ℕ}

/-- The selected announce is one of the queue, with the least hops. -/
theorem mem_filter_of_select (h : select queue = some e) :
    e ∈ queue.zipIdx.filter fun e => e.1.hops = (queue.map (·.hops)).min?.getD 0 := by
  rcases mem_of_foldl_least (r := fun e e' : QueuedAnnounce F × ℕ =>
    lt e.1.time e'.1.time) (fun _ => rfl) (fun _ _ => rfl) h with h | h
  · cases h
  · exact h

theorem mem_of_select (h : select queue = some e) : e.1 ∈ queue :=
  (mem_zipIdx' (mem_of_mem_filter (mem_filter_of_select h))).2 ▸ getElem_mem _

end QueuedAnnounce

/-! ### The bytes sent on -/

/-- The header of an announce that a node sends on as a route through itself. -/
def relayHeader (contextFlag : Bool) (hops : UInt8) (transportId destinationHash : Octets 16)
    (context : PacketContext) : PacketHeader where
  flags :=
    { headerType := .header2
      contextFlag
      transportType := .transport
      destinationType := .single
      packetType := .announce }
  hops
  transportId := some transportId
  destinationHash
  context

/-- A packet under such a header parses as it was made. -/
theorem unpack_relayHeader (contextFlag : Bool) (hops : UInt8)
    (transportId destinationHash : Octets 16) (context : PacketContext) (payload : Bytes) :
    unpack
        ((relayHeader contextFlag hops transportId destinationHash context).pack ++ payload) =
      .ok ({ relayHeader contextFlag hops transportId destinationHash context with
        context := .fromByte context.toByte }, 35) ∧
    ((relayHeader contextFlag hops transportId destinationHash context).pack ++ payload).drop 35 =
      payload := by
  rw [pack_append]
  constructor
  · refine (unpack_frame ?_ _ _ _ _).trans ?_
    · rw [PacketFlags.unpack_pack]
      exact iff_of_true rfl rfl
    · rw [PacketFlags.unpack_pack]
      rfl
  · exact drop_frame (some transportId) destinationHash context.toByte payload

namespace Actor

variable (s : Actor F)

/-- `transport_announce_from_raw`. -/
def transportAnnounceFromRaw (cachedRaw : Bytes) (destinationHash : Octets 16) (hops : UInt8)
    (context : PacketContext) : Bytes :=
  match unpack cachedRaw, s.transportIdentityHash with
  | .ok (cachedHeader, payloadOffset), some transportId =>
    (relayHeader cachedHeader.flags.contextFlag hops transportId destinationHash context).pack ++
      cachedRaw.drop payloadOffset
  | _, _ => cachedRaw

/-- `path_response_from_cached_announce`. -/
def pathResponseFromCachedAnnounce (cachedRaw : Bytes) (destinationHash : Octets 16)
    (hops : UInt8) : Option Bytes :=
  match unpack cachedRaw with
  | .error _ => none
  | .ok (cachedHeader, payloadOffset) =>
    if pathfinderM ≤ cachedHeader.hops then none
    else
      let header := match s.transportIdentityHash with
        | some transportId =>
          relayHeader cachedHeader.flags.contextFlag hops transportId destinationHash .pathResponse
        | none =>
          { flags := { cachedHeader.flags with destinationType := .single, packetType := .announce }
            hops
            transportId := cachedHeader.transportId
            destinationHash
            context := .pathResponse }
      some (header.pack ++ cachedRaw.drop payloadOffset)

section

variable [Binary64 F]

/-! ### Which interfaces carry an announce -/

/-- The live path to a destination as a version. -/
def liveRoute (m : Moment F) (destinationHash : Octets 16) : Option (RouteVersion F) :=
  (s.pathTable.getLive m.now destinationHash).map RouteVersion.fromPath

/-- `interface_allows_announce`. -/
def interfaceAllowsAnnounce (m : Moment F) (id : ℕ) (destinationHash : Octets 16)
    (except : Option ℕ) : Bool :=
  match s.interfaces.get id with
  | none => false
  | some entry =>
    let isLocal := decide (destinationHash ∈ s.localDestinations)
    -- No live path; a path over an unregistered interface; a path over one of a mode.
    let fromIfaceMode := (s.pathTable.getLive m.now destinationHash).map fun path =>
      (s.interfaces.get path.interfaceId).map (·.mode)
    if !entry.outbound then false
    else if except = some id ∧ entry.role ≠ .normal then false
    else if !isLocal && fromIfaceMode.isNone then false
    else if !isLocal && !entry.announcesFromInternal && fromIfaceMode = some (some .internal) then
      false
    else match entry.mode with
      | .accessPoint => false
      | .internal => isLocal || fromIfaceMode ∉ [some none, some (some .boundary)]
      | .roaming =>
        isLocal || fromIfaceMode ∉ [some none, some (some .roaming), some (some .boundary)]
      | .boundary => isLocal || fromIfaceMode ∉ [some none, some (some .roaming)]
      | .full | .pointToPoint | .gateway => true

/-- `broadcast_announce_on_interfaces`. -/
def broadcastAnnounceOnInterfaces (m : Moment F) (raw : Bytes) (except : Option ℕ) : Actor F :=
  let destinationHash := (packetDestination raw).getD (Octets.replicate 16 0)
  let hops := raw.getD 1 0
  { s with
    interfaces := s.interfaces.mapValues fun id entry =>
      if s.interfaceAllowsAnnounce m id destinationHash except then
        { entry with
          announceQueue :=
            enqueue entry.announceQueue m.now destinationHash hops raw }
      else entry }

/-- Changing the queue of an interface. -/
def modifyQueue (id : ℕ) (f : List (QueuedAnnounce F) → List (QueuedAnnounce F)) : Actor F :=
  { s with
    interfaces := s.interfaces.modify id fun entry =>
      { entry with announceQueue := f entry.announceQueue } }

/-- `cull_announce_queues`. -/
def cullAnnounceQueues (m : Moment F) : Actor F :=
  { s with
    interfaces := s.interfaces.mapValues fun _ entry =>
      let queue := entry.announceQueue.filter (isLive m.now)
      { entry with announceQueue := queue.drop (queue.length - maxQueuedAnnounces) } }

/-- The time for which an announce keeps an interface from the next. -/
def announceDelay (entry : Interface F) (raw : Bytes) : F :=
  div
    (div (mul (ofRat raw.length) (ofRat 8)) (ofRat (max entry.bitrate 1 : ℕ)))
    (max entry.announceCap (ofRat (1 / 1000)))

end

/-! ### Handing announces over -/

section

variable [Sha256] [Ed25519] [Hkdf] [DecidableEq F] [Binary64 F]

/-- `try_prepared_announce`, but for the hand-over itself. -/
def tryPreparedAnnounce (entry : Interface F) (wire : Bytes) : InterfaceSendOutcome :=
  if !entry.ownerIsCurrent then .missing
  else if entry.packetCapacity.maxWirePacketBytes < wire.length ∨
      wire.length < entry.activeIfacBytes ∨
      !entry.acceptsClearPacket (wire.length - entry.activeIfacBytes) then .tooLarge
  else if !entry.outbound then .notOutbound
  else if entry.markedOffline then .offline
  else if entry.tx.closed then .closed
  else if entry.tx.room = 0 then .full
  else .sent

/-- The end of `admit_announce` where an interface has no room: the announce waits, if there is
space. A queued path response stays in the announce table otherwise. -/
def retainAnnounce (pending : PendingAnnounce F) : Actor F :=
  if s.pendingAnnounceAdmissions.length < maxPending then
    { s with pendingAnnounceAdmissions := s.pendingAnnounceAdmissions ++ [pending] }
  else if pending.cached.isSome then s
  else s.finishCachedResponse pending.cached pending.raw pending.interface

/-- `admit_announce`. -/
def admitAnnounce (m : Moment F) (id : ℕ) (raw : Bytes) (deadline : ℕ) (attached : Bool)
    (cached : Option (Octets 16 × F)) : Bool × Actor F :=
  let finished := s.finishCachedResponse cached raw id
  let waiting := s.pendingAnnounceAdmissions.any fun pending =>
    pending.interface = id && pending.raw = raw && pending.cached = cached &&
      (s.interfaces.get id).any fun entry => entry.tx.id = pending.channel
  if waiting then (false, s)
  else if deadline ≤ m.instant then (false, finished)
  else
    match s.interfaces.get id with
    | none => (false, finished)
    | some entry =>
      if !entry.acceptsClearPacket raw.length then (false, finished)
      else
        match entry.wire raw with
        | none => (false, s)
        | some wire =>
          let destination := packetDestination raw
          let localOwner := (destination.filter (· ∈ s.localDestinations)).map fun hash =>
            (hash, (s.destinationChannels.get hash).map (·.id))
          let route := destination.bind (s.liveRoute m)
          let retained := s.retainAnnounce
            { interface := id, channel := entry.tx.id, raw, wire, localOwner, route, deadline,
              attached, cached }
          match tryPreparedAnnounce entry wire with
          | .sent => (true, (s.accept .announce id entry raw).finishCachedResponse cached raw id)
          | .closed => (false, finished.deregisterInterface id)
          | .offline =>
            if entry.role = .localClient then (false, finished.deregisterInterface id)
            else (false, retained)
          | .full => (false, retained)
          | _ => (false, finished)

/-- `send_or_retain_announce`. -/
def sendOrRetainAnnounce (m : Moment F) (id : ℕ) (raw : Bytes) (attached : Bool) :
    Bool × Actor F :=
  s.admitAnnounce m id raw (m.instant + 120 * 10 ^ 9) attached none

/-- `admit_cached_response`. The time left is counted in nanoseconds. -/
def admitCachedResponse (m : Moment F) (hash : Octets 16) (id : ℕ) (raw : Bytes) (timestamp : F) :
    Actor F :=
  let gate : F := ofRat pathRequestGateTimeout
  let remaining := max (ofRat 0)
    (min gate (sub (add timestamp gate) m.now))
  let deadline := m.instant + toUsize (mul remaining (ofRat (10 ^ 9)))
  (s.admitAnnounce m id raw deadline true (some (hash, timestamp))).2

/-- `send_announce_to_local_clients`. -/
def sendAnnounceToLocalClients (m : Moment F) (cachedRaw : Bytes) (destinationHash : Octets 16)
    (hops : UInt8) (except : Option ℕ) (context : PacketContext) : Actor F :=
  let raw := s.transportAnnounceFromRaw cachedRaw destinationHash hops context
  (s.localClientInterfaceIdsExcept except).foldl
    (fun s id => (s.sendOrRetainAnnounce m id raw true).2) s

/-- One round of `process_pending_announce_admissions`. -/
def pollPendingAnnounce (m : Moment F) : Actor F :=
  match s.pendingAnnounceAdmissions with
  | [] => s
  | pending :: rest =>
    let s := { s with pendingAnnounceAdmissions := rest }
    let finished := s.finishCachedResponse pending.cached pending.raw pending.interface
    let retained := { s with pendingAnnounceAdmissions := rest ++ [pending] }
    match (s.interfaces.get pending.interface).filter fun entry => entry.tx.id = pending.channel with
    | none => finished
    | some entry =>
      if entry.tx.closed || entry.role = .localClient && entry.markedOffline then
        finished.deregisterInterface pending.interface
      else
        let destination := packetDestination pending.raw
        let eligible := pending.attached ||
          destination.any fun hash => s.interfaceAllowsAnnounce m pending.interface hash none
        let ownerLive := pending.localOwner.all fun owner =>
          decide (owner.1 ∈ s.localDestinations) &&
            match owner.2 with
            | some channel => (s.destinationChannels.get owner.1).any (·.id = channel)
            | none => !s.destinationChannels.contains owner.1
        let cachedCurrent := pending.cached.all fun cached =>
          ((s.announceTable.get cached.1).any fun entry => entry.blockRebroadcast &&
            entry.attachedInterface = some pending.interface && entry.packetRaw = pending.raw &&
            entry.timestamp = cached.2) &&
            decide (s.liveRoute m cached.1 = pending.route)
        let routeCurrent := pending.localOwner.isSome || pending.route.isNone ||
          destination.any fun hash => s.liveRoute m hash = pending.route
        if !routeCurrent || !entry.outbound || !eligible || !ownerLive || !cachedCurrent ||
            pending.deadline ≤ m.instant then finished
        else if entry.markedOffline then retained
        else
          match tryPreparedAnnounce entry pending.wire with
          | .sent =>
            (s.accept .announce pending.interface entry pending.raw).finishCachedResponse
              pending.cached pending.raw pending.interface
          | .full | .offline => retained
          | _ => finished

/-- `process_pending_announce_admissions`. -/
def processPendingAnnounceAdmissions (m : Moment F) : Actor F :=
  (fun s => s.pollPendingAnnounce m)^[min maxPoll s.pendingAnnounceAdmissions.length] s

/-! ### Announces for idle drivers -/

/-- One interface of `process_background_starts`. -/
def processBackgroundStart (m : Moment F) (id : ℕ) : Actor F :=
  match s.offeredAnnounces.get id with
  | none => s
  | some offered =>
    let s := { s with offeredAnnounces := s.offeredAnnounces.erase id }
    let dropped := s.modifyQueue id (·.filter fun queued => queued.raw ≠ offered.raw)
    let registered := (s.interfaces.get id).filter fun entry => entry.tx.id = offered.channel
    match m.offerState id with
    | .started time =>
      if registered.isSome then
        { dropped with
          interfaces := dropped.interfaces.modify id fun entry =>
            { entry with
              announceAllowedAt := max entry.announceAllowedAt
                (add time (announceDelay entry offered.raw)) } }
      else s
    | .waiting =>
      let current := registered.any fun entry =>
        entry.announceQueue.any fun queued => queued.raw = offered.raw
      let route := s.liveRoute m offered.destination
      let eligible := s.interfaceAllowsAnnounce m id offered.destination none
      let policyCurrent := (s.interfaces.get id).any fun entry =>
        decide ((entry.bitrate, entry.announceCap, entry.ifacKey, entry.ifacSize) =
          offered.policy) && le entry.announceAllowedAt m.now && !entry.markedOffline
      if current && decide (route = offered.route) && eligible && policyCurrent then
        { s with offeredAnnounces := s.offeredAnnounces.insert id offered }
      else if current && (decide (route ≠ offered.route) || !eligible) then dropped
      else s
    | .closed => s

/-- `process_background_starts`. -/
def processBackgroundStarts (m : Moment F) : Actor F :=
  s.offeredAnnounces.keys.foldl (fun s id => s.processBackgroundStart m id) s

/-- A driver took the offer of an announce. -/
def offer (id : ℕ) (offered : OfferedAnnounce F) : Actor F :=
  { s with
    offeredAnnounces := s.offeredAnnounces.insert id offered
    transmissions := s.transmissions ++ [⟨.announce, id, offered.raw⟩] }

/-- One interface of `process_announce_queues`. -/
def processAnnounceQueue (m : Moment F) (id : ℕ) : Actor F :=
  match s.interfaces.get id with
  | none => s
  | some entry =>
    if entry.announceQueue.isEmpty || !le entry.announceAllowedAt m.now ||
        !entry.outbound || entry.markedOffline || s.offeredAnnounces.contains id then s
    else
      let queue := entry.announceQueue.filter (isLive m.now)
      let s := s.modifyQueue id (·.filter (isLive m.now))
      match select queue with
      | none => s
      | some (queued, idx) =>
        let raw := queued.raw
        let dropped := s.modifyQueue id (·.eraseIdx idx)
        match unpack raw with
        | .error _ => dropped
        | .ok (header, _) =>
          let destination := header.destinationHash
          -- The path was learned from another announce by now.
          let obsolete := decide (destination ∉ s.localDestinations) &&
            (s.pathTable.getLive m.now destination).any fun path =>
              path.packetHash.any fun hash => some hash ≠ packetHash raw header.flags.headerType
          if obsolete || !s.interfaceAllowsAnnounce m id destination none then dropped
          else if entry.background then
            if !entry.acceptsClearPacket raw.length then dropped
            else if (entry.wire raw).isSome && m.takesOffer id then
              s.offer id
                { channel := entry.tx.id
                  raw
                  destination
                  route := s.liveRoute m destination
                  policy := (entry.bitrate, entry.announceCap, entry.ifacKey, entry.ifacSize) }
            else s
          else
            match s.trySendToInterface .announce id raw with
            | (.sent, sent) =>
              { sent with
                interfaces := sent.interfaces.modify id fun entry =>
                  { entry with
                    announceAllowedAt := add m.now (announceDelay entry raw)
                    announceQueue := entry.announceQueue.eraseIdx idx } }
            | (.full, _) | (.offline, _) => s
            | (_, _) => dropped

/-- `process_announce_queues`. -/
def processAnnounceQueues (m : Moment F) : Actor F :=
  s.interfaces.keys.foldl (fun s id => s.processAnnounceQueue m id) s

/-! ### Answers to a search -/

/-- `discovery_waiter_registered`, of interface and channel. -/
def discoveryWaiterRegistered (waiter : ℕ × ℕ) : Bool :=
  (s.interfaces.get waiter.1).any fun entry =>
    entry.outbound && !entry.tx.closed && entry.tx.id = waiter.2

/-- `finish_recursive_discovery`. -/
def finishRecursiveDiscovery (m : Moment F) (destination : Octets 16) (response : Bytes)
    (incoming : ℕ) : Actor F :=
  match s.discoveryPathRequests.get destination with
  | none => s
  | some operation =>
    let s := Actor.retireOrphanedDiscoveryAdmissions
      { s with discoveryPathRequests := s.discoveryPathRequests.erase destination }
    if !isFinite m.now || le operation.timeout m.now then s
    else operation.requesters.foldl
      (fun s waiter =>
        let eligible := s.discoveryWaiterRegistered waiter &&
          (s.interfaces.get waiter.1).any fun entry => !entry.markedOffline &&
            (decide (waiter.1 ≠ incoming) ||
              decide (entry.role = .normal) && decide (entry.mode ≠ .roaming))
        if eligible then (s.sendOrRetainAnnounce m waiter.1 response true).2 else s)
      s

end

/-! ### What these functions can do -/

section

variable (Q : Cause → Bytes → Prop) {s : Actor F}

theorem modifyQueue_quiet (id : ℕ) {f : List (QueuedAnnounce F) → List (QueuedAnnounce F)}
    (hf : ∀ queue, f queue ⊆ queue) : Quiet Q s (s.modifyQueue id f) :=
  (Quiet.refl Q s).modify_interface id (fun _ => ⟨rfl, .refl _⟩) fun entry _ hq =>
    .inl (hf entry.announceQueue hq)

variable {id : ℕ}

theorem offer_quiet {s' : Actor F} (h : Quiet Q s s') {offered : OfferedAnnounce F}
    (hraw : s.Holds .announce offered.raw ∨ Q .announce offered.raw) :
    Quiet Q s (s'.offer id offered) := by
  have hoffered : Quiet Q s
      { s' with offeredAnnounces := s'.offeredAnnounces.insert id offered } := by
    refine h.set_offered fun id' o ho => ?_
    obtain ⟨-, rfl⟩ | ho := Table.of_get_insert ho
    · exact hraw
    · exact h.calm.holds .announce o.raw (.inr (.inr (.inr (.inr ⟨id', o, ho, rfl⟩))))
  exact ⟨hoffered.calm.transmit id hraw, hoffered.steady.transmit (by decide) id offered.raw⟩

variable [Binary64 F] {m : Moment F} {except : Option ℕ}

theorem broadcastAnnounceOnInterfaces_quiet :
    Quiet (fun c r => c = .announce ∧ r = raw) s (s.broadcastAnnounceOnInterfaces m raw except) := by
  refine (Quiet.refl _ s).mapValues_interfaces (fun id entry => ?_) fun id entry => ?_
  · split_ifs <;> exact ⟨rfl, .refl _⟩
  · split_ifs
    · exact fun q hq => (mem_of_mem_enqueue hq).imp_right fun h => ⟨rfl, h⟩
    · exact fun _ hq => .inl hq

theorem cullAnnounceQueues_quiet : Quiet Q s (s.cullAnnounceQueues m) := by
  refine (Quiet.refl Q s).mapValues_interfaces (fun _ _ => ⟨rfl, .refl _⟩) fun _ entry q hq => ?_
  dsimp only at hq
  exact .inl (mem_of_mem_filter (mem_of_mem_drop hq))

variable [DecidableEq F]

omit [Binary64 F] in
theorem retainAnnounce_quiet {pending : PendingAnnounce F} (hraw : pending.raw = raw) :
    Quiet (fun c r => c = .announce ∧ r = raw) s (s.retainAnnounce pending) := by
  unfold retainAnnounce
  split_ifs
  · refine (Quiet.refl _ s).set_pendingAnnounces fun p hp => ?_
    rcases mem_append.mp hp with hp | hp
    · exact .inl (.inr (.inr (.inr (.inl ⟨p, hp, rfl⟩))))
    · rw [mem_singleton.mp hp]
      exact .inr ⟨rfl, hraw⟩
  · exact .refl _ s
  · exact finishCachedResponse_quiet _ s _ _ _

theorem pollPendingAnnounce_quiet : Quiet Q s (s.pollPendingAnnounce m) := by
  unfold pollPendingAnnounce
  split
  · exact .refl Q s
  next pending rest hpending =>
    have hold (p : PendingAnnounce F) (hp : p ∈ pending :: rest) :
        s.Holds .announce p.raw ∨ Q .announce p.raw :=
      .inl (.inr (.inr (.inr (.inl ⟨p, hpending ▸ hp, rfl⟩))))
    have hrest : Quiet Q s { s with pendingAnnounceAdmissions := rest } :=
      (Quiet.refl Q s).set_pendingAnnounces fun p hp => hold p (mem_cons_of_mem _ hp)
    have hretained : Quiet Q s { s with pendingAnnounceAdmissions := rest ++ [pending] } :=
      (Quiet.refl Q s).set_pendingAnnounces fun p hp => hold p (by simpa [or_comm] using hp)
    have hfinished := hrest.trans
      (finishCachedResponse_quiet Q _ pending.interface pending.cached pending.raw)
    dsimp only
    split
    · exact hfinished
    next entry he =>
      split
      · exact hfinished.trans (deregisterInterface_quiet Q _ _)
      split
      · exact hfinished
      split
      · exact hretained
      split
      · exact (hrest.accept (by decide) (Option.filter_eq_some_iff.mp he).1
          (hold pending mem_cons_self)).trans (finishCachedResponse_quiet Q _ _ _ _)
      · exact hretained
      · exact hretained
      · exact hfinished

theorem processPendingAnnounceAdmissions_quiet : Quiet Q s (s.processPendingAnnounceAdmissions m) :=
  Quiet.iterate (fun _ => pollPendingAnnounce_quiet Q) _ _

theorem processBackgroundStart_quiet : Quiet Q s (s.processBackgroundStart m id) := by
  unfold processBackgroundStart
  split
  · exact .refl Q s
  next offered hoffered =>
    have herased : Quiet Q s { s with offeredAnnounces := s.offeredAnnounces.erase id } :=
      (Quiet.refl Q s).set_offered fun id' o ho =>
        .inl (.inr (.inr (.inr (.inr ⟨id', o, Table.Sub.erase _ _ ho, rfl⟩))))
    have hdropped := herased.trans (modifyQueue_quiet Q id
      (f := fun queue => queue.filter fun queued => queued.raw ≠ offered.raw)
      fun _ _ => mem_of_mem_filter)
    dsimp only
    split
    · split
      · exact hdropped.modify_interface id (fun _ => ⟨rfl, .refl _⟩) fun _ _ hq => .inl hq
      · exact herased
    · split
      · refine herased.set_offered fun id' o ho => ?_
        obtain ⟨-, rfl⟩ | ho := Table.of_get_insert ho
        · exact .inl (.inr (.inr (.inr (.inr ⟨id, _, hoffered, rfl⟩))))
        · exact .inl (.inr (.inr (.inr (.inr ⟨id', o, Table.Sub.erase _ _ ho, rfl⟩))))
      · split
        · exact hdropped
        · exact herased
    · exact herased

theorem processBackgroundStarts_quiet : Quiet Q s (s.processBackgroundStarts m) :=
  Quiet.foldl (fun _ _ => processBackgroundStart_quiet Q) _ _

variable [Sha256] [Ed25519] [Hkdf]

theorem admitAnnounce_quiet {deadline : ℕ} {attached : Bool} {cached : Option (Octets 16 × F)} :
    Quiet (fun c r => c = .announce ∧ r = raw) s
      (s.admitAnnounce m id raw deadline attached cached).2 := by
  have hself := Quiet.refl (fun c r => c = .announce ∧ r = raw) s
  have hfinished := finishCachedResponse_quiet (fun c r => c = .announce ∧ r = raw) s id cached raw
  have hderegistered := hfinished.trans (deregisterInterface_quiet _ _ id)
  unfold admitAnnounce
  dsimp only
  split
  · exact hself
  split
  · exact hfinished
  split
  · exact hfinished
  next entry he =>
    split
    · exact hfinished
    split
    · exact hself
    split
    · exact (hself.accept (by decide) he (.inr ⟨rfl, rfl⟩)).trans
        (finishCachedResponse_quiet _ _ id cached raw)
    · exact hderegistered
    · split
      · exact hderegistered
      · exact retainAnnounce_quiet rfl
    · exact retainAnnounce_quiet rfl
    · exact hfinished

theorem sendOrRetainAnnounce_quiet {attached : Bool} :
    Quiet (fun c r => c = .announce ∧ r = raw) s (s.sendOrRetainAnnounce m id raw attached).2 :=
  admitAnnounce_quiet

theorem admitCachedResponse_quiet {hash : Octets 16} {timestamp : F} :
    Quiet (fun c r => c = .announce ∧ r = raw) s (s.admitCachedResponse m hash id raw timestamp) :=
  admitAnnounce_quiet

theorem sendAnnounceToLocalClients_quiet {cachedRaw : Bytes} {hops : UInt8}
    {context : PacketContext} :
    Quiet (fun c r => c = .announce ∧
        r = s.transportAnnounceFromRaw cachedRaw destinationHash hops context) s
      (s.sendAnnounceToLocalClients m cachedRaw destinationHash hops except context) :=
  Quiet.foldl (fun _ _ => sendOrRetainAnnounce_quiet) _ _

omit [DecidableEq F] in
theorem processAnnounceQueue_quiet : Quiet Q s (s.processAnnounceQueue m id) := by
  unfold processAnnounceQueue
  split
  · exact .refl Q s
  next entry he =>
    split
    · exact .refl Q s
    have hlive := modifyQueue_quiet Q (s := s) id
      (f := fun queue => queue.filter (isLive m.now))
      fun _ _ => mem_of_mem_filter
    dsimp only
    split
    · exact hlive
    next queued idx hselect =>
      have hraw : s.Holds .announce queued.raw ∨ Q .announce queued.raw :=
        .inl (.inr (.inr (.inl ⟨id, entry, he, queued,
          mem_of_mem_filter (mem_of_select hselect), rfl⟩)))
      have hdropped := hlive.trans (modifyQueue_quiet Q id
        (f := fun queue => queue.eraseIdx idx) fun _ _ => mem_of_mem_eraseIdx)
      split
      · exact hdropped
      next header _ _ =>
        split
        · exact hdropped
        split
        · split
          · exact hdropped
          split
          · exact offer_quiet Q hlive hraw
          · exact hlive
        · split
          next sent htry =>
            have hsent : Quiet Q s sent := by
              obtain ⟨-, entry', _, he', rfl⟩ | ⟨hne, -⟩ := trySendToInterface_eq htry
              · have haccepted := hlive.accept (by decide) he' hraw
                exact ⟨{ haccepted.calm with }, { haccepted.steady with }⟩
              · exact absurd rfl hne
            exact hsent.modify_interface id (fun _ => ⟨rfl, .refl _⟩) fun _ _ hq =>
              .inl (mem_of_mem_eraseIdx hq)
          · exact hlive
          · exact hlive
          · exact hdropped

omit [DecidableEq F] in
theorem processAnnounceQueues_quiet : Quiet Q s (s.processAnnounceQueues m) :=
  Quiet.foldl (fun _ _ => processAnnounceQueue_quiet Q) _ _

theorem finishRecursiveDiscovery_quiet {destination : Octets 16} {response : Bytes} {incoming : ℕ} :
    Quiet (fun c r => c = .announce ∧ r = response) s
      (s.finishRecursiveDiscovery m destination response incoming) := by
  unfold finishRecursiveDiscovery
  split
  · exact .refl _ s
  next operation _ =>
    have hretired := retire_discovery_quiet (fun c r => c = .announce ∧ r = response) s
      (s.discoveryPathRequests.erase destination)
    dsimp only
    split
    · exact hretired
    · refine hretired.trans (Quiet.foldl (fun s waiter => ?_) _ _)
      split
      · exact sendOrRetainAnnounce_quiet
      · exact .refl _ s

end

end Actor

end Reticulum.Transport
