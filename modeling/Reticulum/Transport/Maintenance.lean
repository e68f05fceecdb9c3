import Reticulum.Transport.Effects

/-!
# The periodic work of a node

On every tick of its timer a node retries what interfaces refused, drops what is too old, sends the
announces that are due, and releases announces that it held back. The functions follow
`actor/maintenance.rs` and `ingress.rs` of the `rns-transport` crate; the packets that endpoints of
local links still have to send are not part of this state. A sweep of the cache is done at once,
where the source leaves it to another thread.
-/

namespace Reticulum.Transport

open Wire Binary64 Table

variable {F : Type}

/-! ### Constants -/

/-- `STARTUP_GRACE_PERIOD`. -/
def startupGracePeriod : ℚ := 3

/-- `TABLES_CULL_INTERVAL`. -/
def tablesCullInterval : ℚ := 5

/-- `ANNOUNCES_CHECK_INTERVAL`. -/
def announcesCheckInterval : ℚ := 1

/-- `IC_HELD_RELEASE_INTERVAL`. -/
def icHeldReleaseInterval : ℚ := 5

/-- `BLACKHOLE_CHECK_INTERVAL`. -/
def blackholeCheckInterval : ℚ := 60

/-- `RECEIPTS_CHECK_INTERVAL`. -/
def receiptsCheckInterval : ℚ := 1

/-- `CACHE_CLEAN_INTERVAL`. -/
def cacheCleanInterval : ℚ := 300

/-- `ANNOUNCE_CACHE_SWEEP_INTERVAL`. -/
def announceCacheSweepInterval : ℚ := 900

/-- `PATHFINDER_G`. -/
def pathfinderG : ℚ := 5

/-- `PATH_REQUEST_MI`. -/
def pathRequestMi : ℚ := 20

/-- `MAX_QUEUED_DISCOVERY_PRS`. -/
def maxQueuedDiscoveryPrs : ℕ := 32

/-- `MAX_DISCOVERY_PR_TAGS`. -/
def maxDiscoveryPrTags : ℕ := 32000

/-- `UNUSED_DESTINATION_LINGER`. -/
def unusedDestinationLinger : ℚ := 360

/-- `DESTINATION_TIMEOUT`. -/
def destinationTimeout : ℚ := 604800

/-- `IngressController::try_release_held`: one of the held announces of least hops, where rate and
time allow it. -/
def Interface.tryReleaseHeld (entry : Interface F) (releases : Bool) :
    Option (HeldAnnounce × Interface F) :=
  if releases then
    (entry.heldAnnounces.toList.argmin fun e => e.2.hops.toNat).map fun e =>
      (e.2, { entry with heldAnnounces := entry.heldAnnounces.erase e.1 })
  else none

namespace Actor

section

variable [Binary64 F] (s : Actor F) (m : Moment F)

/-- Whether an interval has passed since the last time. -/
def elapsed (last : F) (interval : ℚ) : Bool :=
  le (ofRat interval) (sub m.now last)

/-- The end of the startup. -/
def completeStartup : Actor F :=
  let t := s.timers
  if !t.startupComplete && lt (ofRat 0) t.startupTime &&
      elapsed m t.startupTime startupGracePeriod then
    { s with timers := { t with startupComplete := true } }
  else s

/-! ### Old entries of the tables -/

/-- Whether `cull_stale_tunnel_paths` drops a path of a tunnel. -/
def isStaleTunnelPath (destHash : Octets 16) (path : TunnelPath F) : Bool :=
  lt (add path.timestamp (ofRat tunnelTimeout)) m.now ||
    (s.pathTable.getLive m.now destHash).any fun active =>
      decide (pathTimebaseFromRandomBlobs path.randomBlobs <
        pathTimebaseFromRandomBlobs active.randomBlobs)

/-- `cull_stale_tunnel_paths`. -/
def cullStaleTunnelPaths : Actor F :=
  { s with
    tunnelTable :=
      { s.tunnelTable with
        entries := s.tunnelTable.entries.mapValues fun _ tunnel =>
          { tunnel with
            tunnelPaths := tunnel.tunnelPaths.retain fun destHash path =>
              !s.isStaleTunnelPath m destHash path } } }

/-- The culls of `on_tick` before it looks at expired links. -/
def cullExpired : Actor F :=
  Actor.cullStaleTunnelPaths
    { s with
      pathTable := s.pathTable.cullExpiredBatch m.now 100
      reverseTable := cullExpiredReverse s.reverseTable m.now 100
      tunnelTable := s.tunnelTable.cullExpiredBatch m.now 50 } m

/-- The entries over interfaces that are gone are dropped, and suppressions that have ended. -/
def cullDeadInterfaces : Actor F :=
  let active (id : ℕ) : Bool := s.interfaces.contains id
  { s with
    pathInterfaceSuppressions := s.pathInterfaceSuppressions.retain fun _ til =>
      lt m.now til
    pathTable := s.pathTable.cullDeadInterfaces active
    reverseTable := cullDeadReverse s.reverseTable active
    linkTable := s.linkTable.cullDeadInterfaces active }

/-! ### Searches for lost paths -/

/-- `mark_failed_link_path_unresponsive`. -/
def markFailedLinkPathUnresponsive (expired : LinkEntry F) : Actor F :=
  let receivingIsBoundary := (s.interfaces.get expired.receivingInterface).any fun entry =>
    entry.mode = .boundary
  if s.isTransportEnabled && !receivingIsBoundary then
    { s with pathTable := s.pathTable.setState expired.destinationHash .unresponsive }
  else s

/-- The end of `rediscovery_request_for_expired_link`, where a request is made. -/
def rediscover (destinationHash : Octets 16) (blocked : Option ℕ) :
    Option (Octets 16 × Option ℕ) × Actor F :=
  (some (destinationHash, blocked),
    if s.isTransportEnabled then s
    else { s with pathTable := s.pathTable.expire m.now destinationHash })

/-- `rediscovery_request_for_expired_link`. -/
def rediscoveryRequestForExpiredLink (expired : LinkEntry F) :
    Option (Octets 16 × Option ℕ) × Actor F :=
  let lastPathRequest := (s.pathRequests.get expired.destinationHash).getD (ofRat 0)
  let throttled := lt (sub m.now lastPathRequest) (ofRat pathRequestMi)
  match s.pathTable.getLive m.now expired.destinationHash with
  | none => s.rediscover m expired.destinationHash none
  | some path =>
    if throttled then (none, s)
    else if expired.takenHops = 0 then s.rediscover m expired.destinationHash none
    else if path.hops = 1 ∨ expired.takenHops = 1 then
      (s.markFailedLinkPathUnresponsive expired).rediscover m expired.destinationHash
        (some expired.receivingInterface)
    else (none, s)

/-- `queue_discovery_path_request`. -/
def queueDiscoveryPathRequest (destinationHash : Octets 16) (blocked : Option ℕ) : Actor F :=
  if maxQueuedDiscoveryPrs ≤ s.pendingDiscoveryPrs.length then s
  else
    { s with
      pendingDiscoveryPrs := s.pendingDiscoveryPrs ++ [(destinationHash, blocked)]
      timers :=
        if s.pendingDiscoveryPrs.isEmpty then { s.timers with lastDiscoveryPrTx := m.now }
        else s.timers }

/-- One expired link of `on_tick`, with the destinations that are queued already. -/
def handleExpiredLink (queued : List (Octets 16)) (expired : LinkEntry F) :
    List (Octets 16) × Actor F :=
  match s.rediscoveryRequestForExpiredLink m expired with
  | (none, s) => (queued, s)
  | (some (destinationHash, blocked), s) =>
    if destinationHash ∈ queued then (queued, s)
    else (destinationHash :: queued, s.queueDiscoveryPathRequest m destinationHash blocked)

/-- The part of `on_tick` about expired links. -/
def cullStaleLinks : Actor F :=
  let (linkTable, expired) := s.linkTable.cullStale m.now
  (expired.foldl (fun (queued, s) e => s.handleExpiredLink m queued e)
    (([] : List (Octets 16)), { s with linkTable })).2

/-- The part of `on_tick` about old entries of the tables. -/
def cullTables : Actor F :=
  if elapsed m s.timers.lastTablesCull tablesCullInterval then
    let s := ((s.cullExpired m).cullDeadInterfaces m).cullStaleLinks m
    { s with timers := { s.timers with lastTablesCull := m.now } }
  else s

/-! ### Other old entries -/

/-- The part of `on_tick` about blackholed identities. -/
def checkBlackholes : Actor F :=
  if elapsed m s.timers.lastBlackholeCheck blackholeCheckInterval then
    { s with
      blackholeTable := s.blackholeTable.retain fun _ entry => entry.ttl.all fun ttl =>
        lt (sub m.now entry.created) ttl
      timers := { s.timers with lastBlackholeCheck := m.now } }
  else s

/-- The part of `on_tick` about receipts. -/
def checkReceipts : Actor F :=
  if elapsed m s.timers.lastReceiptsCheck receiptsCheckInterval then
    { s with
      receipts := s.receipts.tick m.instant
      timers := { s.timers with lastReceiptsCheck := m.now } }
  else s

/-- Whether `cleanup_known_destinations` drops an announce. -/
def forgets (announce : RecentAnnounce F) : Bool :=
  !announce.retained && (s.pathTable.getLive m.now announce.destHash).isNone &&
    match announce.lastUsed with
    | none => lt (ofRat unusedDestinationLinger)
        (sub m.now announce.timestamp)
    | some lastUsed =>
      lt (mul (ofRat destinationTimeout) (ofRat (5 / 4)))
        (sub m.now (max lastUsed announce.timestamp))

/-- `cleanup_known_destinations`. -/
def cleanupKnownDestinations : Actor F :=
  { s with
    recentAnnounces := (s.recentAnnounces.values.filter (s.forgets m)).foldl
      (fun recent announce => recent.erase announce.destHash) s.recentAnnounces }

/-- The part of `on_tick` about hashes of packets and known destinations. -/
def cleanCaches : Actor F :=
  if s.timers.startupComplete && elapsed m s.timers.lastCacheClean cacheCleanInterval then
    let s := Actor.cleanupKnownDestinations
      { s with packetHashlist := s.packetHashlist.forceRotate } m
    { s with timers := { s.timers with lastCacheClean := m.now } }
  else s

/-- The cached announces that `maybe_sweep_announce_cache` keeps. -/
def keepsCached (hash : Octets 32) : Bool :=
  (s.pathTable.entries.values.any fun path => path.packetHash = some hash) ||
  (s.tunnelTable.entries.values.any fun tunnel => tunnel.tunnelPaths.values.any fun path =>
    path.packetHash = some hash) ||
  s.recentAnnounces.values.any fun announce => announce.retained && announce.packetHash = some hash

/-- `maybe_sweep_announce_cache`, where it is due. -/
def sweepAnnounceCache : Actor F :=
  if elapsed m s.timers.lastAnnounceCacheSweep announceCacheSweepInterval &&
      !s.sharedInstanceClientMode then
    match s.announceCache with
    | none => s
    | some cache =>
      { s with
        announceCache := some (cache.retain fun hash _ => s.keepsCached hash || !m.sweeps hash)
        timers := { s.timers with lastAnnounceCacheSweep := m.now } }
  else s

/-- Whether a time is within the gate of path requests. -/
def withinGate (last : F) : Bool :=
  lt (sub m.now last) (ofRat pathRequestGateTimeout)

/-- The tags of path requests: the oldest beyond the cap leave. -/
def capDiscoveryPrTags (tags : Table Bytes F) : Table Bytes F :=
  ((tags.toList.mergeSort fun a b => !lt b.2 a.2).take
    (tags.size - maxDiscoveryPrTags)).foldl (fun tags e => tags.erase e.1) tags

/-- The part of `on_tick` about requests for paths. -/
def cullPathRequests : Actor F :=
  let s := Actor.cullRecursiveDiscovery
    { s with pathRequests := s.pathRequests.retain fun _ last => withinGate m last } m
  { s with
    discoveryPrTags :=
      capDiscoveryPrTags (s.discoveryPrTags.retain fun _ last => withinGate m last) }

end

/-! ### Announces -/

section

variable [Sha256] [Ed25519] [Hkdf] [DecidableEq F] [Binary64 F] (s : Actor F) (m : Moment F)

/-- One announce that is due. A queued path response goes to its interface, any other announce into
the queues of all interfaces that may carry it. -/
def retransmitAnnounce (hash : Octets 16) : Actor F :=
  match s.announceTable.get hash with
  | none => s
  | some entry =>
    match entry.attachedInterface, entry.blockRebroadcast with
    | some attached, true => s.admitCachedResponse m hash attached entry.packetRaw entry.timestamp
    | _, _ =>
      Actor.broadcastAnnounceOnInterfaces
        { s with
          announceTable := s.announceTable.insert hash
            { entry with
              retries := entry.retries + 1
              retransmitTimeout := add
                (add m.now (ofRat pathfinderG)) (m.randWindow hash) } }
        m entry.packetRaw entry.sourceInterface

/-- The part of `on_tick` about the announces that are due. -/
def checkAnnounces : Actor F :=
  if elapsed m s.timers.lastAnnouncesCheck announcesCheckInterval then
    let s := (dueForRetransmit s.announceTable m.now).foldl
      (fun s hash => s.retransmitAnnounce m hash) s
    { s with
      announceTable := cullExhausted s.announceTable pathfinderR
      timers := { s.timers with lastAnnouncesCheck := m.now } }
  else s

/-- One interface of `process_held_announces`. -/
def processHeldAnnounce (id : ℕ) : Actor F :=
  match (s.interfaces.get id).bind (·.tryReleaseHeld (m.releasesHeld id)) with
  | none => s
  | some (announce, entry) =>
    Actor.onReleasedAnnounce { s with interfaces := s.interfaces.insert id entry } m announce

/-- `process_held_announces`. -/
def processHeldAnnounces : Actor F :=
  s.interfaces.keys.foldl (fun s id => s.processHeldAnnounce m id) s

/-- The part of `on_tick` about announces that were held back. -/
def checkHeldAnnounces : Actor F :=
  if elapsed m s.timers.lastHeldAnnounceCheck icHeldReleaseInterval then
    let s := s.processHeldAnnounces m
    { s with timers := { s.timers with lastHeldAnnounceCheck := m.now } }
  else s

/-- `process_pending_discovery_path_requests`. A request that avoids no interface has one tag. -/
def processPendingDiscoveryPathRequests : Actor F :=
  match s.pendingDiscoveryPrs with
  | [] => s
  | (destinationHash, blocked) :: rest =>
    if lt (sub m.now s.timers.lastDiscoveryPrTx)
        (ofRat discoveryPrTxThrottle) then s
    else
      Actor.forwardPathRequest
        { s with
          pendingDiscoveryPrs := rest
          timers := { s.timers with lastDiscoveryPrTx := m.now } }
        m destinationHash blocked (if blocked.isSome then none else some (m.randomTag 0).1) false

/-- The part of `on_tick` before the announces that were held back. -/
def tickAnnounces : Actor F :=
  ((((s.processBackgroundStarts m).processPendingAnnounceAdmissions m).completeStartup m).cullTables
    m).checkAnnounces m

/-- The part of `on_tick` behind them, before the requests for paths. -/
def tickCaches : Actor F :=
  (((((s.cullAnnounceQueues m).checkBlackholes m).checkReceipts m).cleanCaches m).sweepAnnounceCache
    m).cullPathRequests m

/-- `on_tick`. -/
def onTick : Actor F :=
  let s := ((s.tickAnnounces m).checkHeldAnnounces m).tickCaches m
  ((s.processPendingDiscoveryPathRequests m).processPendingPathRequestAdmissions
    m).processAnnounceQueues m

end

/-! ### What these functions can do -/

variable {g : Gain F}

section

variable [Binary64 F] {Q : Cause → Bytes → Prop} {s s' s'' : Actor F} {m : Moment F}

omit [Binary64 F] in
theorem Quiet.set_timers (h : Quiet Q s s') (timers : Timers F) : Quiet Q s { s' with timers } :=
  h.trans ⟨{ Calm.refl Q s' with }, { Steady.refl s' with }⟩

theorem completeStartup_quiet : Quiet Q s (s.completeStartup m) := by
  unfold completeStartup
  dsimp only
  split
  · exact (Quiet.refl Q s).set_timers _
  · exact .refl Q s

/-- A batch of paths is removed. -/
theorem cullExpiredBatch_sub (t : PathTable F) (now : F) (limit : ℕ) :
    Sub (t.cullExpiredBatch now limit).entries t.entries := by
  have hfold (l : List (Octets 16 × RouteEntry F)) (t : PathTable F) :
      Sub (l.foldl (fun t e => t.remove e.1) t).entries t.entries := by
    induction l generalizing t with
    | nil => exact .refl _
    | cons e l ih => exact (ih _).trans (.erase _ _)
  exact hfold _ t

theorem knows_of_cullExpiredBatch {t : TunnelTable F} {now : F} {limit : ℕ} {destHash : Octets 16}
    {path : TunnelPath F} (h : (t.cullExpiredBatch now limit).Knows destHash path) :
    t.Knows destHash path := by
  obtain ⟨tunnelId, entry, he, hp⟩ := h
  exact ⟨tunnelId, entry, Sub.foldl_erase _ _ _ he, hp⟩

theorem cullStaleTunnelPaths_quiet : Quiet Q s (s.cullStaleTunnelPaths m) := by
  refine ⟨{ Calm.refl Q s with tunnels := fun destHash path hp => ?_ }, { Steady.refl s with }⟩
  obtain ⟨tunnelId, entry', he, hp⟩ := hp
  simp only [cullStaleTunnelPaths, get_mapValues] at he
  obtain ⟨entry, hget, rfl⟩ := Option.map_eq_some_iff.mp he
  exact ⟨tunnelId, entry, hget, Sub.retain _ _ hp⟩

theorem cullExpired_quiet : Quiet Q s (s.cullExpired m) := by
  refine .trans ?_ cullStaleTunnelPaths_quiet
  exact ⟨{ Calm.refl Q s with
    paths := cullExpiredBatch_sub _ _ _
    tunnels := fun _ _ => knows_of_cullExpiredBatch }, { Steady.refl s with }⟩

theorem cullDeadInterfaces_quiet : Quiet Q s (s.cullDeadInterfaces m) :=
  ⟨{ Calm.refl Q s with links := Sub.retain _ _, paths := Sub.retain _ _ }, { Steady.refl s with }⟩

/-! ### Searches for lost paths -/

/-- A path that was known before, but for its expiry. -/
def Kept (s : Actor F) (destHash : Octets 16) (path : RouteEntry F) : Prop :=
  ∃ before, s.pathTable.get destHash = some before ∧ path.hops = before.hops ∧
    path.packetHash = before.packetHash

/-- Work that queues requests for lost paths, and changes the states and expiries of paths. -/
structure Rediscovers (s s' : Actor F) : Prop where
  eq : ∃ pathTable pendingDiscoveryPrs timers,
    s' = { s with pathTable, pendingDiscoveryPrs, timers }
  kept : ∀ destHash path, s'.pathTable.get destHash = some path → s.Kept destHash path

namespace Rediscovers

omit [Binary64 F]

theorem refl (s : Actor F) : Rediscovers s s where
  eq := ⟨_, _, _, rfl⟩
  kept _ path hp := ⟨path, hp, rfl, rfl⟩

theorem trans (h : Rediscovers s s') (h' : Rediscovers s' s'') : Rediscovers s s'' where
  eq := by
    obtain ⟨_, _, _, rfl⟩ := h.eq
    obtain ⟨_, _, _, rfl⟩ := h'.eq
    exact ⟨_, _, _, rfl⟩
  kept destHash path hp := by
    obtain ⟨path', hp', hhops', hhash'⟩ := h'.kept destHash path hp
    obtain ⟨before, hget, hhops, hhash⟩ := h.kept destHash path' hp'
    exact ⟨before, hget, hhops'.trans hhops, hhash'.trans hhash⟩

theorem brings (h : Rediscovers s s')
    (hpaths : ∀ destHash path, s.Kept destHash path → g.paths destHash path) : Brings g s s' := by
  obtain ⟨pathTable, pendingDiscoveryPrs, timers, rfl⟩ := h.eq
  exact ⟨{ Gains.refl g s with
    paths := fun destHash path hp => .inr (hpaths destHash path (h.kept destHash path hp)) },
    { Steady.refl s with }⟩

end Rediscovers

variable (destHash : Octets 16)

/-- A path that is expired at once is dropped, or stays with another expiry. -/
theorem expire_rediscovers :
    Rediscovers s { s with pathTable := s.pathTable.expire m.now destHash } where
  eq := ⟨_, _, _, rfl⟩
  kept destHash' path hp := by
    dsimp only [PathTable.get] at hp
    unfold PathTable.expire at hp
    split_ifs at hp
    · have hp := Sub.retain _ _ hp
      obtain ⟨before, hget, rfl, -⟩ | hp := of_get_modify hp
      · exact ⟨before, hget, rfl, rfl⟩
      · exact ⟨path, hp, rfl, rfl⟩
    · exact ⟨path, hp, rfl, rfl⟩

variable (blocked : Option ℕ)

theorem rediscover_rediscovers : Rediscovers s (s.rediscover m destHash blocked).2 := by
  unfold rediscover
  dsimp only
  split
  · exact .refl s
  · exact expire_rediscovers destHash

omit [Binary64 F] in
theorem markFailedLinkPathUnresponsive_rediscovers (expired : LinkEntry F) :
    Rediscovers s (s.markFailedLinkPathUnresponsive expired) := by
  unfold markFailedLinkPathUnresponsive
  dsimp only
  split
  · exact ⟨⟨_, _, _, rfl⟩, fun _ path hp => ⟨path, hp, rfl, rfl⟩⟩
  · exact .refl s

theorem rediscoveryRequestForExpiredLink_rediscovers (expired : LinkEntry F) :
    Rediscovers s (s.rediscoveryRequestForExpiredLink m expired).2 := by
  unfold rediscoveryRequestForExpiredLink
  dsimp only
  split
  · exact rediscover_rediscovers _ _
  split
  · exact .refl s
  split
  · exact rediscover_rediscovers _ _
  split
  · exact (markFailedLinkPathUnresponsive_rediscovers expired).trans (rediscover_rediscovers _ _)
  · exact .refl s

omit [Binary64 F] in
theorem queueDiscoveryPathRequest_rediscovers :
    Rediscovers s (s.queueDiscoveryPathRequest m destHash blocked) := by
  unfold queueDiscoveryPathRequest
  split
  · exact .refl s
  · exact ⟨⟨_, _, _, rfl⟩, fun _ path hp => ⟨path, hp, rfl, rfl⟩⟩

theorem handleExpiredLink_rediscovers (queued : List (Octets 16)) (expired : LinkEntry F) :
    Rediscovers s (s.handleExpiredLink m queued expired).2 := by
  have hrequest : Rediscovers s (s.rediscoveryRequestForExpiredLink m expired).2 :=
    rediscoveryRequestForExpiredLink_rediscovers expired
  unfold handleExpiredLink
  split
  next h =>
    rw [h] at hrequest
    exact hrequest
  next h =>
    rw [h] at hrequest
    split
    · exact hrequest
    · exact hrequest.trans (queueDiscoveryPathRequest_rediscovers _ _)

theorem cullStaleLinks_brings
    (hpaths : ∀ destHash path, s.Kept destHash path → g.paths destHash path) :
    Brings g s (s.cullStaleLinks m) := by
  have hfold (l : List (LinkEntry F)) (queued : List (Octets 16)) (s : Actor F) :
      Rediscovers s
        (l.foldl (fun (queued, s) e => s.handleExpiredLink m queued e) (queued, s)).2 := by
    induction l generalizing queued s with
    | nil => exact .refl s
    | cons e l ih => exact (handleExpiredLink_rediscovers queued e).trans (ih _ _)
  have hculled : Brings g s { s with linkTable := (s.linkTable.cullStale m.now).1 } :=
    ⟨{ Gains.refl g s with links := fun _ _ he => .inl (Sub.retain _ _ he) },
      { Steady.refl s with }⟩
  exact hculled.trans ((hfold _ _ _).brings hpaths)

theorem cullTables_brings (hpaths : ∀ destHash path, s.Kept destHash path → g.paths destHash path) :
    Brings g s (s.cullTables m) := by
  unfold cullTables
  split
  · have hculled : Quiet (fun _ _ => False) s ((s.cullExpired m).cullDeadInterfaces m) :=
      cullExpired_quiet.trans cullDeadInterfaces_quiet
    have hlinks : Brings g ((s.cullExpired m).cullDeadInterfaces m)
        (((s.cullExpired m).cullDeadInterfaces m).cullStaleLinks m) := by
      refine cullStaleLinks_brings fun destHash path hp => ?_
      obtain ⟨before, hget, hsame⟩ := hp
      exact hpaths destHash path ⟨before, hculled.calm.paths hget, hsame⟩
    exact ((hculled.brings fun _ _ h => h.elim).trans hlinks).trans
      ⟨{ Gains.refl g _ with }, { Steady.refl _ with }⟩
  · exact .refl g s

/-! ### Other old entries -/

theorem checkBlackholes_quiet : Quiet Q s (s.checkBlackholes m) := by
  unfold checkBlackholes
  split
  · exact ⟨{ Calm.refl Q s with }, { Steady.refl s with }⟩
  · exact .refl Q s

theorem checkReceipts_quiet : Quiet Q s (s.checkReceipts m) := by
  have hchecked (receipts : Receipts) (timers : Timers F) : Quiet Q s { s with receipts, timers } :=
    ⟨{ Calm.refl Q s with }, { Steady.refl s with }⟩
  unfold checkReceipts
  split
  · exact hchecked _ _
  · exact .refl Q s

theorem cleanCaches_brings (g : Gain F) : Brings g s (s.cleanCaches m) := by
  unfold cleanCaches
  split
  · refine ⟨{ Gains.refl g s with keys := fun destHash key hk => .inl ?_ }, { Steady.refl s with }⟩
    obtain ⟨known, hget, hkey⟩ := Option.bind_eq_some_iff.mp hk
    exact Option.bind_eq_some_iff.mpr ⟨known, Sub.foldl_erase _ _ _ hget, hkey⟩
  · exact .refl g s

theorem sweepAnnounceCache_quiet : Quiet Q s (s.sweepAnnounceCache m) := by
  unfold sweepAnnounceCache
  split
  · split
    · exact .refl Q s
    next cache hcache =>
      refine ⟨{ Calm.refl Q s with cache := fun hash raw hc => ?_ }, { Steady.refl s with }⟩
      exact Option.bind_eq_some_iff.mpr ⟨cache, hcache, Sub.retain _ _ hc⟩
  · exact .refl Q s

theorem cullPathRequests_calm : Calm Q s (s.cullPathRequests m) := by
  have hgate (pathRequests : Table (Octets 16) F) : Calm Q s { s with pathRequests } :=
    { Calm.refl Q s with }
  have htags (s' : Actor F) (discoveryPrTags : Table Bytes F) :
      Calm Q s' { s' with discoveryPrTags } := { Calm.refl Q s' with }
  exact ((hgate _).trans cullRecursiveDiscovery_quiet.calm).trans (htags _ _)

end

/-! ### Announces -/

section

variable [Sha256] [Ed25519] [Hkdf] [DecidableEq F] [Binary64 F] {Q : Cause → Bytes → Prop}
  {s : Actor F} {m : Moment F}

/-- What is sent again was kept. -/
theorem retransmitAnnounce_quiet (hash : Octets 16) : Quiet Q s (s.retransmitAnnounce m hash) := by
  unfold retransmitAnnounce
  split
  · exact .refl Q s
  next entry he =>
    have hraw (cause : Cause) (raw : Bytes) (h : cause = .announce ∧ raw = entry.packetRaw) :
        s.Holds cause raw ∨ Q cause raw := by
      obtain ⟨rfl, rfl⟩ := h
      exact .inl (.inl ⟨hash, entry, he, rfl⟩)
    split
    · exact admitCachedResponse_quiet.absorb hraw
    · refine .absorb (Quiet.trans ?_ broadcastAnnounceOnInterfaces_quiet) hraw
      refine (Quiet.refl _ s).set_announceTable fun hash' found hf => ?_
      obtain ⟨-, rfl⟩ | hf := of_get_insert hf
      · exact .inr ⟨rfl, rfl⟩
      · exact .inl (.inl ⟨hash', found, hf, rfl⟩)

theorem checkAnnounces_quiet : Quiet Q s (s.checkAnnounces m) := by
  have hsent : Quiet Q s ((dueForRetransmit s.announceTable m.now).foldl
      (fun s hash => s.retransmitAnnounce m hash) s) :=
    Quiet.foldl (fun _ hash => retransmitAnnounce_quiet hash) _ _
  unfold checkAnnounces
  generalize (dueForRetransmit s.announceTable m.now).foldl
    (fun s hash => s.retransmitAnnounce m hash) s = sent at hsent ⊢
  split
  · have hculled : Quiet Q s
        { sent with announceTable := cullExhausted sent.announceTable pathfinderR } := by
      refine hsent.set_announceTable fun hash entry he => ?_
      exact hsent.calm.holds .announce _ (.inl ⟨hash, entry, Sub.retain _ _ he, rfl⟩)
    exact hculled.set_timers _
  · exact .refl Q s

theorem processPendingDiscoveryPathRequests_calm :
    Calm PathRequest s (s.processPendingDiscoveryPathRequests m) := by
  unfold processPendingDiscoveryPathRequests
  split
  · exact .refl _ s
  split
  · exact .refl _ s
  · have htaken (pendingDiscoveryPrs : List (Octets 16 × Option ℕ)) (timers : Timers F) :
        Calm PathRequest s { s with pendingDiscoveryPrs, timers } := { Calm.refl _ s with }
    exact (htaken _ _).trans forwardPathRequest_calm

/-- What the part of a tick before the held announces can do. -/
theorem tickAnnounces_brings
    (hpaths : ∀ destHash path, s.Kept destHash path → g.paths destHash path) :
    Brings g s (s.tickAnnounces m) := by
  have hstart : Quiet (fun _ _ => False) s
      (((s.processBackgroundStarts m).processPendingAnnounceAdmissions m).completeStartup m) :=
    ((processBackgroundStarts_quiet _).trans (processPendingAnnounceAdmissions_quiet _)).trans
      completeStartup_quiet
  have hculled := (hstart.brings (g := g) fun _ _ h => h.elim).trans (cullTables_brings (m := m)
    fun destHash path hp => by
      obtain ⟨before, hget, hsame⟩ := hp
      exact hpaths destHash path ⟨before, hstart.calm.paths hget, hsame⟩)
  have hchecked := checkAnnounces_quiet (Q := fun _ _ => False) (m := m)
    (s := (((s.processBackgroundStarts m).processPendingAnnounceAdmissions m).completeStartup
      m).cullTables m)
  exact hculled.trans (hchecked.brings fun _ _ h => h.elim)

omit [Sha256] [Ed25519] [Hkdf] [DecidableEq F] in
/-- What the part of a tick behind them can do, before the gate for path requests is culled. -/
theorem sweepAnnounceCache_brings (g : Gain F) (s : Actor F) (m : Moment F) :
    Brings g s (((((s.cullAnnounceQueues m).checkBlackholes m).checkReceipts m).cleanCaches
      m).sweepAnnounceCache m) := by
  have hbefore : Quiet (fun _ _ => False) s
      (((s.cullAnnounceQueues m).checkBlackholes m).checkReceipts m) :=
    ((cullAnnounceQueues_quiet _).trans checkBlackholes_quiet).trans checkReceipts_quiet
  exact ((hbefore.brings fun _ _ h => h.elim).trans (cleanCaches_brings g)).trans
    (sweepAnnounceCache_quiet.brings fun _ _ h => h)

omit [Sha256] [Ed25519] [Hkdf] [DecidableEq F] in
theorem tickCaches_gains (g : Gain F) : Gains g s (s.tickCaches m) :=
  (sweepAnnounceCache_brings g s m).gains.trans
    ((cullPathRequests_calm (Q := fun _ _ => False)).gains fun _ _ h => h.elim)

/-- What the end of a tick can do. -/
theorem tickQueues_calm : Calm PathRequest s
    (((s.processPendingDiscoveryPathRequests m).processPendingPathRequestAdmissions
      m).processAnnounceQueues m) :=
  (processPendingDiscoveryPathRequests_calm.trans processPendingPathRequestAdmissions_calm).trans
    (processAnnounceQueues_quiet _).calm

end

end Actor

end Reticulum.Transport
