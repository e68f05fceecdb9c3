import Reticulum.Transport.Maintenance
import Reticulum.Transport.TransitLinks

/-!
# Recovery of failed routes

A node records the version of the route over which a link request or a tracked packet left. When the
attempt is reported as failed, the path is dropped only if its route is still of that version:
`actor/path_recovery.rs`. Each record has the number of its dispatch, and beside the node stand the
dispatches that were recorded and the numbers of those that were consumed.

## Main definitions

* `PathRecovery` — a node with the attempts that it observes.
* `PathRecovery.recordRouteAttempt`, `PathRecovery.recoverLocalLinkPath`.

## Main results

* `recovery_drops_failed_route` — every run.
* `mismatched_recovery_asks` — a report for another destination that asks for a path.
-/

namespace Reticulum.Transport

open Table Binary64

section

variable {F : Type}

/-- `FailedRouteAttempt`. -/
inductive FailedRouteAttempt
  | link (linkId : Octets 16)
  | packet (packetHash : Octets 32)
  deriving DecidableEq, Repr

/-- `LocalLinkRouteAttempt`, with the number of its dispatch. -/
structure LocalLinkRouteAttempt (F : Type) where
  destinationHash : Octets 16
  route : RouteVersion F
  observedAt : F
  serial : ℕ

/-- `PathRecoveryRequest`, and whether its receiver is gone. -/
structure PathRecoveryRequest where
  destinationHash : Octets 16
  failedAttempt : Option FailedRouteAttempt
  scheduleDiscovery : Bool
  isClosed : Bool

/-- `PathRecoveryOutcome`. -/
structure PathRecoveryOutcome where
  pathDropped : Bool
  hasPath : Bool
  requestScheduled : Bool

/-- A node with the attempts that it observes, the dispatches that it recorded and the numbers of
those that were consumed. -/
structure PathRecovery (F : Type) where
  actor : Actor F
  localLinkRouteAttempts : Table FailedRouteAttempt (LocalLinkRouteAttempt F)
  dispatches : List (FailedRouteAttempt × Octets 16 × RouteVersion F)
  consumed : List ℕ

namespace PathRecovery

variable [Binary64 F]

/-- `MAX_LOCAL_LINK_ROUTES`. -/
def maxLocalLinkRoutes : ℕ := 1024

/-- An observation is younger than `LOCAL_LINK_ROUTE_LIFETIME`. -/
def isRecent (now : F) (entry : LocalLinkRouteAttempt F) : Bool :=
  lt (sub now entry.observedAt) (ofRat 3600)

/-- `cull_local_link_route_attempts`. -/
def cullLocalLinkRouteAttempts (x : PathRecovery F) (now : F) : PathRecovery F :=
  { x with localLinkRouteAttempts := x.localLinkRouteAttempts.retain fun _ => isRecent now }

/-- The attempt that was observed first. -/
def oldest (x : PathRecovery F) : Option (FailedRouteAttempt × LocalLinkRouteAttempt F) :=
  x.localLinkRouteAttempts.toList.foldl
    (fun best e => match best with
      | none => some e
      | some b => if lt e.2.observedAt b.2.observedAt then some e else some b)
    none

/-- Room for one more. -/
def makeRoom (x : PathRecovery F) : Table FailedRouteAttempt (LocalLinkRouteAttempt F) :=
  if maxLocalLinkRoutes ≤ x.localLinkRouteAttempts.size then
    x.oldest.elim x.localLinkRouteAttempts fun e => x.localLinkRouteAttempts.erase e.1
  else x.localLinkRouteAttempts

/-- `record_route_attempt`. -/
def recordRouteAttempt (x : PathRecovery F) (m : Moment F) (attempt : FailedRouteAttempt)
    (destinationHash : Octets 16) : PathRecovery F :=
  let x := x.cullLocalLinkRouteAttempts m.now
  if x.localLinkRouteAttempts.contains attempt then x
  else
    match x.actor.liveRoute m destinationHash with
    | none => x
    | some route =>
      { x with
        localLinkRouteAttempts := x.makeRoom.insert attempt
          ⟨destinationHash, route, m.now, x.dispatches.length⟩
        dispatches := x.dispatches ++ [(attempt, destinationHash, route)] }

/-- The attempt that a request is about, if it was dispatched to the same destination. -/
def claimed (x : PathRecovery F) (request : PathRecoveryRequest) :
    Option (FailedRouteAttempt × LocalLinkRouteAttempt F) :=
  request.failedAttempt.bind fun attempt =>
    ((x.localLinkRouteAttempts.get attempt).filter
      (·.destinationHash = request.destinationHash)).map (attempt, ·)

variable [DecidableEq F]

/-- `recover_local_link_path`. -/
def recoverLocalLinkPath (x : PathRecovery F) (m : Moment F) (request : PathRecoveryRequest) :
    Option PathRecoveryOutcome × PathRecovery F :=
  if request.isClosed then (none, x)
  else
    let destination := request.destinationHash
    let attempt := x.claimed request
    let observed := attempt.any fun e => isRecent m.now e.2
    let pathDropped := observed &&
      attempt.any fun e => x.actor.liveRoute m destination = some e.2.route
    let s : Actor F := { x.actor with
      pathTable := if pathDropped then x.actor.pathTable.expire m.now destination
        else x.actor.pathTable }
    let hasPath := (s.pathTable.getLive m.now destination).isSome
    let asks := request.scheduleDiscovery && (pathDropped || !hasPath || !observed)
    let recent := (s.pathRequests.get destination).any fun last =>
      lt (sub m.now last) (ofRat pathRequestMi)
    let queued := s.pendingDiscoveryPrs.any fun pending =>
      pending.1 = destination && pending.2.isNone
    let queues := !recent && decide (s.pendingDiscoveryPrs.length < maxQueuedDiscoveryPrs)
    let retained := s.pendingPathRequestAdmissions.any (·.destination = destination)
    let asked := if asks && !queued && !recent then s.queueDiscoveryPathRequest m destination none
      else s
    (some ⟨pathDropped, hasPath, asks && (queued || queues || retained)⟩,
      { x with
        actor := asked.processBackgroundStarts m
        localLinkRouteAttempts := attempt.elim x.localLinkRouteAttempts fun e =>
          x.localLinkRouteAttempts.erase e.1
        consumed := attempt.elim x.consumed fun e => x.consumed ++ [e.2.serial] })

/-! ### Runs -/

/-- What can happen: an attempt is dispatched or reported, records grow old, or the node does
anything else, which does not touch the records. -/
inductive Event (F : Type)
  | dispatched (m : Moment F) (attempt : FailedRouteAttempt) (destinationHash : Octets 16)
  | reported (m : Moment F) (request : PathRecoveryRequest)
  | culled (now : F)
  | elsewhere (actor : Actor F)

def step (x : PathRecovery F) : Event F → PathRecovery F
  | .dispatched m attempt destinationHash => x.recordRouteAttempt m attempt destinationHash
  | .reported m request => (x.recoverLocalLinkPath m request).2
  | .culled now => x.cullLocalLinkRouteAttempts now
  | .elsewhere actor => { x with actor }

/-- Every record is of a dispatch that was not consumed. -/
structure Ok (x : PathRecovery F) : Prop where
  size : x.localLinkRouteAttempts.size ≤ 1024
  recorded : ∀ attempt entry, x.localLinkRouteAttempts.get attempt = some entry →
    x.dispatches[entry.serial]? = some (attempt, entry.destinationHash, entry.route) ∧
      entry.serial ∉ x.consumed
  once : x.consumed.Nodup
  past : ∀ n ∈ x.consumed, n < x.dispatches.length

variable {x : PathRecovery F} {m : Moment F} {request : PathRecoveryRequest}

omit [Binary64 F] [DecidableEq F] in
/-- Records may be lost. -/
theorem Ok.lose (hx : x.Ok) {left : Table FailedRouteAttempt (LocalLinkRouteAttempt F)}
    (hleft : Sub left x.localLinkRouteAttempts) (actor : Actor F) :
    Ok { x with actor, localLinkRouteAttempts := left } :=
  { hx with
    size := (size_le_of_get fun _ entry h => ⟨entry, hleft h⟩).trans hx.size
    recorded := fun attempt entry h => hx.recorded attempt entry (hleft h) }

omit [DecidableEq F] in
/-- A record is the oldest unless there is none. -/
theorem exists_oldest (hx : x.localLinkRouteAttempts.size ≠ 0) : ∃ e, x.oldest = some e := by
  unfold oldest
  cases hlist : x.localLinkRouteAttempts.toList with
  | nil => exact absurd (by rw [size, hlist]; rfl) hx
  | cons e l =>
    refine List.foldlRecOn l _ (motive := fun best => ∃ e, best = some e) ⟨e, rfl⟩ ?_
    rintro _ ⟨b, rfl⟩ e' -
    dsimp only
    split_ifs
    exacts [⟨e', rfl⟩, ⟨b, rfl⟩]

omit [DecidableEq F] in
/-- A full table loses its oldest record. -/
theorem makeRoom_cases (hx : x.localLinkRouteAttempts.size ≤ 1024) :
    Sub x.makeRoom x.localLinkRouteAttempts ∧ x.makeRoom.size < 1024 := by
  unfold makeRoom
  split_ifs with hfull
  · obtain ⟨e, hold⟩ := exists_oldest (x := x) (Nat.ne_of_gt (lt_of_lt_of_le (by decide) hfull))
    have hmem : e ∈ x.localLinkRouteAttempts.toList :=
      (mem_of_foldl_least (r := fun e e' : FailedRouteAttempt × LocalLinkRouteAttempt F =>
        lt e.2.observedAt e'.2.observedAt) (fun _ => rfl) (fun _ _ => rfl)
        hold).resolve_left nofun
    have hperm := values_perm_of_get (mem_toList.mp hmem)
    have hsize : x.localLinkRouteAttempts.size = (x.localLinkRouteAttempts.erase e.1).size + 1 := by
      simpa [values, size] using hperm.length_eq
    rw [hold]
    exact ⟨.erase _ _, Nat.lt_of_succ_le (hsize.symm.trans_le hx)⟩
  · exact ⟨.refl _, Nat.lt_of_not_le hfull⟩

omit [DecidableEq F] in
theorem Ok.recordRouteAttempt (hx : x.Ok) (m : Moment F) (attempt : FailedRouteAttempt)
    (destinationHash : Octets 16) : (x.recordRouteAttempt m attempt destinationHash).Ok := by
  have hculled : (x.cullLocalLinkRouteAttempts m.now).Ok := hx.lose (.retain _ _) x.actor
  unfold PathRecovery.recordRouteAttempt
  dsimp only
  split_ifs
  · exact hculled
  split
  · exact hculled
  next route _ =>
    obtain ⟨hsub, hroom⟩ := makeRoom_cases hculled.size
    refine ⟨?_, fun found entry hget => ?_, hculled.once, fun n hn => ?_⟩
    · exact (Nat.succ_le_succ (size_le_of_get fun _ entry h =>
        ⟨entry, Sub.erase _ attempt h⟩)).trans hroom
    · obtain ⟨heq, rfl⟩ | hget := of_get_insert hget
      · exact ⟨by simp [heq], fun hmem => lt_irrefl _ (hculled.past _ hmem)⟩
      · obtain ⟨hlogged, hfresh⟩ := hculled.recorded found entry (hsub hget)
        obtain ⟨hlt, -⟩ := List.getElem?_eq_some_iff.mp hlogged
        exact ⟨(List.getElem?_append_left hlt).trans hlogged, hfresh⟩
    · rw [List.length_append]
      exact Nat.lt_add_right _ (hculled.past n hn)

/-! ### Reports -/

theorem pathTable_processBackgroundStart (s : Actor F) (m : Moment F) (id : ℕ) :
    (s.processBackgroundStart m id).pathTable = s.pathTable := by
  unfold Actor.processBackgroundStart
  split
  · rfl
  dsimp only
  split
  · split_ifs <;> rfl
  · split_ifs <;> rfl
  · rfl

/-- What an open report does to records and paths. -/
theorem recoverLocalLinkPath_cases (m : Moment F) (hopen : request.isClosed = false) :
    let x' := (x.recoverLocalLinkPath m request).2
    (x' = { x with actor := x'.actor } ∧ x'.actor.pathTable = x.actor.pathTable) ∨
    ∃ attempt entry, request.failedAttempt = some attempt ∧
      x.localLinkRouteAttempts.get attempt = some entry ∧
      entry.destinationHash = request.destinationHash ∧
      x' = { x with
        actor := x'.actor
        localLinkRouteAttempts := x.localLinkRouteAttempts.erase attempt
        consumed := x.consumed ++ [entry.serial] } ∧
      (x'.actor.pathTable = x.actor.pathTable ∨
        x.actor.liveRoute m request.destinationHash = some entry.route ∧
        x'.actor.pathTable = x.actor.pathTable.expire m.now request.destinationHash) := by
  have hstarts (s : Actor F) : (s.processBackgroundStarts m).pathTable = s.pathTable :=
    List.foldlRecOn _ _ (motive := fun s' : Actor F => s'.pathTable = s.pathTable) rfl
      fun s' hs id _ => (pathTable_processBackgroundStart s' m id).trans hs
  have hqueue (s : Actor F) (p : Prop) [Decidable p] (destination : Octets 16) :
      (if p then s.queueDiscoveryPathRequest m destination none else s).pathTable =
        s.pathTable := by
    unfold Actor.queueDiscoveryPathRequest
    split_ifs <;> rfl
  unfold recoverLocalLinkPath
  rw [if_neg (Bool.eq_false_iff.mp hopen)]
  dsimp only
  cases hclaimed : x.claimed request with
  | none => exact .inl ⟨rfl, (hstarts _).trans (hqueue _ _ _)⟩
  | some e =>
    obtain ⟨attempt, hfailed, entry, hfound, rfl⟩ : ∃ attempt, request.failedAttempt = some attempt ∧
        ∃ entry, (x.localLinkRouteAttempts.get attempt).filter
          (·.destinationHash = request.destinationHash) = some entry ∧ (attempt, entry) = e := by
      simpa [claimed, Option.bind_eq_some_iff] using hclaimed
    obtain ⟨hget, hto⟩ := Option.filter_eq_some_iff.mp hfound
    refine .inr ⟨attempt, entry, hfailed, hget, of_decide_eq_true hto, rfl, ?_⟩
    rw [hstarts, hqueue]
    dsimp only
    split_ifs with hdropped
    · simp only [Option.any_some, Bool.and_eq_true, decide_eq_true_eq] at hdropped
      exact .inr ⟨hdropped.2, rfl⟩
    · exact .inl rfl

theorem Ok.recoverLocalLinkPath (hx : x.Ok) (m : Moment F) (request : PathRecoveryRequest) :
    (x.recoverLocalLinkPath m request).2.Ok := by
  cases hopen : request.isClosed with
  | true => rw [PathRecovery.recoverLocalLinkPath, if_pos hopen]; exact hx
  | false =>
    obtain ⟨heq, -⟩ | ⟨attempt, entry, -, hget, -, heq, -⟩ :=
      recoverLocalLinkPath_cases (x := x) m hopen
    · rw [heq]
      exact hx.lose (.refl _) _
    · obtain ⟨hlogged, hfresh⟩ := hx.recorded attempt entry hget
      obtain ⟨hlt, -⟩ := List.getElem?_eq_some_iff.mp hlogged
      rw [heq]
      refine ⟨(hx.lose (.erase _ attempt) x.actor).size, fun other found hfound => ?_,
        hx.once.append (List.nodup_singleton _) (by simpa using hfresh), fun n hn => ?_⟩
      · rw [get_erase] at hfound
        split_ifs at hfound with hother
        obtain ⟨hlogged', hfresh'⟩ := hx.recorded other found hfound
        -- Two records of one dispatch would be of one attempt.
        refine ⟨hlogged', fun hmem => ?_⟩
        rcases List.mem_append.mp hmem with hmem | hmem
        · exact hfresh' hmem
        · rw [List.mem_singleton.mp hmem, hlogged] at hlogged'
          exact hother (congrArg Prod.fst (Option.some.inj hlogged')).symm
      · rcases List.mem_append.mp hn with hn | hn
        · exact hx.past n hn
        · exact List.mem_singleton.mp hn ▸ hlt

theorem Ok.step (hx : x.Ok) (event : Event F) : (x.step event).Ok := by
  cases event with
  | dispatched m attempt destinationHash => exact hx.recordRouteAttempt m attempt destinationHash
  | reported m request => exact hx.recoverLocalLinkPath m request
  | culled now => exact hx.lose (.retain _ _) x.actor
  | elsewhere actor => exact hx.lose (.refl _) actor

theorem Ok.run (actor : Actor F) (events : List (Event F)) :
    (events.foldl PathRecovery.step ⟨actor, ∅, [], []⟩).Ok :=
  List.foldlRecOn events _ (motive := Ok) ⟨Nat.zero_le _, nofun, .nil, nofun⟩
    fun _ hx event _ => hx.step event

end PathRecovery

open PathRecovery

/-- After every run at most 1024 attempts are recorded and none was consumed twice. A report whose
receiver is gone changes nothing. Any other report changes neither records nor paths, or it consumes
the record of its own attempt to its own destination, and a path goes only if its route is still of
the version that was recorded. -/
theorem recovery_drops_failed_route [Binary64 F] [DecidableEq F] (actor : Actor F)
    (events : List (PathRecovery.Event F)) (m : Moment F) (request : PathRecoveryRequest) :
    let x := events.foldl PathRecovery.step ⟨actor, ∅, [], []⟩
    let x' := (x.recoverLocalLinkPath m request).2
    x.localLinkRouteAttempts.size ≤ 1024 ∧ x.consumed.Nodup ∧ (request.isClosed → x' = x) ∧
      ((x'.localLinkRouteAttempts = x.localLinkRouteAttempts ∧ x'.consumed = x.consumed ∧
          x'.actor.pathTable = x.actor.pathTable) ∨
        ∃ attempt route serial, request.failedAttempt = some attempt ∧
          x.dispatches[serial]? = some (attempt, request.destinationHash, route) ∧
          serial ∉ x.consumed ∧ x'.consumed = x.consumed ++ [serial] ∧
          x'.localLinkRouteAttempts = x.localLinkRouteAttempts.erase attempt ∧
          (x'.actor.pathTable = x.actor.pathTable ∨
            x.actor.liveRoute m request.destinationHash = some route ∧
            x'.actor.pathTable = x.actor.pathTable.expire m.now request.destinationHash)) := by
  intro x x'
  have hx : x.Ok := Ok.run actor events
  have hclosed : request.isClosed → x' = x := fun hclosed => by
    simp only [x', recoverLocalLinkPath, hclosed, if_true]
  refine ⟨hx.size, hx.once, hclosed, ?_⟩
  cases hopen : request.isClosed with
  | true => exact .inl (by simp only [hclosed hopen, and_self])
  | false =>
    obtain ⟨heq, hpath⟩ | ⟨attempt, entry, hfailed, hget, hto, heq, hpath⟩ :=
      recoverLocalLinkPath_cases (x := x) m hopen
    · exact .inl ⟨congrArg (·.localLinkRouteAttempts) heq, congrArg (·.consumed) heq, hpath⟩
    · obtain ⟨hlogged, hfresh⟩ := hx.recorded attempt entry hget
      exact .inr ⟨attempt, entry.route, entry.serial, hfailed, hto ▸ hlogged, hfresh,
        congrArg (·.consumed) heq, congrArg (·.localLinkRouteAttempts) heq, hpath⟩

end

open Transport.Session Actor in
/-- In the session, a report of an attempt that was for another destination consumes nothing, but
the node asks for a path. -/
theorem mismatched_recovery_asks :
    let x : PathRecovery ℚ := PathRecovery.step ⟨node.receive announced, ∅, [], []⟩
      (.dispatched (moment 1700000004) (.link linkId) destination)
    let x' := (x.recoverLocalLinkPath (moment 1700000005)
      ⟨transportId, some (.link linkId), true, false⟩).2
    x.localLinkRouteAttempts.keys = [.link linkId] ∧ x'.consumed = [] ∧
      x.actor.pendingDiscoveryPrs = [] ∧ x'.actor.pendingDiscoveryPrs = [(transportId, none)] := by
  decide +kernel

end Reticulum.Transport
