import Reticulum.Transport.Removal
import Reticulum.Transport.Steady
import Reticulum.Transport.TransitLinks

/-!
# Path requests that are retained

A path request that finds the channel of its interface full is retained and tried again. An entry of
the retry queue is told apart by its destination and interface, and by how often a request was
retained for them. Beside the node stand these numbers and the entries whose bytes a poll handed to
their interface. A poll looks at the live route of the moment only: a route that came and went since
the last poll leaves no trace.

## Main definitions

* `RetryState`, `RetryStep` — a node with the account of its retry queue, and its steps.

## Main results

* `retained_requests_sent_once` — every run.
* `retained_request_survives_route` — a request that is sent after another route came and went.
-/

namespace Reticulum.Transport

open Wire List

section

variable {F : Type}

/-! ### The retry queue -/

/-- How a step changes the queue: entries are lost, a new one is appended, or the first goes to the
end. -/
inductive Reshapes : List (PendingAdmission F) → List (PendingAdmission F) → Prop
  | loses {q q' : List (PendingAdmission F)} (h : q'.Sublist q) : Reshapes q q'
  | retains {q : List (PendingAdmission F)} {p : PendingAdmission F} (hnew : ∀ e ∈ q, e.key ≠ p.key)
      (hroom : q.length < 256) : Reshapes q (q ++ [p])
  | rotates (p : PendingAdmission F) (rest : List (PendingAdmission F)) (nextTry : F) :
    Reshapes (p :: rest) (rest ++ [{ p with nextTry }])

/-- A queue has at most 256 entries, and one for a destination and an interface. -/
structure RetryQueue (q : List (PendingAdmission F)) : Prop where
  nodup : (q.map PendingAdmission.key).Nodup
  length : q.length ≤ 256

variable {q q' : List (PendingAdmission F)} {p p' : PendingAdmission F}

theorem RetryQueue.eq_of_key (h : RetryQueue q) (hp : p ∈ q) (hp' : p' ∈ q)
    (hkey : p'.key = p.key) : p' = p :=
  inj_on_of_nodup_map h.nodup hp' hp hkey

theorem Reshapes.retryQueue (h : Reshapes q q') (hq : RetryQueue q) : RetryQueue q' := by
  cases h with
  | loses h => exact ⟨hq.nodup.sublist (h.map _), h.length_le.trans hq.length⟩
  | @retains _ p hnew hroom =>
    refine ⟨?_, by simpa using Nat.succ_le_of_lt hroom⟩
    rw [map_append, map_singleton, nodup_append]
    refine ⟨hq.nodup, nodup_singleton _, fun k hk k' hk' => ?_⟩
    obtain ⟨e, he, rfl⟩ := mem_map.mp hk
    rw [mem_singleton.mp hk']
    exact hnew e he
  | rotates p rest nextTry =>
    refine ⟨?_, by simpa using hq.length⟩
    have hperm : ((rest ++ [{ p with nextTry }]).map PendingAdmission.key).Perm
        ((p :: rest).map PendingAdmission.key) := by
      rw [map_append, map_cons]
      exact perm_append_singleton _ _
    exact hperm.nodup_iff.mpr hq.nodup

/-- An entry keeps all but the time of its next try. -/
theorem Reshapes.keeps (h : Reshapes q q') (hq : RetryQueue q) (hp : p ∈ q) (hp' : p' ∈ q')
    (hkey : p'.key = p.key) : p' = { p with nextTry := p'.nextTry } := by
  cases h with
  | loses h => rw [hq.eq_of_key hp (h.subset hp') hkey]
  | retains hnew =>
    rcases mem_append.mp hp' with hp' | hp'
    · rw [hq.eq_of_key hp hp' hkey]
    · rw [mem_singleton.mp hp'] at hkey
      exact absurd hkey.symm (hnew p hp)
  | rotates first rest nextTry =>
    rcases mem_append.mp hp' with hp' | hp'
    · rw [hq.eq_of_key hp (mem_cons_of_mem _ hp') hkey]
    · obtain rfl := mem_singleton.mp hp'
      rw [hq.eq_of_key hp mem_cons_self hkey]

/-! ### Runs -/

/-- A node, how often requests were retained for a destination and an interface, and the entries
whose bytes polls handed over: each is given by what it is for and the number of its retention. -/
structure RetryState (F : Type) where
  actor : Actor F
  retained : Octets 16 × ℕ → ℕ
  handed : List ((Octets 16 × ℕ) × ℕ)

namespace RetryState

/-- What the entries of the queue are for. -/
def keys (x : RetryState F) : List (Octets 16 × ℕ) :=
  x.actor.pendingPathRequestAdmissions.map PendingAdmission.key

/-- The node changes; what is in its queue now and was not before is retained. -/
def move (x : RetryState F) (s' : Actor F) (handed : List ((Octets 16 × ℕ) × ℕ)) : RetryState F where
  actor := s'
  retained key := x.retained key +
    if key ∈ s'.pendingPathRequestAdmissions.map PendingAdmission.key ∧ key ∉ x.keys then 1 else 0
  handed := x.handed ++ handed

/-- The queue is in order, and no entry in it was handed over before. -/
structure Ok (x : RetryState F) : Prop where
  queue : RetryQueue x.actor.pendingPathRequestAdmissions
  once : x.handed.Nodup
  past : ∀ e ∈ x.handed, e.2 < x.retained e.1 ∨ e.2 = x.retained e.1 ∧ e.1 ∉ x.keys

variable {x : RetryState F} {s' : Actor F}

@[simp] theorem handed_move : (x.move s' []).handed = x.handed := append_nil _

theorem Ok.move (hx : x.Ok)
    (h : Reshapes x.actor.pendingPathRequestAdmissions s'.pendingPathRequestAdmissions) :
    (x.move s' []).Ok := by
  refine ⟨h.retryQueue hx.queue, by simpa using hx.once, fun e he => ?_⟩
  rcases hx.past e (by simpa using he) with hlt | ⟨heq, hgone⟩
  · exact .inl (Nat.lt_add_right _ hlt)
  · by_cases hkey : e.1 ∈ (x.move s' []).keys
    · left
      have hretained : (x.move s' []).retained e.1 = x.retained e.1 + 1 :=
        congrArg (x.retained e.1 + ·) (if_pos ⟨hkey, hgone⟩)
      omega
    · have hretained : (x.move s' []).retained e.1 = x.retained e.1 :=
        congrArg (x.retained e.1 + ·) (if_neg fun h => hkey h.1)
      exact .inr ⟨heq.trans hretained.symm, hkey⟩

/-- The first entry is handed over and leaves. -/
theorem Ok.hand (hx : x.Ok) {p : PendingAdmission F} {rest : List (PendingAdmission F)}
    (hqueue : x.actor.pendingPathRequestAdmissions = p :: rest)
    (hrest : s'.pendingPathRequestAdmissions = rest) :
    (x.move s' [(p.key, x.retained p.key)]).Ok := by
  have hlost : (x.move s' []).Ok := by
    refine hx.move (.loses ?_)
    rw [hqueue, hrest]
    exact sublist_cons_self ..
  have hgone : p.key ∉ (x.move s' []).keys := by
    have hnodup := hx.queue.nodup
    rw [hqueue, map_cons, nodup_cons] at hnodup
    simpa only [keys, RetryState.move, hrest] using hnodup.1
  have hkept : (x.move s' []).retained p.key = x.retained p.key :=
    congrArg (x.retained p.key + ·) (if_neg fun h => hgone h.1)
  have hfresh : (p.key, x.retained p.key) ∉ x.handed := by
    intro he
    rcases hx.past _ he with hlt | ⟨-, hnot⟩
    · exact lt_irrefl _ hlt
    · exact hnot (by simp [keys, hqueue])
  refine ⟨hlost.queue, ?_, fun e he => ?_⟩
  · refine nodup_append.mpr ⟨hx.once, nodup_singleton _, fun e he e' he' => ?_⟩
    rw [mem_singleton.mp he']
    exact fun heq => hfresh (heq ▸ he)
  · rcases mem_append.mp he with he | he
    · exact hlost.past e (by simpa using he)
    · rw [mem_singleton.mp he]
      exact .inr ⟨hkept.symm, hgone⟩

variable [Sha256] [Ed25519] [Hkdf] [DecidableEq F] [Binary64 F]

/-- The entry whose bytes a poll hands over: the first one, when a packet is sent. -/
def handover (x : RetryState F) (m : Moment F) : List ((Octets 16 × ℕ) × ℕ) :=
  if (x.actor.pollPendingPathRequest m).transmissions = x.actor.transmissions then []
  else (x.keys.head?.map fun key => (key, x.retained key)).toList

end RetryState

variable [Sha256] [Ed25519] [Hkdf] [DecidableEq F] [Binary64 F] {x x₀ x' : RetryState F}

/-- A request is admitted, the queue is polled once, or something else happens, which at most loses
entries: interfaces are replaced, paths and discoveries come and go. -/
inductive RetryStep : RetryState F → RetryState F → Prop
  | request (x : RetryState F) (m : Moment F) (destination : Octets 16) (interface : ℕ) (raw : Bytes)
      (recursive : Bool) :
    RetryStep x (x.move (x.actor.admitPathRequest m destination interface raw recursive) [])
  | poll (x : RetryState F) (m : Moment F) :
    RetryStep x (x.move (x.actor.pollPendingPathRequest m) (x.handover m))
  | elsewhere (x : RetryState F) (s' : Actor F)
      (h : s'.pendingPathRequestAdmissions.Sublist x.actor.pendingPathRequestAdmissions) :
    RetryStep x (x.move s' [])

/-- What a poll does: nothing is sent, or the first entry is due, and is sent and leaves. -/
theorem RetryState.poll_cases (x : RetryState F) (m : Moment F) :
    (x.handover m = [] ∧
      (x.actor.pollPendingPathRequest m).transmissions = x.actor.transmissions ∧
      Reshapes x.actor.pendingPathRequestAdmissions
        (x.actor.pollPendingPathRequest m).pendingPathRequestAdmissions) ∨
    ∃ p rest, x.actor.pendingPathRequestAdmissions = p :: rest ∧ x.actor.Due m p ∧
      (x.actor.pollPendingPathRequest m).pendingPathRequestAdmissions = rest ∧
      (x.actor.pollPendingPathRequest m).transmissions =
        x.actor.transmissions ++ [⟨.pathRequest, p.interface, p.raw⟩] ∧
      x.handover m = [(p.key, x.retained p.key)] := by
  have hsilent (h : (x.actor.pollPendingPathRequest m).transmissions = x.actor.transmissions) :
      x.handover m = [] := if_pos h
  obtain heq | ⟨p, rest, hqueue, heq | ⟨nextTry, heq⟩ | ⟨hdue, outcome, houtcome, htry⟩⟩ :=
    x.actor.pollPendingPathRequest_cases m
  · exact .inl ⟨hsilent (by rw [heq]), by rw [heq], by rw [heq]; exact .loses (.refl _)⟩
  · refine .inl ⟨hsilent (by rw [heq]), by rw [heq], ?_⟩
    rw [heq, hqueue]
    exact .loses (sublist_cons_self ..)
  · refine .inl ⟨hsilent (by rw [heq]), by rw [heq], ?_⟩
    rw [heq, hqueue]
    exact .rotates p rest nextTry
  obtain ⟨rfl, entry, _, _, -, -, -, heq⟩ | ⟨-, heq⟩ | ⟨hne, heq⟩ :=
    Actor.tryAdmitPathRequest_eq htry
  · refine .inr ⟨p, rest, hqueue, hdue, by rw [heq], by rw [heq], ?_⟩
    rw [RetryState.handover, if_neg (by rw [heq]; simp), RetryState.keys, hqueue]
    rfl
  · have hsent : (x.actor.pollPendingPathRequest m).transmissions = x.actor.transmissions := by
      rw [heq, Actor.transmissions_deregisterInterface]
    refine .inl ⟨hsilent hsent, hsent, .loses ?_⟩
    rw [heq, hqueue]
    exact (Actor.pendingPathRequestAdmissions_deregisterInterface _ _).trans
      (sublist_cons_self ..)
  · refine .inl ⟨hsilent (by rw [heq]), by rw [heq], ?_⟩
    rw [heq, hqueue]
    exact .loses (sublist_cons_self ..)

theorem RetryStep.reshapes (h : RetryStep x x') :
    Reshapes x.actor.pendingPathRequestAdmissions x'.actor.pendingPathRequestAdmissions := by
  cases h with
  | request m destination interface raw recursive =>
    change Reshapes _ (x.actor.admitPathRequest ..).pendingPathRequestAdmissions
    obtain heq | ⟨outcome, htry⟩ | ⟨p, -, hnew, hroom, heq⟩ :=
      x.actor.admitPathRequest_cases m destination interface raw recursive
    · rw [heq]
      exact .loses (.refl _)
    · obtain ⟨-, _, _, _, -, -, -, heq⟩ | ⟨-, heq⟩ | ⟨-, heq⟩ := Actor.tryAdmitPathRequest_eq htry
      · rw [heq]
        exact .loses (.refl _)
      · rw [heq]
        exact .loses (Actor.pendingPathRequestAdmissions_deregisterInterface _ _)
      · rw [heq]
        exact .loses (.refl _)
    · rw [heq]
      exact .retains hnew hroom
  | poll m =>
    rcases x.poll_cases m with ⟨-, -, hreshapes⟩ | ⟨p, rest, hqueue, -, hrest, -⟩
    · exact hreshapes
    · change Reshapes _ (x.actor.pollPendingPathRequest m).pendingPathRequestAdmissions
      rw [hqueue, hrest]
      exact .loses (sublist_cons_self ..)
  | elsewhere s' h => exact .loses h

theorem RetryStep.ok (h : RetryStep x x') (hx : x.Ok) : x'.Ok := by
  have hreshapes := h.reshapes
  cases h with
  | request => exact hx.move hreshapes
  | elsewhere => exact hx.move hreshapes
  | poll m =>
    rcases x.poll_cases m with ⟨hsilent, -, -⟩ | ⟨p, rest, hqueue, -, hrest, -, hhanded⟩
    · rw [hsilent]
      exact hx.move hreshapes
    · rw [hhanded]
      exact hx.hand hqueue hrest

/-- In every run from an empty retry queue: the queue has at most 256 entries, one for a destination
and an interface; no entry is handed over twice; while an entry is in the queue only the time of its
next try changes; an admission appends at most one entry, with the bytes, the channel, the live route
and the discovery of the moment; and a poll sends nothing, or hands over the bytes of an entry that
is due, which leaves. -/
theorem retained_requests_sent_once (hqueue : x₀.actor.pendingPathRequestAdmissions = [])
    (hhanded : x₀.handed = []) (hrun : Relation.ReflTransGen RetryStep x₀ x) :
    x.actor.pendingPathRequestAdmissions.length ≤ 256 ∧ x.keys.Nodup ∧ x.handed.Nodup ∧
    (∀ x', RetryStep x x' → ∀ p ∈ x.actor.pendingPathRequestAdmissions,
      ∀ p' ∈ x'.actor.pendingPathRequestAdmissions, p'.key = p.key →
        p' = { p with nextTry := p'.nextTry }) ∧
    (∀ m destination interface raw recursive, ∀ p ∈ (x.actor.admitPathRequest m destination interface
      raw recursive).pendingPathRequestAdmissions, p ∉ x.actor.pendingPathRequestAdmissions →
        x.actor.RetainedAs m destination interface raw recursive p) ∧
    ∀ m, (x.handover m = [] ∧
        (x.actor.pollPendingPathRequest m).transmissions = x.actor.transmissions) ∨
      ∃ p ∈ x.actor.pendingPathRequestAdmissions, x.actor.Due m p ∧
        (x.actor.pollPendingPathRequest m).transmissions =
          x.actor.transmissions ++ [⟨.pathRequest, p.interface, p.raw⟩] ∧
        x.handover m = [(p.key, x.retained p.key)] := by
  have hx : x.Ok := by
    induction hrun with
    | refl =>
      refine ⟨⟨?_, ?_⟩, ?_, ?_⟩
      · simp [hqueue]
      · simp [hqueue]
      · simp [hhanded]
      · simp [hhanded]
    | tail _ hstep ih => exact hstep.ok ih
  refine ⟨hx.queue.length, hx.queue.nodup, hx.once,
    fun x' hstep p hp p' hp' hkey => hstep.reshapes.keeps hx.queue hp hp' hkey,
    fun m destination interface raw recursive p hp hnew => ?_, fun m => ?_⟩
  · obtain heq | ⟨outcome, htry⟩ | ⟨p', hretained, -, -, heq⟩ :=
      x.actor.admitPathRequest_cases m destination interface raw recursive
    · exact absurd (heq ▸ hp) hnew
    · obtain ⟨-, _, _, _, -, -, -, heq⟩ | ⟨-, heq⟩ | ⟨-, heq⟩ := Actor.tryAdmitPathRequest_eq htry
      · rw [heq] at hp
        exact absurd hp hnew
      · rw [heq] at hp
        exact absurd ((Actor.pendingPathRequestAdmissions_deregisterInterface _ _).subset hp) hnew
      · rw [heq] at hp
        exact absurd hp hnew
    · rw [heq] at hp
      rcases mem_append.mp hp with hp | hp
      · exact absurd hp hnew
      · exact mem_singleton.mp hp ▸ hretained
  · rcases x.poll_cases m with ⟨hsilent, hsame, -⟩ | ⟨p, rest, hpending, hdue, -, hsent, hhanded⟩
    · exact .inl ⟨hsilent, hsame⟩
    · exact .inr ⟨p, by simp [hpending], hdue, hsent, hhanded⟩

end

/-! ### A request that waits for room -/

namespace Session

/-- A request for a path to the destination. -/
def waitingRequest [Sha256] : Bytes := node.buildPathRequestPacket destination none transportId

/-- The interface 1 of the node is full, and nothing has been retained. -/
def full : RetryState ℚ := ⟨nodeWith 0 8, fun _ => 0, []⟩

variable [Sha256] [Ed25519] [Hkdf]

/-- The request is retained, -/
def waiting : RetryState ℚ :=
  full.move (full.actor.admitPathRequest (moment 1700000001) destination 1 waitingRequest false) []

/-- a path is learned, -/
def learned : RetryState ℚ :=
  waiting.move { waiting.actor with
    pathTable := ⟨Table.insert ∅ destination (.new 1700000002 none 0 1 .full), ∅⟩ } []

/-- and lost, while the interface gets room. -/
def lost : RetryState ℚ :=
  learned.move { learned.actor with pathTable := ⟨∅, ∅⟩, interfaces := node.interfaces } []

theorem retry_steps : RetryStep full waiting ∧ RetryStep waiting learned ∧ RetryStep learned lost :=
  ⟨.request full _ destination 1 waitingRequest false, .elsewhere waiting _ (.refl _),
    .elsewhere learned _ (.refl _)⟩

end Session

open Transport.Session Relation in
/-- The retained request is not handed over while it waits, and once when it is polled. -/
theorem retained_requests_sent_once_session :
    let polled := lost.move (lost.actor.pollPendingPathRequest (moment 1700000005))
      (lost.handover (moment 1700000005))
    waiting.keys = [(destination, 1)] ∧ waiting.handover (moment 1700000005) = [] ∧
      polled.handed = [((destination, 1), 1)] ∧ polled.handed.Nodup ∧ polled.keys = [] := by
  intro polled
  obtain ⟨hwaiting, hlearned, hlost⟩ := retry_steps
  have hrun : ReflTransGen RetryStep full polled :=
    (ReflTransGen.single hwaiting).tail hlearned |>.tail hlost |>.tail (.poll lost _)
  exact ⟨by decide +kernel, by decide +kernel, by decide +kernel,
    (retained_requests_sent_once rfl rfl hrun).2.2.1, by decide +kernel⟩

open Transport.Session in
/-- A request is retained when its destination has no route, the destination gets a live route, and
the request is still handed over after that route is gone. -/
theorem retained_request_survives_route :
    (RetryStep full waiting ∧ RetryStep waiting learned ∧ RetryStep learned lost) ∧
      (waiting.actor.pendingPathRequestAdmissions.map fun p => (p.key, p.initialRoute)) =
        [((destination, 1), none)] ∧
      (learned.actor.liveRoute (moment 1700000003) destination).isSome ∧
      lost.handover (moment 1700000005) =
        [((destination, 1), waiting.retained (destination, 1))] ∧
      (lost.actor.pollPendingPathRequest (moment 1700000005)).transmissions =
        [⟨.pathRequest, 1, waitingRequest⟩] := by
  exact ⟨retry_steps, by decide +kernel, by decide +kernel, by decide +kernel, by decide +kernel⟩

end Reticulum.Transport
