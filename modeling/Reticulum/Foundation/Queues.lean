import Mathlib

/-!
# Queues of packets in sessions

A service opens sessions and closes them. A packet of a session is handed on at once, or it waits in
the queue of the session until it is handed on or given up. Some packets carry a ticket, and whoever
holds the other half is told once what became of the packet. The service is described by the small
steps it may take and by the log of what happened; it may keep its sessions in any way. With every
packet that is handed on something goes out, which the log does not show.

## Main results

* `Sound.step`, `Sound.reach` — every step keeps the invariant, and so does every run.
* `History.accepted_sublist` — what is handed on was admitted, in the same order.
* `History.length_pending_le` — queues keep within their capacity.
* `Sound.session_cases`, `Sound.ticket_cases` — sessions are closed and tickets answered once.
* `Passes.reach` — what went out in a run is what its log has as handed on.
-/

namespace Reticulum.Queues

open List

/-! ### The log -/

/-- What happens to packets, tickets and sessions. A packet passes when it is handed on at once; it
is drained when it is handed on from the head of the queue. -/
inductive Occurrence (σ π α ρ : Type*)
  | passed (session : σ) (packet : π) (bestEffort : Bool)
  | queued (session : σ) (packet : π)
  | drained (session : σ) (packet : π)
  | discarded (session : σ) (packet : π)
  | answered (ticket : ℕ) (answer : α)
  | closed (session : σ) (reason : ρ) (dropped : ℕ)
  deriving DecidableEq, Repr

section Log

variable {σ π α ρ : Type*} (g : σ) (log log' : List (Occurrence σ π α ρ))

/-- The packets of all sessions that were handed on, in that order. -/
def handedOn : List (σ × π) :=
  log.filterMap fun
    | .passed g' p _ | .drained g' p => some (g', p)
    | _ => none

/-- The tickets that were answered. -/
def answeredTickets : List ℕ :=
  log.filterMap fun
    | .answered c _ => some c
    | _ => none

/-- The numbers of the sessions that were closed. -/
def closedSessions (number : σ → ℕ) : List ℕ :=
  log.filterMap fun
    | .closed g' _ _ => some (number g')
    | _ => none

section

variable [DecidableEq σ]

/-- The packets that a session took, in the order in which it took them. -/
def admitted : List π :=
  log.filterMap fun
    | .passed g' p _ | .queued g' p => if g' = g then some p else none
    | _ => none

/-- The packets of a session that were handed on, in that order. -/
def accepted : List π :=
  log.filterMap fun
    | .passed g' p _ | .drained g' p => if g' = g then some p else none
    | _ => none

/-- What an occurrence does to the queue of a session. -/
def pendingStep [DecidableEq π] (q : List π) : Occurrence σ π α ρ → List π
  | .queued g' p => if g' = g then q ++ [p] else q
  | .drained g' p | .discarded g' p => if g' = g then q.erase p else q
  | _ => q

/-- The queue of a session, read off the log. -/
def pending [DecidableEq π] : List π := log.foldl (pendingStep g) []

end

variable {g} {log log'} {number : σ → ℕ}

@[simp] theorem handedOn_append : handedOn (log ++ log') = handedOn log ++ handedOn log' :=
  filterMap_append

@[simp] theorem answeredTickets_append :
    answeredTickets (log ++ log') = answeredTickets log ++ answeredTickets log' :=
  filterMap_append

@[simp] theorem closedSessions_append :
    closedSessions (log ++ log') number = closedSessions log number ++ closedSessions log' number :=
  filterMap_append

variable (cs : List ℕ)

@[simp] theorem handedOn_answers (a : α) :
    handedOn (cs.map (Occurrence.answered · a) : List (Occurrence σ π α ρ)) = [] := by
  simp [handedOn, filterMap_map]

@[simp] theorem answeredTickets_answers (a : α) :
    answeredTickets (cs.map (Occurrence.answered · a) : List (Occurrence σ π α ρ)) = cs := by
  simp [answeredTickets, filterMap_map]

@[simp] theorem closedSessions_answers (a : α) :
    closedSessions (cs.map (Occurrence.answered · a) : List (Occurrence σ π α ρ)) number = [] := by
  simp [closedSessions, filterMap_map]

variable [DecidableEq σ] [DecidableEq π]

theorem pending_concat (o : Occurrence σ π α ρ) :
    pending g (log ++ [o]) = pendingStep g (pending g log) o := by
  rw [pending, foldl_append]
  rfl

theorem pending_append_answers (a : α) :
    pending g (log ++ cs.map (Occurrence.answered · a)) = pending g log := by
  induction cs generalizing log with
  | nil => rw [map_nil, append_nil]
  | cons c cs ih =>
    rw [map_cons, append_cons, ih, pending_concat]
    rfl

end Log

/-! ### The service -/

/-- What a kind of service fixes: the numbers of its sessions and the tickets of packets, the answers
that grant, the room in a queue, and how what went out grows when a packet is handed on. -/
structure Service (σ π α β : Type*) where
  number : σ → ℕ
  ticket : π → Option ℕ
  granted : α → Prop
  capacity : ℕ
  hands : σ → π → β → β → Prop

/-- A service: its sessions with their queues, the tickets of packets it is just dealing with, the
numbers of the next session and the next ticket, what went out, and the log. -/
structure State (σ π α ρ β : Type*) where
  sessions : Multiset (σ × List π)
  hand : Multiset ℕ
  nextSession : ℕ
  nextTicket : ℕ
  out : β
  log : List (Occurrence σ π α ρ)

/-- The service before its first step. -/
def State.start (σ π α ρ : Type*) {β : Type*} (out : β) : State σ π α ρ β := ⟨0, 0, 0, 0, out, []⟩

section Service

variable {σ π α ρ β : Type*}

/-- The answer to the holder of the ticket of a packet, if it has one. -/
def answers (ticket : π → Option ℕ) (p : π) (a : α) : List (Occurrence σ π α ρ) :=
  (ticket p).toList.map (.answered · a)

variable (v : Service σ π α β)

/-- The steps of a service. Packets are handed on from the head of a queue, and past the queue only
when it is empty; only a packet with a ticket is given up elsewhere than at the head. -/
inductive Step : State σ π α ρ β → State σ π α ρ β → Prop
  | bind (s) {g} (hg : v.number g = s.nextSession) : Step s
      { s with sessions := (g, []) ::ₘ s.sessions, nextSession := s.nextSession + 1 }
  | submit (s) : Step s
      { s with hand := s.nextTicket ::ₘ s.hand, nextTicket := s.nextTicket + 1 }
  | refuse (s) {hand c a} (hhand : s.hand = c ::ₘ hand) (ha : ¬ v.granted a) : Step s
      { s with hand, log := s.log ++ [.answered c a] }
  | pass (s) {g p b others out} (hs : s.sessions = (g, []) ::ₘ others)
      (hout : v.hands g p s.out out) : Step s { s with out, log := s.log ++ [.passed g p b] }
  | queue (s) {g q p others hand} (hs : s.sessions = (g, q) ::ₘ others) (hq : q.length < v.capacity)
      (hhand : s.hand = (↑(v.ticket p).toList : Multiset ℕ) + hand) : Step s
      { s with sessions := (g, q ++ [p]) ::ₘ others, hand, log := s.log ++ [.queued g p] }
  | drain (s) {g q p others out} (a) (hs : s.sessions = (g, p :: q) ::ₘ others)
      (hout : v.hands g p s.out out) : Step s
      { s with
        sessions := (g, q) ::ₘ others
        out
        log := s.log ++ [.drained g p] ++ answers v.ticket p a }
  | discard (s) {g l p r others a} (hs : s.sessions = (g, l ++ p :: r) ::ₘ others)
      (hp : l = [] ∨ (v.ticket p).isSome) (ha : ¬ v.granted a) : Step s
      { s with
        sessions := (g, l ++ r) ::ₘ others
        log := s.log ++ [.discarded g p] ++ answers v.ticket p a }
  | close (s) {g q others a} (reason : ρ) (hs : s.sessions = (g, q) ::ₘ others)
      (ha : ¬ v.granted a) : Step s
      { s with
        sessions := others
        log := s.log ++ (q.filterMap v.ticket).map (.answered · a) ++ [.closed g reason q.length] }

/-- Any number of steps. -/
abbrev Reach : State σ π α ρ β → State σ π α ρ β → Prop := Relation.ReflTransGen (Step v)

/-- What goes out with packets that are handed on in a row. -/
inductive Passes (start : β) : List (σ × π) → β → Prop
  | nil : Passes start [] start
  | hand {l out out' g p} (h : Passes start l out) (hout : v.hands g p out out') :
      Passes start (l ++ [(g, p)]) out'

variable [DecidableEq σ] [DecidableEq π]

/-- An occurrence that is in order after a log. -/
def Right (log : List (Occurrence σ π α ρ)) : Occurrence σ π α ρ → Prop
  | .passed g _ _ => pending g log = []
  | .queued g _ => (pending g log).length < v.capacity
  | .drained g p => (pending g log).head? = some p
  | .discarded g p => p ∈ pending g log
  | .answered c a => v.granted a → ∃ g p, .drained g p ∈ log ∧ v.ticket p = some c
  | .closed g _ dropped => dropped = (pending g log).length

/-- A log whose every occurrence was in order when it happened. -/
def History (log : List (Occurrence σ π α ρ)) : Prop :=
  ∀ l o, l ++ [o] <+: log → Right v l o

/-- The invariant of a service. -/
structure Sound (s : State σ π α ρ β) : Prop where
  /-- Every session is there or has been closed, once. -/
  sessions : s.sessions.map (fun e => v.number e.1) + ↑(closedSessions s.log v.number) =
    Multiset.range s.nextSession
  /-- Every ticket waits in a queue, is in hand or has been answered, once. -/
  tickets : (s.sessions.bind fun e => (↑(e.2.filterMap v.ticket) : Multiset ℕ)) + s.hand +
    ↑(answeredTickets s.log) = Multiset.range s.nextTicket
  queues : ∀ e ∈ s.sessions, pending e.1 s.log = e.2
  fresh : ∀ g, s.nextSession ≤ v.number g → pending g s.log = []
  history : History v s.log

variable {v} {s s' : State σ π α ρ β} {log : List (Occurrence σ π α ρ)} {g : σ}
  {p : π} {q : List π}

/-! ### Histories -/

variable {o : Occurrence σ π α ρ}

namespace History

theorem nil : History v ([] : List (Occurrence σ π α ρ)) := by
  intro l o h
  exact absurd (prefix_nil.mp h) (append_ne_nil_of_right_ne_nil _ (cons_ne_nil _ _))

theorem concat_iff :
    History v (log ++ [o]) ↔
      History v log ∧ Right v log o := by
  constructor
  · intro h
    exact ⟨fun l o' hl => h l o' (hl.trans (prefix_append _ _)), h log o prefix_rfl⟩
  · rintro ⟨h, ho⟩ l o' hl
    rcases prefix_concat_iff.mp hl with heq | hl
    · obtain ⟨rfl, ho'⟩ := append_inj' heq rfl
      rwa [singleton_inj.mp ho']
    · exact h l o' hl

section

variable (h : History v log)

include h

/-- Answers that grant nothing are always in order. -/
theorem append_answers (cs : List ℕ) {a : α}
    (ha : ¬ v.granted a) : History v (log ++ cs.map (.answered · a)) := by
  induction cs generalizing log with
  | nil => rwa [map_nil, append_nil]
  | cons c cs ih =>
    rw [map_cons, append_cons]
    exact ih (concat_iff.mpr ⟨h, fun hgranted => absurd hgranted ha⟩)

/-- What is handed on, followed by what waits, was admitted in this order. -/
theorem accepted_append_pending (g : σ) :
    (accepted g log ++ pending g log).Sublist (admitted g log) := by
  induction log using List.reverseRecOn with
  | nil => exact .slnil
  | append_singleton log o ih =>
    obtain ⟨h, ho⟩ := concat_iff.mp h
    have ih := ih h
    rw [pending_concat, accepted, admitted, filterMap_append, filterMap_append,
      ← accepted, ← admitted]
    cases o with
    | passed g' p b =>
      by_cases hg : g' = g
      · have hpending : pending g log = [] := hg ▸ ho
        simpa [pendingStep, hg, hpending] using ih.append_right [p]
      · simpa [pendingStep, hg] using ih
    | queued g' p =>
      by_cases hg : g' = g
      · simpa [pendingStep, hg] using ih.append_right [p]
      · simpa [pendingStep, hg] using ih
    | drained g' p =>
      by_cases hg : g' = g
      · have hhead : (pending g log).head? = some p := hg ▸ ho
        obtain ⟨q, hq⟩ := head?_eq_some_iff.mp hhead
        simpa [pendingStep, hg, hq] using ih
      · simpa [pendingStep, hg] using ih
    | discarded g' p =>
      by_cases hg : g' = g
      · simpa [pendingStep, hg] using
          ((List.Sublist.refl _).append erase_sublist).trans ih
      · simpa [pendingStep, hg] using ih
    | answered c a => simpa [pendingStep] using ih
    | closed g' reason dropped => simpa [pendingStep] using ih

theorem accepted_sublist (g : σ) : (accepted g log).Sublist (admitted g log) :=
  (sublist_append_left _ _).trans (h.accepted_append_pending g)

/-- Queues keep within their capacity. -/
theorem length_pending_le (g : σ) : (pending g log).length ≤ v.capacity := by
  induction log using List.reverseRecOn with
  | nil => exact Nat.zero_le _
  | append_singleton log o ih =>
    obtain ⟨h, ho⟩ := concat_iff.mp h
    have ih := ih h
    rw [pending_concat]
    cases o with
    | queued g' p =>
      simp only [pendingStep]
      split_ifs with hg
      · rw [length_append]
        exact hg ▸ ho
      · exact ih
    | drained g' p | discarded g' p =>
      simp only [pendingStep]
      split_ifs
      · exact length_erase_le.trans ih
      · exact ih
    | passed | answered | closed => exact ih

end

end History

/-! ### The invariant -/

/-- In an exact account a number is on the one side or, once, on the other. -/
theorem mem_or_count_eq_one {waiting : Multiset ℕ} {done : List ℕ} {n c : ℕ}
    (h : waiting + ↑done = Multiset.range n) (hc : c < n) :
    c ∈ waiting ∧ c ∉ done ∨ c ∉ waiting ∧ done.count c = 1 := by
  have hcount : waiting.count c + done.count c = 1 := by
    rw [← Multiset.coe_count, ← Multiset.count_add, h]
    exact Multiset.count_eq_one_of_mem (Multiset.nodup_range n) (Multiset.mem_range.mpr hc)
  by_cases hmem : c ∈ waiting
  · have hpos := Multiset.count_pos.mpr hmem
    exact .inl ⟨hmem, count_eq_zero.mp (by omega)⟩
  · rw [Multiset.count_eq_zero.mpr hmem, zero_add] at hcount
    exact .inr ⟨hmem, hcount⟩

namespace Sound

theorem start (out : β) : Sound v (State.start σ π α ρ out) where
  sessions := rfl
  tickets := rfl
  queues := fun _ he => absurd he (Multiset.notMem_zero _)
  fresh := fun _ _ => rfl
  history := .nil

variable {others : Multiset (σ × List π)} {e : σ × List π}

section

variable (h : Sound v s)

include h

theorem lt_of_mem (he : e ∈ s.sessions) : v.number e.1 < s.nextSession := by
  rw [← Multiset.mem_range, ← h.sessions]
  exact Multiset.mem_add.mpr (.inl (Multiset.mem_map_of_mem _ he))

/-- No two sessions have one number. -/
theorem ne_of_mem (hs : s.sessions = (g, q) ::ₘ others) (he : e ∈ others) : g ≠ e.1 := by
  have hnodup := Multiset.nodup_range s.nextSession
  rw [← h.sessions, hs, Multiset.map_cons, Multiset.cons_add, Multiset.nodup_cons] at hnodup
  rintro rfl
  exact hnodup.1 (Multiset.mem_add.mpr (.inl (Multiset.mem_map.mpr ⟨e, he, rfl⟩)))

/-- No two packets in a queue have one ticket. -/
theorem notMem_of_ticket {l r : List π} (hs : s.sessions = (g, l ++ p :: r) ::ₘ others)
    (hp : (v.ticket p).isSome) : p ∉ l := by
  obtain ⟨c, hc⟩ := Option.isSome_iff_exists.mp hp
  have hnodup := Multiset.nodup_range s.nextTicket
  rw [← h.tickets, hs, Multiset.cons_bind] at hnodup
  have hqueue := (Multiset.nodup_add.mp (Multiset.nodup_add.mp (Multiset.nodup_add.mp
    hnodup).1).1).1
  rw [Multiset.coe_nodup, filterMap_append, filterMap_cons_some hc] at hqueue
  intro hl
  exact (nodup_append.mp hqueue).2.2 c (mem_filterMap.mpr ⟨p, hl, hc⟩) c
    mem_cons_self rfl

/-- The queue that the log has for a session. -/
theorem pending_eq (hs : s.sessions = (g, q) ::ₘ others) : pending g s.log = q :=
  h.queues (g, q) (hs ▸ Multiset.mem_cons_self _ _)

end

variable {hand : Multiset ℕ}

section

variable (h : Sound v s)

include h

/-- An occurrence in one session. The tickets of packets that leave the queue are in hand. -/
theorem occurrence (hs : s.sessions = (g, q) ::ₘ others) {q' : List π}
    (hself : pendingStep g q o = q') (hothers : ∀ g' q, g ≠ g' → pendingStep g' q o = q)
    (hclosed : closedSessions [o] v.number = []) (hanswered : answeredTickets [o] = [])
    (htickets : (↑(q'.filterMap v.ticket) : Multiset ℕ) + hand = ↑(q.filterMap v.ticket) + s.hand)
    (hright : Right v s.log o) :
    Sound v
      { s with sessions := (g, q') ::ₘ others, hand, log := s.log ++ [o] } where
  sessions := by
    have hall := h.sessions
    rw [hs, Multiset.map_cons] at hall
    rwa [Multiset.map_cons, closedSessions_append, hclosed, append_nil]
  tickets := by
    have hall := h.tickets
    rw [hs, Multiset.cons_bind] at hall
    rw [Multiset.cons_bind, answeredTickets_append, hanswered, append_nil, ← hall,
      add_right_comm _ _ hand, htickets, add_right_comm _ s.hand]
  queues e he := by
    rw [pending_concat]
    rcases Multiset.mem_cons.mp he with rfl | he
    · rw [h.pending_eq hs, hself]
    · rw [hothers _ _ (h.ne_of_mem hs he), h.queues e (hs ▸ Multiset.mem_cons_of_mem he)]
  fresh g' hg' := by
    have hlt := h.lt_of_mem (e := (g, q)) (hs ▸ Multiset.mem_cons_self _ _)
    have hne : g ≠ g' := fun heq => (hlt.trans_le hg').ne (congrArg v.number heq)
    rw [pending_concat, hothers g' _ hne, h.fresh g' hg']
  history := History.concat_iff.mpr ⟨h.history, hright⟩

/-- Tickets in hand are answered. -/
theorem answer (cs : List ℕ) {a : α} (hhand : s.hand = ↑cs + hand)
    (hhistory : History v (s.log ++ cs.map (.answered · a))) :
    Sound v { s with hand, log := s.log ++ cs.map (.answered · a) } where
  sessions := by
    rw [closedSessions_append, closedSessions_answers, append_nil]
    exact h.sessions
  tickets := by
    have hall := h.tickets
    rw [hhand] at hall
    rw [answeredTickets_append, answeredTickets_answers, ← Multiset.coe_add, ← hall]
    abel
  queues e he := (pending_append_answers cs a).trans (h.queues e he)
  fresh g hg := (pending_append_answers cs a).trans (h.fresh g hg)
  history := hhistory

/-- A packet leaves its queue, and its ticket is answered. -/
theorem occurrence_answers {l r : List π} {a : α}
    (hs : s.sessions = (g, l ++ p :: r) ::ₘ others)
    (hself : pendingStep g (l ++ p :: r) o = l ++ r)
    (hothers : ∀ g' q, g ≠ g' → pendingStep g' q o = q) (hclosed : closedSessions [o] v.number = [])
    (hanswered : answeredTickets [o] = []) (hright : Right v s.log o)
    (hanswers : ∀ c, v.ticket p = some c → Right v (s.log ++ [o])
      (.answered c a)) :
    Sound v
      { s with
        sessions := (g, l ++ r) ::ₘ others
        log := s.log ++ [o] ++ answers v.ticket p a } := by
  have htickets : (↑((l ++ r).filterMap v.ticket) : Multiset ℕ) + (↑(v.ticket p).toList + s.hand) =
      ↑((l ++ p :: r).filterMap v.ticket) + s.hand := by
    have hcons : (p :: r).filterMap v.ticket = (v.ticket p).toList ++ r.filterMap v.ticket := by
      cases hp : v.ticket p <;> simp [hp]
    rw [filterMap_append, filterMap_append, hcons]
    simp only [← Multiset.coe_add]
    abel
  have hleft := h.occurrence hs hself hothers hclosed hanswered htickets hright
  refine hleft.answer _ rfl ?_
  cases hp : v.ticket p with
  | none => simpa using hleft.history
  | some c => exact History.concat_iff.mpr ⟨hleft.history, hanswers c hp⟩

/-- The accounts are not about what went out. -/
theorem set_out (out : β) : Sound v { s with out } := { h with }

/-- Every step keeps the invariant. -/
theorem step (hstep : Step v s s') : Sound v s' := by
  cases hstep with
  | bind hnumber =>
    refine ⟨?_, ?_, fun e he => ?_, fun g hg => ?_, h.history⟩
    · rw [Multiset.map_cons, Multiset.cons_add, h.sessions, hnumber, Multiset.range_succ]
    · simpa using h.tickets
    · rcases Multiset.mem_cons.mp he with rfl | he
      · exact h.fresh _ hnumber.ge
      · exact h.queues e he
    · exact h.fresh g (Nat.le_of_succ_le hg)
  | submit =>
    refine ⟨h.sessions, ?_, h.queues, h.fresh, h.history⟩
    rw [Multiset.add_cons, Multiset.cons_add, h.tickets, Multiset.range_succ]
  | @refuse hand c a hhand ha => exact h.answer [c] hhand (h.history.append_answers [c] ha)
  | @pass g p b others out hs =>
    have hpassed := h.occurrence hs (o := .passed g p b) (Eq.refl []) (fun _ _ _ => rfl) rfl rfl
      rfl (h.pending_eq hs)
    rw [← hs] at hpassed
    exact hpassed.set_out out
  | @queue g q p others hand hs hq hhand =>
    refine h.occurrence hs (o := .queued g p) (if_pos rfl) (fun _ _ hg => if_neg hg) rfl rfl ?_ ?_
    · have hlast : [p].filterMap v.ticket = (v.ticket p).toList := by
        cases hp : v.ticket p <;> simp [hp]
      rw [filterMap_append, hlast, hhand, ← Multiset.coe_add, add_assoc]
    · exact (congrArg List.length (h.pending_eq hs)).trans_lt hq
  | @drain g q p others out a hs =>
    refine (h.set_out out).occurrence_answers (l := []) hs (o := .drained g p) ?_
      (fun _ _ hg => if_neg hg) rfl
      rfl ?_ fun c hc _ => ⟨g, p, mem_append_right _ mem_cons_self, hc⟩
    · simp [pendingStep]
    · exact congrArg List.head? (h.pending_eq hs)
  | @discard g l p r others a hs hp ha =>
    refine h.occurrence_answers hs (o := .discarded g p) ?_ (fun _ _ hg => if_neg hg) rfl rfl ?_
      fun c _ hgranted => absurd hgranted ha
    · have hfirst : p ∉ l := by
        rcases hp with rfl | hp
        · exact not_mem_nil
        · exact h.notMem_of_ticket hs hp
      simp [pendingStep, erase_append_right _ hfirst]
    · have hpending := h.pending_eq hs
      exact (congrArg (p ∈ ·) hpending).mpr (mem_append_right _ mem_cons_self)
  | @close g q others a reason hs ha =>
    have hanswered := h.history.append_answers (q.filterMap v.ticket) ha
    have hpending := (pending_append_answers (q.filterMap v.ticket) a).trans (h.pending_eq hs)
    refine ⟨?_, ?_, fun e he => ?_, fun g' hg' => ?_, ?_⟩
    · have hall := h.sessions
      rw [hs, Multiset.map_cons] at hall
      rw [closedSessions_append, closedSessions_append, closedSessions_answers, append_nil,
        ← Multiset.coe_add, ← hall]
      change _ + (_ + {v.number g}) = _
      rw [← Multiset.singleton_add]
      abel
    · have hall := h.tickets
      rw [hs, Multiset.cons_bind] at hall
      rw [answeredTickets_append, answeredTickets_append, answeredTickets_answers,
        ← Multiset.coe_add, ← Multiset.coe_add, ← hall]
      change _ + _ + (_ + _ + 0) = _
      abel
    · rw [pending_concat]
      exact (pending_append_answers _ a).trans (h.queues e (hs ▸ Multiset.mem_cons_of_mem he))
    · rw [pending_concat]
      exact (pending_append_answers _ a).trans (h.fresh g' hg')
    · exact History.concat_iff.mpr ⟨hanswered, (congrArg List.length hpending).symm⟩

/-- Every run keeps the invariant. -/
theorem reach (hreach : Reach v s s') : Sound v s' := by
  induction hreach with
  | refl => exact h
  | tail _ hstep ih => exact ih.step hstep

/-! ### What the invariant says -/

/-- A session that was opened is there and has not been closed, or is gone and was closed once. -/
theorem session_cases {n : ℕ} (hn : n < s.nextSession) :
    (∃ e ∈ s.sessions, v.number e.1 = n) ∧ n ∉ closedSessions s.log v.number ∨
      (¬∃ e ∈ s.sessions, v.number e.1 = n) ∧ (closedSessions s.log v.number).count n = 1 := by
  simpa only [Multiset.mem_map] using mem_or_count_eq_one h.sessions hn

/-- A ticket that was handed out waits in a queue and has not been answered, or no longer waits and
was answered once. -/
theorem ticket_cases (hhand : s.hand = 0) {c : ℕ} (hc : c < s.nextTicket) :
    (∃ e ∈ s.sessions, c ∈ e.2.filterMap v.ticket) ∧ c ∉ answeredTickets s.log ∨
      (¬∃ e ∈ s.sessions, c ∈ e.2.filterMap v.ticket) ∧ (answeredTickets s.log).count c = 1 := by
  have hall := h.tickets
  rw [hhand, add_zero] at hall
  simpa only [Multiset.mem_bind, Multiset.mem_coe] using mem_or_count_eq_one hall hc

end

end Sound

/-! ### What goes out -/

namespace Passes

omit [DecidableEq σ] [DecidableEq π]

variable {start : β}

/-- Something goes out with the packets that a step hands on, and with no others. -/
theorem step (h : Passes v start (handedOn s.log) s.out) (hstep : Step v s s') :
    Passes v start (handedOn s'.log) s'.out := by
  cases hstep with
  | pass _ hout =>
    rw [handedOn_append]
    exact h.hand hout
  | drain _ _ hout =>
    rw [handedOn_append, answers, handedOn_answers, append_nil, handedOn_append]
    exact h.hand hout
  | bind | submit => exact h
  | refuse | queue | discard | close => simpa [handedOn, answers] using h

theorem reach (h : Passes v start (handedOn s.log) s.out) (hreach : Reach v s s') :
    Passes v start (handedOn s'.log) s'.out := by
  induction hreach with
  | refl => exact h
  | tail _ hstep ih => exact ih.step hstep

end Passes

end Service

end Reticulum.Queues
