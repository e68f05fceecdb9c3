import Reticulum.Transport.Endpoint

/-!
# Accounts of endpoints

Every call on the endpoints of a node is a run of the service of `Queues`, whose sessions are the
bindings and whose tickets are the tracked operations. So the packets of an endpoint leave in order,
every tracked packet has one outcome, and every endpoint ends once. What the log has as handed on was
taken by the interface of the endpoint, or by the other side of a link within the node.

## Main definitions

* `GoesOut` — what an interface takes, or the other side of a link within the node.
* `LinkEndpoints.view` — the endpoints as a service with queues.
* `LinkEndpoints.Follows` — a run of that service leads from one state to another.

## Main results

* `LinkEndpoints.leads_call` — a call is a run of the service.
* `LinkEndpoints.egress_accounted` — order, room, outcomes and ends in every run.
-/

namespace Reticulum.Transport

open Wire Queues LinkEndpointQueuedPacket

/-- An outcome that says that the packet was sent. -/
def LinkEndpointDispatchOutcome.IsSent : LinkEndpointDispatchOutcome → Prop
  | .sent _ _ => True
  | _ => False

variable {outcome : LinkEndpointDispatchOutcome}

theorem LinkEndpointDispatchCompletion.not_isSent_of_terminalBeforeAdmission
    {completion : LinkEndpointDispatchCompletion} {seen : Surroundings}
    (h : completion.terminalBeforeAdmission seen = some outcome) : ¬ outcome.IsSent := by
  unfold terminalBeforeAdmission at h
  split_ifs at h
  all_goals
    obtain rfl := Option.some.inj h
    exact fun h => h

/-- What went out: the packets that interfaces took, and what the two sides of local links were
handed. -/
abbrev EndpointOutput : Type := List Transmission × List (ℕ × DestinationEvent)

/-- The other side of a link within the node, by the interface that stands for one side. -/
def otherSide (interfaceId : ℕ) : Option ℕ :=
  if interfaceId = localLinkInitiatorInterface then some localLinkResponderInterface
  else if interfaceId = localLinkResponderInterface then some localLinkInitiatorInterface
  else none

/-- A packet goes out over an interface: the interface takes it, or the other side of the link is
handed it. -/
inductive GoesOut (interfaceId : ℕ) (raw : Bytes) (out : EndpointOutput) : EndpointOutput → Prop
  | interface (h : otherSide interfaceId = none) :
      GoesOut interfaceId raw out (out.1 ++ [⟨.relay, interfaceId, raw⟩], out.2)
  | within {target} (h : otherSide interfaceId = some target) (channel : ℕ) (owner : Option ℕ) :
      GoesOut interfaceId raw out (out.1, out.2 ++ [(channel, .inboundPacket raw target owner)])

/-- Endpoints as a service with queues. -/
def endpointService : Service (ℕ × LinkEndpointBinding) LinkEndpointQueuedPacket
    LinkEndpointDispatchOutcome EndpointOutput where
  number := Prod.fst
  ticket := ticket
  granted := LinkEndpointDispatchOutcome.IsSent
  capacity := linkEndpointEgressQueueCapacity
  hands session packet := GoesOut session.2.interfaceId packet.raw

/-- A state of the service. -/
abbrev EndpointView : Type :=
  Queues.State (ℕ × LinkEndpointBinding) LinkEndpointQueuedPacket LinkEndpointDispatchOutcome
    LinkEndpointTerminalReason EndpointOutput

/-- A run of the service. -/
abbrev Leads : EndpointView → EndpointView → Prop := Reach endpointService

namespace LinkEndpoints

variable {F : Type}

/-! ### Endpoints as a service -/

section

variable (s : LinkEndpoints F) (hand : Multiset ℕ)

/-- The endpoints as a service with queues, with the tracked operations in hand. -/
def view : EndpointView where
  sessions := ↑(s.linkEndpoints.values.map fun entry => (entry.session, entry.egress))
  hand
  nextSession := s.nextGeneration
  nextTicket := s.nextCompletion
  out := (s.actor.transmissions, s.handedOver)
  log := s.log

/-- The same with one endpoint that is out of the table. -/
def viewWith (session : ℕ × LinkEndpointBinding) (egress : List LinkEndpointQueuedPacket) :
    EndpointView :=
  { s.view hand with sessions := (session, egress) ::ₘ (s.view hand).sessions }

end

/-- The service runs from one state to another, whatever operations are in hand. -/
def Follows (s s' : LinkEndpoints F) : Prop := ∀ hand, Leads (s.view hand) (s'.view hand)

/-- The same from a state with one endpoint out of the table. -/
def FollowsWith (s : LinkEndpoints F) (entry : LinkEndpointEntry) (s' : LinkEndpoints F) : Prop :=
  ∀ hand, Leads (s.viewWith hand entry.session entry.egress) (s'.view hand)

variable {s s' s'' : LinkEndpoints F} {hand : Multiset ℕ} {key : Octets 16 × LinkEndpointRole}
  {entry : LinkEndpointEntry}

theorem view_of_get (h : s.linkEndpoints.get key = some entry) (hand : Multiset ℕ) :
    s.view hand = viewWith { s with linkEndpoints := s.linkEndpoints.erase key } hand
      entry.session entry.egress := by
  have hperm := (Table.values_perm_of_get h).map fun entry : LinkEndpointEntry =>
    (entry.session, entry.egress)
  simp only [viewWith, view, Multiset.cons_coe, Multiset.coe_eq_coe.mpr hperm, List.map_cons]

theorem view_insert (s : LinkEndpoints F) (key : Octets 16 × LinkEndpointRole)
    (entry : LinkEndpointEntry) (hand : Multiset ℕ) :
    view { s with linkEndpoints := s.linkEndpoints.insert key entry } hand =
      viewWith { s with linkEndpoints := s.linkEndpoints.erase key } hand entry.session
        entry.egress := by
  simp only [viewWith, view, Multiset.cons_coe, Table.values_insert, List.map_cons]

theorem exists_mem_sessions {p : (ℕ × LinkEndpointBinding) × List LinkEndpointQueuedPacket → Prop} :
    (∃ e ∈ (s.view hand).sessions, p e) ↔
      ∃ key entry, s.linkEndpoints.get key = some entry ∧ p (entry.session, entry.egress) := by
  simp only [view, Multiset.mem_coe, List.mem_map, Table.mem_values]
  constructor
  · rintro ⟨-, ⟨entry, ⟨key, hget⟩, rfl⟩, hp⟩
    exact ⟨key, entry, hget, hp⟩
  · rintro ⟨key, entry, hget, hp⟩
    exact ⟨_, ⟨entry, ⟨key, hget⟩, rfl⟩, hp⟩

namespace Follows

theorem refl (s : LinkEndpoints F) : Follows s s := fun _ => .refl

theorem trans (h : Follows s s') (h' : Follows s' s'') : Follows s s'' :=
  fun hand => (h hand).trans (h' hand)

theorem foldl {ι : Type} {f : LinkEndpoints F → ι → LinkEndpoints F} (hf : ∀ s i, Follows s (f s i))
    (l : List ι) (s : LinkEndpoints F) : Follows s (l.foldl f s) := by
  induction l generalizing s with
  | nil => exact refl s
  | cons i l ih => exact (hf s i).trans (ih _)

/-- An endpoint is taken out of the table. -/
theorem of_get (h : s.linkEndpoints.get key = some entry)
    (hout : FollowsWith { s with linkEndpoints := s.linkEndpoints.erase key } entry s') :
    Follows s s' :=
  fun hand => view_of_get h hand ▸ hout hand

end Follows

theorem FollowsWith.trans (h : FollowsWith s entry s') (h' : Follows s' s'') :
    FollowsWith s entry s'' :=
  fun hand => (h hand).trans (h' hand)

/-- An endpoint is put back into the table. -/
theorem followsWith_insert (hgone : s.linkEndpoints.get key = none) :
    FollowsWith s entry { s with linkEndpoints := s.linkEndpoints.insert key entry } := by
  intro hand
  rw [view_insert, Table.erase_of_get_eq_none hgone]

/-! ### The end of an endpoint -/

theorem followsWith_notifyLinkEndpointTerminal (s : LinkEndpoints F) (entry : LinkEndpointEntry)
    (reason : LinkEndpointTerminalReason) :
    FollowsWith s entry (s.notifyLinkEndpointTerminal entry reason) :=
  fun _ => .single (.close _ reason rfl id)

section

variable {deregister : LinkEndpoints F → Octets 16 → LinkEndpoints F}
  (hderegister : ∀ s hash, Follows s (deregister s hash))

include hderegister

theorem followsWith_finishWith (s : LinkEndpoints F) (entry : LinkEndpointEntry)
    (reason : LinkEndpointTerminalReason) :
    FollowsWith s entry (s.finishWith deregister entry reason) := by
  have hnotified := followsWith_notifyLinkEndpointTerminal s entry reason
  unfold finishWith
  dsimp only
  split_ifs
  · exact hnotified.trans (hderegister _ _)
  · exact hnotified

theorem follows_terminateWith (s : LinkEndpoints F) (key : Octets 16 × LinkEndpointRole)
    (reason : LinkEndpointTerminalReason) : Follows s (s.terminateWith deregister key reason) := by
  unfold terminateWith
  split
  · exact .refl s
  next entry hentry => exact .of_get hentry (followsWith_finishWith hderegister _ entry reason)

end

theorem follows_deregisterDestination (s : LinkEndpoints F) (hash : Octets 16) :
    Follows s (s.deregisterDestination hash) := by
  have hreleased (s : LinkEndpoints F) (hash : Octets 16) : Follows s (s.releaseDestination hash) :=
    fun _ => .refl
  unfold deregisterDestination
  dsimp only
  split_ifs
  · exact (hreleased s hash).trans
      (.foldl (fun s key => follows_terminateWith hreleased s key .interfaceRemoved) _ _)
  · exact hreleased s hash

theorem followsWith_finishLinkEndpointTerminal (s : LinkEndpoints F) (entry : LinkEndpointEntry)
    (reason : LinkEndpointTerminalReason) :
    FollowsWith s entry (s.finishLinkEndpointTerminal entry reason) :=
  followsWith_finishWith follows_deregisterDestination s entry reason

theorem follows_terminateLinkEndpoint (s : LinkEndpoints F) (key : Octets 16 × LinkEndpointRole)
    (reason : LinkEndpointTerminalReason) : Follows s (s.terminateLinkEndpoint key reason) :=
  follows_terminateWith follows_deregisterDestination s key reason

theorem follows_terminateLinkEndpoints (s : LinkEndpoints F)
    (keys : List (Octets 16 × LinkEndpointRole)) (reason : LinkEndpointTerminalReason) :
    Follows s (s.terminateLinkEndpoints keys reason) :=
  .foldl (fun s key => follows_terminateLinkEndpoint s key reason) keys s

theorem follows_deregisterInterfaceWithLinkReason [DecidableEq F] [Binary64 F] (s : LinkEndpoints F)
    (id : ℕ) (reason : LinkEndpointTerminalReason) :
    Follows s (s.deregisterInterfaceWithLinkReason id reason) := by
  have hview (s : LinkEndpoints F) (hand : Multiset ℕ) :
      view { s with actor := s.actor.deregisterInterface id } hand = s.view hand := by
    simp only [view, Actor.transmissions_deregisterInterface]
  intro hand
  rw [deregisterInterfaceWithLinkReason, hview]
  exact follows_terminateLinkEndpoints s _ reason hand

variable {w : ℕ → Surroundings}

theorem follows_retireUnpublishedLinkEndpoint (s : LinkEndpoints F)
    (key : Octets 16 × LinkEndpointRole) : Follows s (s.retireUnpublishedLinkEndpoint w key) := by
  unfold retireUnpublishedLinkEndpoint
  split_ifs
  · exact follows_terminateLinkEndpoint s.tick key .unbound
  · exact fun _ => .refl

/-! ### Handing packets to an interface -/

/-- An attempt to send a packet: it is sent and goes out, or no more than interfaces were looked at. -/
inductive Attempts (s : LinkEndpoints F) (interfaceId : ℕ) (raw : Bytes) :
    Actor.InterfaceSendOutcome × LinkEndpoints F → Prop
  | sent {actor readings handedOver} (hout : GoesOut interfaceId raw
      (s.actor.transmissions, s.handedOver) (actor.transmissions, handedOver)) :
      Attempts s interfaceId raw (.sent, { s with actor, readings, handedOver })
  | unsent {result next} (hne : result ≠ .sent) (interfaces readings)
      (hs : next = { s with actor := { s.actor with interfaces }, readings }) :
      Attempts s interfaceId raw (result, next)

section

variable [Sha256] {linkId : Octets 16} {interfaceId : ℕ}

theorem eq_of_prepareLinkEndpointPacket {request : OutboundRequest} {raw : Option Bytes}
    (h : s.prepareLinkEndpointPacket w linkId interfaceId request = (raw, s')) :
    ∃ packetHashlist readings,
      s' = { s with actor := { s.actor with packetHashlist }, readings } := by
  unfold prepareLinkEndpointPacket at h
  dsimp only at h
  split at h
  · exact ⟨_, _, (congrArg Prod.snd h).symm⟩
  split at h
  · exact ⟨_, _, (congrArg Prod.snd h).symm⟩
  split at h
  · exact ⟨_, _, (congrArg Prod.snd h).symm⟩
  · exact ⟨_, _, (congrArg Prod.snd h).symm⟩

omit [Sha256] in
theorem attempts_trySendLocal (raw : Bytes) {channel target : ℕ}
    (h : otherSide interfaceId = some target) :
    s.Attempts interfaceId raw (s.trySendLocal w channel target raw) := by
  unfold trySendLocal
  split_ifs
  · exact .unsent (by simp) _ _ rfl
  · exact .unsent (by simp) _ _ rfl
  · exact .sent (.within h channel _)

variable [Ed25519] [Hkdf]

theorem attempts_trySendLinkEndpointRaw (s : LinkEndpoints F) (interfaceId : ℕ)
    (linkId : Octets 16) (role : LinkEndpointRole) (raw : Bytes) :
    s.Attempts interfaceId raw (s.trySendLinkEndpointRaw w interfaceId linkId role raw) := by
  unfold trySendLinkEndpointRaw
  split_ifs with hinitiator hresponder hother
  · split
    · exact .unsent (by simp) _ _ rfl
    · exact attempts_trySendLocal raw (if_pos hinitiator.1)
  · split
    · exact .unsent (by simp) _ _ rfl
    · exact attempts_trySendLocal raw (hresponder.1 ▸ rfl)
  · exact .unsent (by simp) _ _ rfl
  · rw [not_or] at hother
    have hside : otherSide interfaceId = none := by
      rw [otherSide, if_neg hother.1, if_neg hother.2]
    rcases hsend : (s.actor.observe (w s.readings)).trySendToInterface .relay interfaceId raw with
      ⟨outcome, actor⟩
    rcases Actor.trySendToInterface_cases hsend with ⟨rfl, -, hsent⟩ | ⟨hne, rfl⟩
    · refine .sent ?_
      rw [hsent]
      exact .interface hside
    · exact .unsent hne _ _ rfl

end

/-! ### Draining -/

variable {packet : LinkEndpointQueuedPacket} {session : ℕ × LinkEndpointBinding}

theorem leads_giveUp (s : LinkEndpoints F) {l r : List LinkEndpointQueuedPacket}
    (hp : l = [] ∨ packet.ticket.isSome) (ha : ¬ outcome.IsSent) :
    Leads (s.viewWith hand session (l ++ packet :: r))
      ((s.giveUp session packet outcome).viewWith hand session (l ++ r)) := by
  have hsessions : (s.viewWith hand session (l ++ packet :: r)).sessions =
    (session, l ++ packet :: r) ::ₘ (s.view hand).sessions := rfl
  exact .single (.discard _ hsessions hp ha)

theorem leads_handOn {r : List LinkEndpointQueuedPacket} {actor : Actor F} {readings : ℕ}
    {handedOver : List (ℕ × DestinationEvent)} (hout : GoesOut session.2.interfaceId packet.raw
      (s.actor.transmissions, s.handedOver) (actor.transmissions, handedOver)) :
    Leads (s.viewWith hand session (packet :: r))
      ((handOn { s with actor, readings, handedOver } session packet outcome).viewWith hand
        session r) := by
  have hsessions : (s.viewWith hand session (packet :: r)).sessions =
    (session, packet :: r) ::ₘ (s.view hand).sessions := rfl
  exact .single (.drain _ outcome hsessions hout)

/-- Pruning a queue that is set aside. -/
theorem leads_pruneQueue (hand : Multiset ℕ) (session : ℕ × LinkEndpointBinding)
    (done queue : List LinkEndpointQueuedPacket) (s : LinkEndpoints F) :
    Leads (s.viewWith hand session (done ++ queue))
        ((pruneQueue w session queue s).2.viewWith hand session
          (done ++ (pruneQueue w session queue s).1)) ∧
      (pruneQueue w session queue s).2.linkEndpoints = s.linkEndpoints := by
  induction queue generalizing done s with
  | nil => exact ⟨.refl, rfl⟩
  | cons packet rest ih =>
    have hkept (s' : LinkEndpoints F) := ih (done ++ [packet]) s'
    simp only [List.append_assoc, List.singleton_append] at hkept
    unfold pruneQueue
    split
    · exact hkept s
    next completion hcompletion =>
      split
      next outcome houtcome =>
        have htracked : packet.ticket.isSome := by
          rw [ticket, hcompletion]
          rfl
        exact ⟨(leads_giveUp s.tick (.inr htracked) (completion.not_isSent_of_terminalBeforeAdmission
          houtcome)).trans (ih done _).1, (ih done _).2⟩
      · exact hkept s.tick

section

variable [Sha256] [Ed25519] [Hkdf]

/-- Draining a queue that is set aside. -/
theorem leads_drainQueue (hand : Multiset ℕ) (session : ℕ × LinkEndpointBinding)
    (queue : List LinkEndpointQueuedPacket) (s : LinkEndpoints F) :
    Leads (s.viewWith hand session queue)
        ((drainQueue w session queue s).2.2.viewWith hand session (drainQueue w session queue s).1) ∧
      (drainQueue w session queue s).2.2.linkEndpoints = s.linkEndpoints := by
  induction queue generalizing s with
  | nil => exact ⟨.refl, rfl⟩
  | cons packet rest ih =>
    unfold drainQueue
    split
    next outcome houtcome =>
      obtain ⟨completion, -, hterminal⟩ := Option.bind_eq_some_iff.mp houtcome
      exact ⟨(leads_giveUp s.tick (.inl rfl)
        (completion.not_isSent_of_terminalBeforeAdmission hterminal)).trans (ih _).1, (ih _).2⟩
    · have hsend := attempts_trySendLinkEndpointRaw (w := w) s.tick session.2.interfaceId
        session.2.linkId session.2.role packet.raw
      generalize s.tick.trySendLinkEndpointRaw w session.2.interfaceId session.2.linkId
        session.2.role packet.raw = result at hsend ⊢
      cases hsend with
      | sent hout => exact ⟨(leads_handOn (s := s) hout).trans (ih _).1, (ih _).2⟩
      | @unsent outcome s' hne interfaces readings hs =>
        have hsame : s.viewWith hand session (packet :: rest) =
            s'.viewWith hand session (packet :: rest) ∧ s'.linkEndpoints = s.linkEndpoints := by
          rw [hs]
          exact ⟨rfl, rfl⟩
        rw [hsame.1]
        cases outcome with
        | sent => exact absurd rfl hne
        | tooLarge =>
          exact ⟨(leads_giveUp s' (.inl rfl) id).trans (ih _).1, (ih _).2.trans hsame.2⟩
        | _ => exact ⟨.refl, hsame.2⟩

end

section

variable [DecidableEq F] [Binary64 F]

theorem followsWith_finishDrain (hgone : s.linkEndpoints.get key = none) (entry : LinkEndpointEntry)
    (stopped : Option Actor.InterfaceSendOutcome) :
    FollowsWith s entry (s.finishDrain key entry stopped).2 := by
  unfold finishDrain
  split
  · split_ifs
    · exact followsWith_finishLinkEndpointTerminal s entry .unbound
    · exact followsWith_insert hgone
  · split
    · exact followsWith_insert hgone
    next reason _ =>
      have hfinished := followsWith_finishLinkEndpointTerminal s entry reason
      dsimp only
      split_ifs
      · exact hfinished.trans (follows_deregisterInterfaceWithLinkReason _ _ reason)
      · exact hfinished

variable [Sha256] [Ed25519] [Hkdf]

theorem follows_drainOneLinkEndpoint (s : LinkEndpoints F) (key : Octets 16 × LinkEndpointRole) :
    Follows s (s.drainOneLinkEndpoint w key).2 := by
  unfold drainOneLinkEndpoint
  split
  · exact .refl s
  next entry hentry =>
    refine .of_get hentry fun hand => ?_
    set out := tick { s with linkEndpoints := s.linkEndpoints.erase key }
    set pruned := pruneQueue w entry.session entry.egress out
    set drained := drainQueue w entry.session pruned.1 pruned.2
    obtain ⟨hpruned, hpruning⟩ := leads_pruneQueue (w := w) hand entry.session [] entry.egress out
    obtain ⟨hdrained, hdraining⟩ := leads_drainQueue (w := w) hand entry.session pruned.1 pruned.2
    have hgone : drained.2.2.linkEndpoints.get key = none := by
      rw [hdraining, hpruning]
      exact Table.get_erase.trans (if_pos rfl)
    dsimp only
    split
    · exact followsWith_finishLinkEndpointTerminal out entry .unbound hand
    · exact (hpruned.trans hdrained).trans
        (followsWith_finishDrain hgone { entry with egress := drained.1 } drained.2.1 hand)

/-- An endpoint that is not about to end outlives a drain that reports no end. -/
theorem get_of_drainOneLinkEndpoint (h : s.linkEndpoints.get key = some entry)
    (hlive : ¬ entry.unbindAfterDrain) (hdrain : s.drainOneLinkEndpoint w key = (.ok (), s')) :
    ∃ egress, s'.linkEndpoints.get key = some { entry with egress } := by
  rw [drainOneLinkEndpoint, h] at hdrain
  dsimp only at hdrain
  split at hdrain
  · cases hdrain
  unfold finishDrain at hdrain
  dsimp only at hdrain
  split at hdrain
  · rw [if_neg hlive] at hdrain
    obtain ⟨-, rfl⟩ := Prod.mk.inj hdrain
    exact ⟨_, Table.get_insert_self⟩
  · split at hdrain
    · obtain ⟨-, rfl⟩ := Prod.mk.inj hdrain
      exact ⟨_, Table.get_insert_self⟩
    · cases hdrain

end

/-! ### Taking packets -/

/-- A packet is sent past an empty queue. -/
theorem follows_pass {raw : Bytes} {actor : Actor F} {readings : ℕ}
    {handedOver : List (ℕ × DestinationEvent)} (h : s.linkEndpoints.get key = some entry)
    (hempty : entry.egress = []) (hout : GoesOut entry.binding.interfaceId raw
      (s.actor.transmissions, s.handedOver) (actor.transmissions, handedOver)) (bestEffort : Bool) :
    Follows s (pass { s with actor, readings, handedOver } entry.session raw bestEffort) := by
  intro hand
  have hsessions : (s.view hand).sessions = (entry.session, []) ::ₘ
      (view { s with linkEndpoints := s.linkEndpoints.erase key } hand).sessions := by
    rw [view_of_get h, hempty]
    rfl
  exact .single (.pass _ (p := ⟨raw, none⟩) hsessions hout)

theorem leads_queue {hand' : Multiset ℕ} (h : s.linkEndpoints.get key = some entry)
    (hroom : entry.egress.length < linkEndpointEgressQueueCapacity)
    (packet : LinkEndpointQueuedPacket)
    (hhand : hand = (↑packet.ticket.toList : Multiset ℕ) + hand') :
    Leads (s.view hand)
      (view { s with
        linkEndpoints := s.linkEndpoints.insert key
          { entry with egress := entry.egress ++ [packet] }
        log := s.log ++ [.queued entry.session packet] } hand') := by
  have hsessions : (s.view hand).sessions = (entry.session, entry.egress) ::ₘ
      (view { s with linkEndpoints := s.linkEndpoints.erase key } hand).sessions := by
    rw [view_of_get h]
    rfl
  refine .trans (.single (.queue _ hsessions hroom hhand)) ?_
  exact view_insert { s with log := s.log ++ [.queued entry.session packet] } key
    { entry with egress := entry.egress ++ [packet] } hand' ▸ .refl

theorem follows_enqueueLinkEndpointPacket (s : LinkEndpoints F)
    (key : Octets 16 × LinkEndpointRole) (raw : Bytes) :
    Follows s (s.enqueueLinkEndpointPacket key raw).2 := by
  unfold enqueueLinkEndpointPacket
  split
  · exact .refl s
  next entry hentry =>
    split_ifs with hfull
    · exact follows_terminateLinkEndpoint s key .egressQueueExhausted
    · exact fun hand => leads_queue hentry (not_le.mp hfull) ⟨raw, none⟩ (zero_add hand).symm

/-- A change of an endpoint that leaves its queue alone. -/
theorem follows_modify (s : LinkEndpoints F) (key : Octets 16 × LinkEndpointRole)
    (f : LinkEndpointEntry → LinkEndpointEntry)
    (hf : ∀ entry, ((f entry).session, (f entry).egress) = (entry.session, entry.egress)) :
    Follows s { s with linkEndpoints := s.linkEndpoints.modify key f } := by
  intro hand
  have hvalues : (s.linkEndpoints.modify key f).values.map
        (fun entry => (entry.session, entry.egress)) =
      s.linkEndpoints.values.map fun entry => (entry.session, entry.egress) := by
    simp only [Table.values, Table.toList, Table.modify, Table.mapValues, List.map_map]
    refine List.map_congr_left fun e _ => ?_
    simp only [Function.comp_apply]
    split_ifs
    · exact hf e.2
    · rfl
  have hview : view { s with linkEndpoints := s.linkEndpoints.modify key f } hand =
      s.view hand := by
    simp only [view, hvalues]
  rw [hview]

section

variable [DecidableEq F] [Binary64 F] (s)

theorem follows_terminateSend (key : Octets 16 × LinkEndpointRole) (interfaceId : ℕ)
    (outcome : Actor.InterfaceSendOutcome) :
    Follows s (s.terminateSend key interfaceId outcome).2 := by
  unfold terminateSend
  split
  · exact .refl s
  next reason _ =>
    dsimp only
    split_ifs
    · exact follows_deregisterInterfaceWithLinkReason s interfaceId reason
    · exact follows_terminateLinkEndpoint s key reason

variable [Sha256] [Ed25519] [Hkdf] (linkId : Octets 16) (role : LinkEndpointRole)

omit [DecidableEq F] [Binary64 F] in
/-- An attempt to send a packet past an empty queue. -/
theorem follows_attempt {s s' : LinkEndpoints F} {outcome : Actor.InterfaceSendOutcome} {raw : Bytes}
    (hsend : s.trySendLinkEndpointRaw w entry.binding.interfaceId linkId role raw = (outcome, s'))
    (h : s.linkEndpoints.get (linkId, role) = some entry) (hempty : entry.egress = [])
    (bestEffort : Bool) :
    (outcome = .sent → Follows s (s'.pass entry.session raw bestEffort)) ∧
      (outcome ≠ .sent → Follows s s') := by
  have hattempt := attempts_trySendLinkEndpointRaw (w := w) s entry.binding.interfaceId linkId role
    raw
  rw [hsend] at hattempt
  cases hattempt with
  | sent hout => exact ⟨fun _ => follows_pass h hempty hout bestEffort, absurd rfl⟩
  | unsent hne _ _ hs => exact ⟨fun hsent => absurd hsent hne, fun _ => hs ▸ .refl s⟩

theorem follows_sendDrained (interfaceId : ℕ) (request : OutboundRequest)
    (hid : ∀ entry, s.linkEndpoints.get (linkId, role) = some entry →
      entry.binding.interfaceId = interfaceId) :
    Follows s (s.sendDrained w linkId role interfaceId request).2 := by
  unfold sendDrained
  dsimp only
  split_ifs
  · exact follows_terminateLinkEndpoint s _ .egressQueueExhausted
  split
  next s₁ hprepare =>
    obtain ⟨packetHashlist, readings, rfl⟩ := eq_of_prepareLinkEndpointPacket hprepare
    exact .refl s
  next raw s₁ hprepare =>
    obtain ⟨packetHashlist, readings, rfl⟩ := eq_of_prepareLinkEndpointPacket hprepare
    split
    · exact .refl s
    next entry hentry =>
      split_ifs with hempty
      · exact follows_enqueueLinkEndpointPacket
          { s with actor := { s.actor with packetHashlist }, readings } _ raw
      rw [Bool.not_eq_true, Bool.not_eq_false', List.isEmpty_iff] at hempty
      obtain rfl := hid entry hentry
      generalize hsend : trySendLinkEndpointRaw _ w entry.binding.interfaceId linkId role raw = result
      obtain ⟨outcome, s'⟩ := result
      obtain ⟨hsent, hunsent⟩ := follows_attempt linkId role hsend hentry hempty false
      cases outcome with
      | sent => exact hsent rfl
      | tooLarge => exact hunsent (by simp)
      | full => exact (hunsent (by simp)).trans (follows_enqueueLinkEndpointPacket s' _ raw)
      | _ => exact (hunsent (by simp)).trans (follows_terminateSend s' _ _ _)

variable (request : OutboundRequest)

theorem follows_sendLinkEndpoint : Follows s (s.sendLinkEndpoint w linkId role request).2 := by
  unfold sendLinkEndpoint
  dsimp only
  refine (follows_retireUnpublishedLinkEndpoint (w := w) s (linkId, role)).trans ?_
  generalize s.retireUnpublishedLinkEndpoint w (linkId, role) = s
  split
  · exact .refl s
  next entry hentry =>
    split_ifs with hlive
    · exact .refl s
    · refine follows_sendDrained s linkId role _ request fun entry' hentry' => ?_
      rw [Option.some.inj (hentry.symm.trans hentry')]
    · have hdrained := follows_drainOneLinkEndpoint (w := w) s (linkId, role)
      split
      next reason s' hdrain =>
        rw [hdrain] at hdrained
        exact hdrained
      next s' hdrain =>
        rw [hdrain] at hdrained
        obtain ⟨egress, hkept⟩ := get_of_drainOneLinkEndpoint hentry hlive hdrain
        refine hdrained.trans (follows_sendDrained s' linkId role _ request fun entry' hentry' => ?_)
        rw [← Option.some.inj (hkept.symm.trans hentry')]

theorem follows_sendLinkEndpointExact (binding : LinkEndpointBinding) (generation : ℕ)
    (request : OutboundRequest) :
    Follows s (s.sendLinkEndpointExact w binding generation request).2 := by
  have hretired := follows_retireUnpublishedLinkEndpoint (w := w) s (binding.linkId, binding.role)
  unfold sendLinkEndpointExact
  dsimp only
  split_ifs
  · exact hretired.trans (follows_sendLinkEndpoint _ _ _ request)
  · exact hretired

theorem follows_sendLinkEndpointAndUnbind :
    Follows s (s.sendLinkEndpointAndUnbind w linkId role request).2 := by
  have hsent := follows_sendLinkEndpoint (w := w) s linkId role request
  unfold sendLinkEndpointAndUnbind
  dsimp only
  split
  next s' hsend =>
    rw [hsend] at hsent
    split
    · exact hsent
    next entry hentry =>
      exact hsent.trans (.of_get hentry ((followsWith_notifyLinkEndpointTerminal _ entry
        .unbound).trans (follows_deregisterDestination _ _)))
  next depth s' hsend =>
    rw [hsend] at hsent
    exact hsent.trans (follows_modify s' _ _ fun _ => rfl)
  · exact hsent

theorem follows_sendLinkEndpointBestEffort :
    Follows s (s.sendLinkEndpointBestEffort w linkId role request).2 := by
  unfold sendLinkEndpointBestEffort
  dsimp only
  refine (follows_retireUnpublishedLinkEndpoint (w := w) s (linkId, role)).trans ?_
  generalize s.retireUnpublishedLinkEndpoint w (linkId, role) = s
  split
  · exact .refl s
  next entry hentry =>
    split_ifs with _ hempty
    · exact .refl s
    · exact .refl s
    rw [Bool.not_eq_true, Bool.not_eq_false', List.isEmpty_iff] at hempty
    split
    next s₁ hprepare =>
      obtain ⟨packetHashlist, readings, rfl⟩ := eq_of_prepareLinkEndpointPacket hprepare
      exact .refl s
    next raw s₁ hprepare =>
      obtain ⟨packetHashlist, readings, rfl⟩ := eq_of_prepareLinkEndpointPacket hprepare
      split_ifs
      · exact .refl s
      generalize hsend : trySendLinkEndpointRaw _ w entry.binding.interfaceId linkId role raw = result
      obtain ⟨outcome, s'⟩ := result
      obtain ⟨hsent, hunsent⟩ := follows_attempt linkId role hsend hentry hempty true
      cases outcome with
      | sent => exact hsent rfl
      | tooLarge | full => exact hunsent (by simp)
      | _ => exact (hunsent (by simp)).trans (follows_terminateSend s' _ _ _)

end

/-! ### Binding -/

variable (s) (binding : LinkEndpointBinding)

theorem follows_bindLinkEndpoint : Follows s (s.bindLinkEndpoint w binding).2 := by
  unfold bindLinkEndpoint
  dsimp only
  refine (follows_retireUnpublishedLinkEndpoint (w := w) s (binding.linkId, binding.role)).trans ?_
  generalize s.retireUnpublishedLinkEndpoint w (binding.linkId, binding.role) = s
  split
  · exact .refl s
  next hnone =>
    split_ifs
    · exact .refl s
    · intro hand
      have hbound := view_insert { s with nextGeneration := s.nextGeneration + 1 }
        (binding.linkId, binding.role) ⟨binding, s.nextGeneration, none, [], false⟩ hand
      rw [Table.erase_of_get_eq_none hnone] at hbound
      exact hbound ▸ .single (.bind _ rfl)

theorem follows_unbindLinkEndpoint (linkId : Octets 16)
    (role : LinkEndpointRole) : Follows s (s.unbindLinkEndpoint linkId role).2 := by
  unfold unbindLinkEndpoint
  split
  · exact follows_terminateLinkEndpoint s _ .unbound
  · exact .refl s

theorem follows_dispatchBind
    (publication : ℕ) : Follows s (s.dispatchBind w binding publication) := by
  have hbound := follows_bindLinkEndpoint (w := w) s.tick binding
  unfold dispatchBind
  split_ifs
  · exact .refl s
  split
  next s' hbind =>
    rw [hbind] at hbound
    have hpublished := follows_modify s' (binding.linkId, binding.role)
      (fun entry => { entry with publication := some publication }) fun _ => rfl
    exact (hbound.trans hpublished).trans (follows_retireUnpublishedLinkEndpoint _ _)
  next result s' _ hbind =>
    rw [hbind] at hbound
    exact hbound

/-! ### Tracked operations -/

/-- A tracked operation whose packet is not queued is answered. -/
theorem leads_answer (completion : LinkEndpointDispatchCompletion) (ha : ¬ outcome.IsSent) :
    Leads (s.view {completion.id}) ((s.answer completion outcome).view 0) :=
  .single (.refuse _ rfl ha)

section

variable [DecidableEq F] [Binary64 F] [Sha256] [Ed25519] [Hkdf]

theorem leads_dispatchDrained (s : LinkEndpoints F) (binding : LinkEndpointBinding)
    (request : OutboundRequest) (completion : LinkEndpointDispatchCompletion) :
    Leads (s.view {completion.id}) ((s.dispatchDrained w binding request completion).view 0) := by
  unfold dispatchDrained
  dsimp only
  split
  · exact leads_answer s completion id
  next entry hentry =>
    split_ifs with hfull
    · exact (follows_terminateLinkEndpoint s _ .egressQueueExhausted _).trans
        (leads_answer _ completion id)
    split
    next s₁ hprepare =>
      obtain ⟨packetHashlist, readings, rfl⟩ := eq_of_prepareLinkEndpointPacket hprepare
      exact leads_answer { s with actor := _, readings } completion id
    next raw s₁ hprepare =>
      obtain ⟨packetHashlist, readings, rfl⟩ := eq_of_prepareLinkEndpointPacket hprepare
      have hqueued := leads_queue
        (s := { s with actor := { s.actor with packetHashlist }, readings }) hentry
        (not_le.mp hfull) ⟨raw, some completion⟩ (add_zero {completion.id}).symm
      exact hqueued.trans (follows_drainOneLinkEndpoint _ _ 0)

theorem leads_dispatchSend (s : LinkEndpoints F) (binding : LinkEndpointBinding) (generation : ℕ)
    (request : OutboundRequest) (deadline : ℕ) :
    Leads (s.view 0) ((s.dispatchSend w binding generation request deadline).view 0) := by
  unfold dispatchSend
  dsimp only
  refine .head (.submit _) ?_
  set submitted := { s.tick with nextCompletion := s.nextCompletion + 1 }
  set completion : LinkEndpointDispatchCompletion := ⟨s.nextCompletion, deadline⟩
  change Leads (submitted.view {completion.id}) _
  split
  next outcome houtcome =>
    exact leads_answer _ completion (completion.not_isSent_of_terminalBeforeAdmission houtcome)
  · refine (follows_retireUnpublishedLinkEndpoint (w := w) submitted
      (binding.linkId, binding.role) _).trans ?_
    generalize submitted.retireUnpublishedLinkEndpoint w (binding.linkId, binding.role) = s
    split
    · exact leads_answer s completion id
    next entry hentry =>
      split_ifs
      · exact leads_answer s completion id
      · exact leads_answer s completion id
      have hdrained := follows_drainOneLinkEndpoint (w := w) s (binding.linkId, binding.role)
        {completion.id}
      split
      next reason s' hdrain =>
        rw [hdrain] at hdrained
        exact hdrained.trans (leads_answer s' completion id)
      next s' hdrain =>
        rw [hdrain] at hdrained
        exact hdrained.trans (leads_dispatchDrained s' binding request completion)

/-! ### Runs -/

/-- A call is a run of the service. -/
theorem leads_call (s : LinkEndpoints F) (c : EndpointCall F) :
    Leads (s.view 0) ((s.call w c).view 0) := by
  cases c with
  | bind binding => exact follows_bindLinkEndpoint s binding 0
  | unbind linkId role => exact follows_unbindLinkEndpoint s linkId role 0
  | send linkId role request => exact follows_sendLinkEndpoint s linkId role request 0
  | sendExact binding generation request =>
    exact follows_sendLinkEndpointExact s binding generation request 0
  | sendAndUnbind linkId role request =>
    exact follows_sendLinkEndpointAndUnbind s linkId role request 0
  | sendBestEffort linkId role request =>
    exact follows_sendLinkEndpointBestEffort s linkId role request 0
  | dispatchBind binding publication => exact follows_dispatchBind s binding publication 0
  | dispatchSend binding generation request deadline =>
    exact leads_dispatchSend s binding generation request deadline
  | drain => exact Follows.foldl (fun s key => follows_drainOneLinkEndpoint s key) _ s 0
  | interfaceReplaced id => exact follows_terminateLinkEndpoints s _ .interfaceRemoved 0
  | interfaceLost id reason => exact follows_deregisterInterfaceWithLinkReason s id reason 0
  | destinationDeregistered hash => exact follows_deregisterDestination s hash 0
  | sharedConnectionChanged =>
    exact Follows.foldl (fun s _ => follows_terminateLinkEndpoints s _ .interfaceOffline) _ s 0
  | shutdown => exact follows_terminateLinkEndpoints s _ .transportShutdown 0
  | elsewhere actor localLinkRoutes => exact .refl

theorem leads_after (s : LinkEndpoints F) (calls : List (EndpointCall F)) :
    Leads (s.view 0) ((s.after w calls).view 0) := by
  induction calls generalizing s with
  | nil => exact .refl
  | cons c calls ih => exact (leads_call s c).trans (ih _)

/-- An endpoint is in the table. -/
def Bound (s : LinkEndpoints F) (generation : ℕ) : Prop :=
  ∃ key entry, s.linkEndpoints.get key = some entry ∧ entry.generation = generation

/-- The packet of a tracked operation waits in the queue of an endpoint. -/
def Waits (s : LinkEndpoints F) (completion : ℕ) : Prop :=
  ∃ key entry, s.linkEndpoints.get key = some entry ∧
    completion ∈ entry.egress.filterMap (·.ticket)

variable {s}

/-- In every run the packets of an endpoint are handed on in the order in which they were admitted,
those sent with best effort only past an empty queue. Queues are as the log has them and keep to
their capacity. A tracked operation waits or has been answered once, as sent only after its packet
was handed on; an endpoint is in the table or has ended once, and its end counts what was queued. And
exactly with the packets handed on, in the order of the log, something goes out over the interface of
their endpoint: the interface takes the packet, or the other side of the link is handed it. -/
theorem egress_accounted (w : ℕ → Surroundings) (actor : Actor F)
    (localLinkRoutes : Table (Octets 16) LocalLinkRoute) (calls : List (EndpointCall F)) :
    let s := (start actor localLinkRoutes).after w calls
    (∀ g, (accepted g s.log).Sublist (admitted g s.log)) ∧
      (∀ l g packet, l ++ [.passed g packet true] <+: s.log → pending g l = []) ∧
      (∀ key entry, s.linkEndpoints.get key = some entry →
        entry.egress = pending entry.session s.log) ∧
      (∀ l g, l <+: s.log → (pending g l).length ≤ linkEndpointEgressQueueCapacity) ∧
      (∀ c < s.nextCompletion, s.Waits c ∧ c ∉ answeredTickets s.log ∨
        ¬ s.Waits c ∧ (answeredTickets s.log).count c = 1) ∧
      (∀ l c hash time, l ++ [.answered c (.sent hash time)] <+: s.log →
        ∃ g packet, .drained g packet ∈ l ∧ packet.ticket = some c) ∧
      (∀ n < s.nextGeneration, s.Bound n ∧ n ∉ closedSessions s.log Prod.fst ∨
        ¬ s.Bound n ∧ (closedSessions s.log Prod.fst).count n = 1) ∧
      (∀ l g reason dropped, l ++ [.closed g reason dropped] <+: s.log →
        dropped = (pending g l).length) ∧
      Passes endpointService (actor.transmissions, []) (handedOn s.log)
        (s.actor.transmissions, s.handedOver) := by
  intro s
  have hleads := leads_after (w := w) (start actor localLinkRoutes) calls
  have hsound : Sound endpointService (s.view 0) := (Sound.start _).reach hleads
  have hhistory : History endpointService s.log := hsound.history
  refine ⟨hhistory.accepted_sublist, fun l g packet hl => hhistory l _ hl, fun key entry hget => ?_,
    fun l g hl => ?_, fun c hc => ?_, fun l c hash time hl => hhistory l _ hl trivial,
    fun n hn => ?_, fun l g reason dropped hl => hhistory l _ hl, Passes.nil.reach hleads⟩
  · have hmem : entry ∈ s.linkEndpoints.values := Table.mem_values.mpr ⟨key, hget⟩
    exact (hsound.queues _ (List.mem_map_of_mem hmem)).symm
  · exact History.length_pending_le (fun l' o hl' => hhistory l' o (hl'.trans hl)) g
  · have hcases := hsound.ticket_cases rfl hc
    rwa [exists_mem_sessions] at hcases
  · have hcases := hsound.session_cases hn
    rwa [exists_mem_sessions] at hcases

end

end LinkEndpoints

end Reticulum.Transport
