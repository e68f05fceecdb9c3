import Reticulum.Transport.Actor

/-!
# What the helpers of a node can do

Most of what a node does on the way, sending, queueing, retrying and giving up, neither learns a
path nor opens a link. `Actor.Calm` says once what such work can change: paths, links, tunnels and
cached announces may be lost but none is gained, the identity of the node and what it knows of
others stay, and all that is sent or kept for sending was kept before or is one of the packets named
in advance.
-/

namespace Reticulum.Transport

open Wire Table

variable {F : Type}

/-- A tunnel keeps a path. -/
def TunnelTable.Knows (t : TunnelTable F) (destHash : Octets 16) (path : TunnelPath F) : Prop :=
  ∃ tunnelId entry, t.entries.get tunnelId = some entry ∧
    entry.tunnelPaths.get destHash = some path

/-- A later state of the same interface: its role stays, and it holds back no other announces. -/
structure Interface.Later (entry entry' : Interface F) : Prop where
  role : entry'.role = entry.role
  heldAnnounces : Sub entry'.heldAnnounces entry.heldAnnounces

namespace Actor

/-- The announce in the cache under a hash. -/
def cached (s : Actor F) (hash : Octets 32) : Option Bytes := s.announceCache.bind (·.get hash)

/-- The packets a node keeps to send them later: announces in its table, held back or queued, those
that wait for a driver, and path requests that an interface refused. -/
def Holds (s : Actor F) : Cause → Bytes → Prop
  | .announce, raw =>
    (∃ hash entry, s.announceTable.get hash = some entry ∧ entry.packetRaw = raw) ∨
    (∃ hash entry, s.heldAnnounces.get hash = some entry ∧ entry.packetRaw = raw) ∨
    (∃ id entry, s.interfaces.get id = some entry ∧ ∃ q ∈ entry.announceQueue, q.raw = raw) ∨
    (∃ pending ∈ s.pendingAnnounceAdmissions, pending.raw = raw) ∨
    ∃ id offered, s.offeredAnnounces.get id = some offered ∧ offered.raw = raw
  | .pathRequest, raw => ∃ pending ∈ s.pendingPathRequestAdmissions, pending.raw = raw
  | .forward, _ | .relay, _ => False

/-- Work that learns nothing, with the packets `Q` brought in. -/
structure Calm (Q : Cause → Bytes → Prop) (s s' : Actor F) : Prop where
  links : Sub s'.linkTable s.linkTable
  paths : Sub s'.pathTable.entries s.pathTable.entries
  tunnels : ∀ destHash path, s'.tunnelTable.Knows destHash path →
    s.tunnelTable.Knows destHash path
  cache : ∀ hash raw, s'.cached hash = some raw → s.cached hash = some raw
  interfaces : ∀ id entry', s'.interfaces.get id = some entry' →
    ∃ entry, s.interfaces.get id = some entry ∧ entry.Later entry'
  packetHashlist : s'.packetHashlist = s.packetHashlist
  recentAnnounces : s'.recentAnnounces = s.recentAnnounces
  localDestinations : s'.localDestinations = s.localDestinations
  isTransportEnabled : s'.isTransportEnabled = s.isTransportEnabled
  transportIdentityHash : s'.transportIdentityHash = s.transportIdentityHash
  localHopsDelta : s'.localHopsDelta = s.localHopsDelta
  isSharedInstance : s.isSharedInstance = false → s'.isSharedInstance = false
  holds : ∀ cause raw, s'.Holds cause raw → s.Holds cause raw ∨ Q cause raw
  sent : ∃ l, s'.transmissions = s.transmissions ++ l ∧
    ∀ t ∈ l, s.Holds t.cause t.raw ∨ Q t.cause t.raw

namespace Calm

variable {Q Q' : Cause → Bytes → Prop} {s s' s'' : Actor F}

theorem refl (Q : Cause → Bytes → Prop) (s : Actor F) : Calm Q s s :=
  ⟨.refl _, .refl _, fun _ _ h => h, fun _ _ h => h, fun _ _ h => ⟨_, h, rfl, .refl _⟩, rfl, rfl,
    rfl, rfl, rfl, rfl, id, fun _ _ h => .inl h, [], (List.append_nil _).symm, nofun⟩

/-- Packets that the node keeps anyway need not be named. -/
theorem absorb (h : Calm Q s s') (hQ : ∀ cause raw, Q cause raw → s.Holds cause raw ∨ Q' cause raw) :
    Calm Q' s s' :=
  { h with
    holds := fun cause raw hh => (h.holds cause raw hh).elim .inl (hQ cause raw)
    sent := by
      obtain ⟨l, hl, hall⟩ := h.sent
      exact ⟨l, hl, fun t ht => (hall t ht).elim .inl (hQ _ _)⟩ }

theorem mono (h : Calm Q s s') (hQ : ∀ cause raw, Q cause raw → Q' cause raw) : Calm Q' s s' :=
  h.absorb fun cause raw hq => .inr (hQ cause raw hq)

/-- The effects of two pieces of work compose. -/
theorem trans (h : Calm Q s s') (h' : Calm Q s' s'') : Calm Q s s'' where
  links := h'.links.trans h.links
  paths := h'.paths.trans h.paths
  tunnels destHash path hk := h.tunnels _ _ (h'.tunnels _ _ hk)
  cache hash raw hc := h.cache _ _ (h'.cache _ _ hc)
  interfaces id entry'' he := by
    obtain ⟨entry', he', hl'⟩ := h'.interfaces id entry'' he
    obtain ⟨entry, he, hl⟩ := h.interfaces id entry' he'
    exact ⟨entry, he, hl'.role.trans hl.role, hl'.heldAnnounces.trans hl.heldAnnounces⟩
  packetHashlist := h'.packetHashlist.trans h.packetHashlist
  recentAnnounces := h'.recentAnnounces.trans h.recentAnnounces
  localDestinations := h'.localDestinations.trans h.localDestinations
  isTransportEnabled := h'.isTransportEnabled.trans h.isTransportEnabled
  transportIdentityHash := h'.transportIdentityHash.trans h.transportIdentityHash
  localHopsDelta := h'.localHopsDelta.trans h.localHopsDelta
  isSharedInstance := h'.isSharedInstance ∘ h.isSharedInstance
  holds cause raw hh := by
    rcases h'.holds cause raw hh with hh | hh
    · exact h.holds cause raw hh
    · exact .inr hh
  sent := by
    obtain ⟨l, hl, hall⟩ := h.sent
    obtain ⟨l', hl', hall'⟩ := h'.sent
    refine ⟨l ++ l', by rw [hl', hl, List.append_assoc], fun t ht => ?_⟩
    rcases List.mem_append.mp ht with ht | ht
    · exact hall t ht
    · rcases hall' t ht with hh | hh
      · exact h.holds _ _ hh
      · exact .inr hh

/-- A loop whose every round is calm. -/
theorem foldl {ι : Type} {f : Actor F → ι → Actor F} (hf : ∀ s i, Calm Q s (f s i)) (l : List ι)
    (s : Actor F) : Calm Q s (l.foldl f s) := by
  induction l generalizing s with
  | nil => exact refl Q s
  | cons i l ih => exact (hf s i).trans (ih _)

theorem iterate {f : Actor F → Actor F} (hf : ∀ s, Calm Q s (f s)) (n : ℕ) (s : Actor F) :
    Calm Q s (f^[n] s) := by
  induction n generalizing s with
  | zero => exact refl Q s
  | succ n ih => exact (hf s).trans (ih _)

variable {interfaces : Table ℕ (Interface F)}

section

variable (h : Calm Q s s')

include h

/-- Interfaces that keep their roles and held announces, and queue no other announces. -/
theorem set_interfaces
    (hi : ∀ id entry', interfaces.get id = some entry' →
      ∃ entry, s'.interfaces.get id = some entry ∧ entry.Later entry' ∧
        ∀ q ∈ entry'.announceQueue, q ∈ entry.announceQueue ∨ Q .announce q.raw) :
    Calm Q s { s' with interfaces } := by
  refine h.trans { refl Q s' with
    interfaces := fun id entry' he => ?_
    holds := fun cause raw hh => ?_ }
  · obtain ⟨entry, he, hl, -⟩ := hi id entry' he
    exact ⟨entry, he, hl⟩
  · match cause, hh with
    | .announce, .inr (.inr (.inl ⟨id, entry', he', q, hq, hraw⟩)) =>
      obtain ⟨entry, he, -, hqueue⟩ := hi id entry' he'
      rcases hqueue q hq with hq | hq
      · exact .inl (.inr (.inr (.inl ⟨id, entry, he, q, hq, hraw⟩)))
      · exact .inr (hraw ▸ hq)
    | .announce, .inl hh => exact .inl (.inl hh)
    | .announce, .inr (.inl hh) => exact .inl (.inr (.inl hh))
    | .announce, .inr (.inr (.inr hh)) => exact .inl (.inr (.inr (.inr hh)))
    | .pathRequest, hh => exact .inl hh

theorem erase_interface (id : ℕ) : Calm Q s { s' with interfaces := s'.interfaces.erase id } :=
  h.set_interfaces fun _ entry he =>
    ⟨entry, Sub.erase _ _ he, ⟨rfl, .refl _⟩, fun _ hq => .inl hq⟩

/-- A new state of one interface. -/
theorem update_interface {id : ℕ} {entry entry' : Interface F}
    (he : s'.interfaces.get id = some entry)
    (hget : interfaces.get = Function.update s'.interfaces.get id (some entry'))
    (hl : entry.Later entry')
    (hqueue : ∀ q ∈ entry'.announceQueue, q ∈ entry.announceQueue ∨ Q .announce q.raw) :
    Calm Q s { s' with interfaces } := by
  refine h.set_interfaces fun id' found hf => ?_
  rw [hget, Function.update_apply] at hf
  split_ifs at hf with hid
  · obtain rfl := Option.some.inj hf
    exact ⟨entry, hid ▸ he, hl, hqueue⟩
  · exact ⟨found, hf, ⟨rfl, .refl _⟩, fun _ hq => .inl hq⟩

theorem mapValues_interfaces {f : ℕ → Interface F → Interface F}
    (hf : ∀ id (entry : Interface F), entry.Later (f id entry))
    (hqueue : ∀ id (entry : Interface F), ∀ q ∈ (f id entry).announceQueue,
      q ∈ entry.announceQueue ∨ Q .announce q.raw) :
    Calm Q s { s' with interfaces := s'.interfaces.mapValues f } := by
  refine h.set_interfaces fun id entry' he => ?_
  rw [get_mapValues] at he
  obtain ⟨entry, hget, rfl⟩ := Option.map_eq_some_iff.mp he
  exact ⟨entry, hget, hf id entry, hqueue id entry⟩

/-- A new state of an interface, if it is there. -/
theorem modify_interface (id : ℕ) {f : Interface F → Interface F}
    (hf : ∀ entry : Interface F, entry.Later (f entry))
    (hqueue : ∀ entry, ∀ q ∈ (f entry).announceQueue, q ∈ entry.announceQueue ∨ Q .announce q.raw) :
    Calm Q s { s' with interfaces := s'.interfaces.modify id f } := by
  refine h.mapValues_interfaces (fun id' entry => ?_) fun id' entry => ?_
  · split_ifs
    · exact hf entry
    · exact ⟨rfl, .refl _⟩
  · split_ifs
    · exact hqueue entry
    · exact fun _ hq => .inl hq

/-- A packet that an interface accepted. -/
theorem transmit {cause : Cause} {raw : Bytes} (id : ℕ) (hraw : s.Holds cause raw ∨ Q cause raw) :
    Calm Q s { s' with transmissions := s'.transmissions ++ [⟨cause, id, raw⟩] } :=
  { h with
    sent := by
      obtain ⟨l, hl, hall⟩ := h.sent
      refine ⟨l ++ [⟨cause, id, raw⟩], by simp [hl], fun t ht => ?_⟩
      rcases List.mem_append.mp ht with ht | ht
      · exact hall t ht
      · rw [List.mem_singleton.mp ht]
        exact hraw }

theorem set_announceTable {announceTable : Table (Octets 16) (AnnounceEntry F)}
    (ht : ∀ hash entry, announceTable.get hash = some entry →
      s.Holds .announce entry.packetRaw ∨ Q .announce entry.packetRaw) :
    Calm Q s { s' with announceTable } :=
  { h with
    holds := fun cause raw hh => by
      match cause, hh with
      | .announce, .inl ⟨hash, entry, he, hraw⟩ => exact hraw ▸ ht hash entry he
      | .announce, .inr hh => exact h.holds .announce raw (.inr hh)
      | .pathRequest, hh => exact h.holds .pathRequest raw hh }

theorem set_heldAnnounces {heldAnnounces : Table (Octets 16) (AnnounceEntry F)}
    (ht : ∀ hash entry, heldAnnounces.get hash = some entry →
      s.Holds .announce entry.packetRaw ∨ Q .announce entry.packetRaw) :
    Calm Q s { s' with heldAnnounces } :=
  { h with
    holds := fun cause raw hh => by
      match cause, hh with
      | .announce, .inr (.inl ⟨hash, entry, he, hraw⟩) => exact hraw ▸ ht hash entry he
      | .announce, .inl hh => exact h.holds .announce raw (.inl hh)
      | .announce, .inr (.inr hh) => exact h.holds .announce raw (.inr (.inr hh))
      | .pathRequest, hh => exact h.holds .pathRequest raw hh }

theorem set_pendingAnnounces {pending : List (PendingAnnounce F)}
    (hp : ∀ p ∈ pending, s.Holds .announce p.raw ∨ Q .announce p.raw) :
    Calm Q s { s' with pendingAnnounceAdmissions := pending } :=
  { h with
    holds := fun cause raw hh => by
      match cause, hh with
      | .announce, .inr (.inr (.inr (.inl ⟨p, hmem, hraw⟩))) => exact hraw ▸ hp p hmem
      | .announce, .inl hh => exact h.holds .announce raw (.inl hh)
      | .announce, .inr (.inl hh) => exact h.holds .announce raw (.inr (.inl hh))
      | .announce, .inr (.inr (.inl hh)) => exact h.holds .announce raw (.inr (.inr (.inl hh)))
      | .announce, .inr (.inr (.inr (.inr hh))) =>
        exact h.holds .announce raw (.inr (.inr (.inr (.inr hh))))
      | .pathRequest, hh => exact h.holds .pathRequest raw hh }

theorem set_offered {offeredAnnounces : Table ℕ (OfferedAnnounce F)}
    (ho : ∀ id o, offeredAnnounces.get id = some o →
      s.Holds .announce o.raw ∨ Q .announce o.raw) :
    Calm Q s { s' with offeredAnnounces } :=
  { h with
    holds := fun cause raw hh => by
      match cause, hh with
      | .announce, .inr (.inr (.inr (.inr ⟨id, o, hget, hraw⟩))) => exact hraw ▸ ho id o hget
      | .announce, .inl hh => exact h.holds .announce raw (.inl hh)
      | .announce, .inr (.inl hh) => exact h.holds .announce raw (.inr (.inl hh))
      | .announce, .inr (.inr (.inl hh)) => exact h.holds .announce raw (.inr (.inr (.inl hh)))
      | .announce, .inr (.inr (.inr (.inl hh))) =>
        exact h.holds .announce raw (.inr (.inr (.inr (.inl hh))))
      | .pathRequest, hh => exact h.holds .pathRequest raw hh }

theorem set_pendingRequests {pending : List (PendingAdmission F)}
    (hp : ∀ p ∈ pending, s.Holds .pathRequest p.raw ∨ Q .pathRequest p.raw) :
    Calm Q s { s' with pendingPathRequestAdmissions := pending } :=
  { h with
    holds := fun cause raw hh => by
      match cause, hh with
      | .announce, hh => exact h.holds .announce raw hh
      | .pathRequest, ⟨p, hmem, hraw⟩ => exact hraw ▸ hp p hmem }

end

end Calm

variable {destHash : Octets 16}

theorem deliver_calm (Q : Cause → Bytes → Prop) {s : Actor F}
    {event : DestinationEvent} : Calm Q s (s.deliver destHash event).2 := by
  unfold deliver
  split
  · exact .refl Q s
  split
  · exact .refl Q s
  · exact { Calm.refl Q s with }

/-! ### Removing an interface -/

section

variable (Q : Cause → Bytes → Prop) (s : Actor F) (id : ℕ)

section

variable [DecidableEq F]

theorem finishCachedResponse_calm (cached : Option (Octets 16 × F)) (raw : Bytes) :
    Calm Q s (s.finishCachedResponse cached raw id) := by
  have hold {hash : Octets 16} {entry : AnnounceEntry F}
      (he : s.announceTable.get hash = some entry) :
      s.Holds .announce entry.packetRaw ∨ Q .announce entry.packetRaw :=
    .inl (.inl ⟨hash, entry, he, rfl⟩)
  unfold finishCachedResponse
  split
  · exact .refl Q s
  next hash _ =>
    split_ifs
    · dsimp only
      split
      · exact (Calm.refl Q s).set_announceTable fun _ _ he => hold (Sub.erase _ _ he)
      next held hheld =>
        have hrestored : Calm Q s
            { s with announceTable := (s.announceTable.erase hash).insert hash held } := by
          refine (Calm.refl Q s).set_announceTable fun hash' entry he => ?_
          obtain ⟨-, rfl⟩ | he := of_get_insert he
          · exact .inl (.inr (.inl ⟨hash, _, hheld, rfl⟩))
          · exact hold (Sub.erase _ _ he)
        exact hrestored.set_heldAnnounces fun hash' entry he =>
          .inl (.inr (.inl ⟨hash', entry, Sub.erase _ _ he, rfl⟩))
    · exact .refl Q s

theorem retireAnnounceInterface_calm : Calm Q s (s.retireAnnounceInterface id) := by
  have hoffer : Calm Q s { s with offeredAnnounces := s.offeredAnnounces.erase id } :=
    (Calm.refl Q s).set_offered fun id' o ho =>
      .inl (.inr (.inr (.inr (.inr ⟨id', o, Sub.erase _ _ ho, rfl⟩))))
  refine (hoffer.trans (Calm.foldl (fun s pending => ?_) _ _)).set_pendingAnnounces fun p hp =>
    .inl (.inr (.inr (.inr (.inl ⟨p, List.mem_of_mem_filter hp, rfl⟩))))
  split_ifs
  · exact finishCachedResponse_calm Q s id _ _
  · exact .refl Q s

end

theorem retireOrphanedDiscoveryAdmissions_calm :
    Calm Q s s.retireOrphanedDiscoveryAdmissions :=
  (Calm.refl Q s).set_pendingRequests fun p hp => .inl ⟨p, List.mem_of_mem_filter hp, rfl⟩

theorem retireRecursiveDiscoveryInterface_calm :
    Calm Q s (s.retireRecursiveDiscoveryInterface id) := by
  unfold retireRecursiveDiscoveryInterface
  refine .trans ?_ (retireOrphanedDiscoveryAdmissions_calm Q _)
  exact { Calm.refl Q s with }

theorem retirePathRequestAdmissions_calm : Calm Q s (s.retirePathRequestAdmissions id) :=
  (Calm.refl Q s).set_pendingRequests fun p hp => .inl ⟨p, List.mem_of_mem_filter hp, rfl⟩

variable [Binary64 F]

theorem clearSharedConnectionState_calm : Calm Q s s.clearSharedConnectionState := by
  refine { Calm.refl Q s with
    links := Sub.empty _
    paths := Sub.empty _
    tunnels := fun _ _ hk => ?_
    holds := fun cause raw hh => ?_ }
  · obtain ⟨tunnelId, entry, he, -⟩ := hk
    exact nomatch he
  · match cause, hh with
    | .announce, .inr (.inr hh) => exact .inl (.inr (.inr hh))
    | .announce, .inl ⟨_, _, he, _⟩ => exact nomatch he
    | .announce, .inr (.inl ⟨_, _, he, _⟩) => exact nomatch he
    | .pathRequest, ⟨p, hp, _⟩ => exact nomatch hp

omit [Binary64 F] in
theorem knows_of_voidInterface {t : TunnelTable F} {path : TunnelPath F}
    (h : (t.voidInterface id).Knows destHash path) : t.Knows destHash path := by
  obtain ⟨tunnelId, entry', he, hp⟩ := h
  simp only [TunnelTable.voidInterface, get_mapValues] at he
  obtain ⟨entry, hget, rfl⟩ := Option.map_eq_some_iff.mp he
  refine ⟨tunnelId, entry, hget, ?_⟩
  split_ifs at hp <;> exact hp

theorem deregisterInterface_calm [DecidableEq F] : Calm Q s (s.deregisterInterface id) := by
  have hlost : Calm Q s { s with
      linkTable := s.linkTable.removeInterface id
      tunnelTable := s.tunnelTable.voidInterface id
      pathTable := s.pathTable.dropAllVia id
      pathInterfaceSuppressions := s.pathInterfaceSuppressions.retain fun key _ => key.2 ≠ id
      pendingLocalPathRequests := s.pendingLocalPathRequests.retain fun _ waiting => waiting ≠ id } :=
    { Calm.refl Q s with
      links := Sub.retain _ _
      paths := Sub.retain _ _
      tunnels := fun _ _ => knows_of_voidInterface id }
  have hretired := ((hlost.trans (retireRecursiveDiscoveryInterface_calm Q _ id)).trans
    (retirePathRequestAdmissions_calm Q _ id)).trans (retireAnnounceInterface_calm Q _ id)
  have herased := hretired.erase_interface id
  unfold deregisterInterface
  dsimp only
  split_ifs
  · refine (herased.trans ?_).trans (clearSharedConnectionState_calm Q _)
    exact { Calm.refl Q _ with isSharedInstance := fun _ => rfl }
  · exact herased

end

/-! ### Sending -/

section

variable {s s' : Actor F} {cause : Cause} {id : ℕ} {raw : Bytes} {outcome : InterfaceSendOutcome}
  {entry : Interface F}

theorem Calm.accept {Q : Cause → Bytes → Prop} (h : Calm Q s s')
    (he : s'.interfaces.get id = some entry) (hraw : s.Holds cause raw ∨ Q cause raw) :
    Calm Q s (s'.accept cause id entry raw) := by
  have htaken : Calm Q s { s' with
      interfaces := s'.interfaces.insert id
        { entry with tx := { entry.tx with room := entry.tx.room - 1 } } } :=
    h.update_interface he get_insert_eq_update ⟨rfl, .refl _⟩ fun _ hq => .inl hq
  exact htaken.transmit id hraw

theorem refuseOwnRequest_ne_sent {linkId : Octets 16} {offset : ℕ} :
    s.refuseOwnRequest entry id raw linkId offset ≠ some .sent := by
  unfold refuseOwnRequest
  repeat' split
  all_goals simp

variable [Sha256] [Ed25519] [Hkdf]

theorem sendRefusal_ne_sent : s.sendRefusal entry id raw ≠ some .sent := by
  have hown : ((s.requestOwner raw).bind fun e => s.refuseOwnRequest entry id raw e.1 e.2) ≠
      some .sent := by
    intro h
    obtain ⟨e, -, h⟩ := Option.bind_eq_some_iff.mp h
    exact refuseOwnRequest_ne_sent h
  unfold sendRefusal
  dsimp only
  repeat' split
  case h_1 refusal heq => exact heq ▸ hown
  all_goals simp

/-- An interface takes a packet, or nothing changes. -/
theorem trySendToInterface_eq (h : s.trySendToInterface cause id raw = (outcome, s')) :
    (outcome = .sent ∧ ∃ entry pendingLocalLinkRequests, s.interfaces.get id = some entry ∧
      s' = { s.accept cause id entry raw with pendingLocalLinkRequests }) ∨
    outcome ≠ .sent ∧ s' = s := by
  unfold trySendToInterface at h
  split at h
  · obtain ⟨rfl, rfl⟩ := Prod.mk.inj h
    exact .inr ⟨by simp, rfl⟩
  next entry he =>
    split at h
    next refusal hrefusal =>
      obtain ⟨rfl, rfl⟩ := Prod.mk.inj h
      exact .inr ⟨fun hsent => sendRefusal_ne_sent (hsent ▸ hrefusal), rfl⟩
    · obtain ⟨rfl, rfl⟩ := Prod.mk.inj h
      exact .inl ⟨rfl, entry, _, he, rfl⟩

/-- A send changes nothing unless the interface accepts the packet. -/
theorem trySendToInterface_cases (h : s.trySendToInterface cause id raw = (outcome, s')) :
    outcome = .sent ∧ Calm (fun c r => c = cause ∧ r = raw) s s' ∧
      s'.transmissions = s.transmissions ++ [⟨cause, id, raw⟩] ∨
    outcome ≠ .sent ∧ s' = s := by
  obtain ⟨rfl, entry, pendingLocalLinkRequests, he, rfl⟩ | hrefused := trySendToInterface_eq h
  · have haccept : Calm (fun c r => c = cause ∧ r = raw) s (s.accept cause id entry raw) :=
      (Calm.refl _ s).accept he (.inr ⟨rfl, rfl⟩)
    exact .inl ⟨rfl, haccept.trans { Calm.refl _ _ with }, rfl⟩
  · exact .inr hrefused

/-- An interface of the node takes a packet. -/
def Takes (s : Actor F) (id : ℕ) (raw : Bytes) : Prop :=
  ∃ interface, s.interfaces.get id = some interface ∧ s.sendRefusal interface id raw = none

theorem Takes.of_sent (h : s.trySendToInterface cause id raw = (.sent, s')) : s.Takes id raw := by
  unfold trySendToInterface at h
  split at h
  · cases (Prod.mk.inj h).1
  next interface hget =>
    split at h
    next hrefusal => exact absurd ((Prod.mk.inj h).1 ▸ hrefusal) sendRefusal_ne_sent
    next htakes => exact ⟨interface, hget, htakes⟩

theorem Takes.sendToInterface [DecidableEq F] [Binary64 F] (cause : Cause) (h : s.Takes id raw) :
    (s.sendToInterface cause id raw).2.transmissions = s.transmissions ++ [⟨cause, id, raw⟩] ∧
      (s.sendToInterface cause id raw).2.reverseTable = s.reverseTable := by
  obtain ⟨interface, hget, htaken⟩ := h
  simp [Actor.sendToInterface, trySendToInterface, hget, htaken, accept]

/-- A send that is not refused for good may also remove the interface. -/
theorem sendToInterface_calm [DecidableEq F] [Binary64 F] :
    Calm (fun c r => c = cause ∧ r = raw) s (s.sendToInterface cause id raw).2 := by
  rcases h : s.trySendToInterface cause id raw with ⟨outcome, s'⟩
  rcases trySendToInterface_cases h with ⟨rfl, hcalm, -⟩ | ⟨hne, rfl⟩
  · simpa only [sendToInterface, h] using hcalm
  · simp only [sendToInterface, h]
    cases outcome
    all_goals first
      | exact .refl _ _
      | exact deregisterInterface_calm _ _ _

end

end Actor

end Reticulum.Transport
