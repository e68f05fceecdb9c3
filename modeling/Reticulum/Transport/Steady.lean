import Reticulum.Transport.Removal

/-!
# Work that leaves path requests alone

Most of what a node does is not about requests for paths. `Actor.Steady` says what such work leaves as
it was: the tags of the requests that the node has seen, and the requests that it has sent. Requests
that wait for an interface may be given up, and interfaces may be lost but keep their roles.
-/

namespace Reticulum.Transport

open Wire

variable {F : Type}

namespace Actor

/-- The requests for paths that the node has sent. -/
def requestsSent (s : Actor F) : List Transmission :=
  s.transmissions.filter (·.cause = .pathRequest)

/-- Interfaces of which some are lost, and the others keep their roles. -/
def InterfacesLast (interfaces interfaces' : Table ℕ (Interface F)) : Prop :=
  ∀ id entry', interfaces'.get id = some entry' →
    ∃ entry, interfaces.get id = some entry ∧ entry'.role = entry.role

variable {f : Interface F → Interface F} {id : ℕ}

namespace InterfacesLast

variable {interfaces interfaces' interfaces'' : Table ℕ (Interface F)}

theorem refl (interfaces : Table ℕ (Interface F)) : InterfacesLast interfaces interfaces :=
  fun _ entry he => ⟨entry, he, rfl⟩

theorem trans (h : InterfacesLast interfaces interfaces')
    (h' : InterfacesLast interfaces' interfaces'') : InterfacesLast interfaces interfaces'' := by
  intro id entry'' he
  obtain ⟨entry', he', hrole'⟩ := h' id entry'' he
  obtain ⟨entry, he, hrole⟩ := h id entry' he'
  exact ⟨entry, he, hrole'.trans hrole⟩

variable (interfaces)

theorem erase (id : ℕ) : InterfacesLast interfaces (interfaces.erase id) :=
  fun _ entry he => ⟨entry, Table.Sub.erase _ _ he, rfl⟩

theorem mapValues {f : ℕ → Interface F → Interface F}
    (hf : ∀ id entry, (f id entry).role = entry.role) :
    InterfacesLast interfaces (interfaces.mapValues f) := by
  intro id entry' he
  rw [Table.get_mapValues] at he
  obtain ⟨entry, hget, rfl⟩ := Option.map_eq_some_iff.mp he
  exact ⟨entry, hget, hf id entry⟩

theorem modify (id : ℕ) (hf : ∀ entry, (f entry).role = entry.role) :
    InterfacesLast interfaces (interfaces.modify id f) := by
  refine mapValues interfaces fun id' entry => ?_
  split
  · exact hf entry
  · rfl

variable {interfaces}

theorem update {entry entry' : Interface F} (he : interfaces.get id = some entry)
    (hget : interfaces'.get = Function.update interfaces.get id (some entry'))
    (hrole : entry'.role = entry.role) : InterfacesLast interfaces interfaces' := by
  intro id' found hf
  rw [hget, Function.update_apply] at hf
  split_ifs at hf with hid
  · obtain rfl := Option.some.inj hf
    exact ⟨entry, hid ▸ he, hrole⟩
  · exact ⟨found, hf, rfl⟩

theorem size_le (h : InterfacesLast interfaces interfaces') : interfaces'.size ≤ interfaces.size :=
  Table.size_le_of_get fun id entry' he => (h id entry' he).imp fun _ => And.left

end InterfacesLast

/-- Work that leaves path requests alone. -/
structure Steady (s s' : Actor F) : Prop where
  tags : s'.discoveryPrTags = s.discoveryPrTags
  pending : s'.pendingPathRequestAdmissions.Sublist s.pendingPathRequestAdmissions
  sent : s'.requestsSent = s.requestsSent
  interfaces : InterfacesLast s.interfaces s'.interfaces

variable {cause : Cause} {entry : Interface F}

namespace Steady

variable {s s' s'' : Actor F}

theorem refl (s : Actor F) : Steady s s := ⟨rfl, .refl _, rfl, .refl _⟩

/-- The effects of two pieces of work compose. -/
theorem trans (h : Steady s s') (h' : Steady s' s'') : Steady s s'' where
  tags := h'.tags.trans h.tags
  pending := h'.pending.trans h.pending
  sent := h'.sent.trans h.sent
  interfaces := h.interfaces.trans h'.interfaces

theorem foldl {ι : Type} {f : Actor F → ι → Actor F} (hf : ∀ s i, Steady s (f s i)) (l : List ι)
    (s : Actor F) : Steady s (l.foldl f s) := by
  induction l generalizing s with
  | nil => exact refl s
  | cons i l ih => exact (hf s i).trans (ih _)

theorem iterate {f : Actor F → Actor F} (hf : ∀ s, Steady s (f s)) (n : ℕ) (s : Actor F) :
    Steady s (f^[n] s) := by
  induction n generalizing s with
  | zero => exact refl s
  | succ n ih => exact (hf s).trans (ih _)

theorem set_interfaces (h : Steady s s') {interfaces : Table ℕ (Interface F)}
    (hi : InterfacesLast s'.interfaces interfaces) : Steady s { s' with interfaces } :=
  { h with interfaces := h.interfaces.trans hi }

theorem modify_interface (h : Steady s s') (id : ℕ) (hf : ∀ entry, (f entry).role = entry.role) :
    Steady s { s' with interfaces := s'.interfaces.modify id f } :=
  h.set_interfaces (.modify _ id hf)

/-- Any other packet is sent. -/
theorem transmit (h : Steady s s') (hcause : cause ≠ .pathRequest) (id : ℕ) (raw : Bytes) :
    Steady s { s' with transmissions := s'.transmissions ++ [⟨cause, id, raw⟩] } := by
  refine { h with sent := Eq.trans ?_ h.sent }
  simp [requestsSent, hcause]

theorem accept (h : Steady s s') (hcause : cause ≠ .pathRequest)
    (he : s'.interfaces.get id = some entry) (raw : Bytes) :
    Steady s (s'.accept cause id entry raw) := by
  have htaken : Steady s { s' with
      interfaces := s'.interfaces.insert id
        { entry with tx := { entry.tx with room := entry.tx.room - 1 } } } :=
    h.set_interfaces (.update he Table.get_insert_eq_update rfl)
  exact htaken.transmit hcause id raw

end Steady

theorem deliver_steady (s : Actor F) (destHash : Octets 16) (event : DestinationEvent) :
    Steady s (s.deliver destHash event).2 := by
  unfold deliver
  split
  · exact .refl s
  split
  · exact .refl s
  · exact { Steady.refl s with }

/-! ### Removing an interface -/

section

variable (s : Actor F) (id : ℕ)

theorem finishCachedResponse_steady [DecidableEq F] (cached : Option (Octets 16 × F)) (raw : Bytes) :
    Steady s (s.finishCachedResponse cached raw id) := by
  obtain ⟨_, _, heq⟩ := s.finishCachedResponse_eq cached raw id
  rw [heq]
  exact { Steady.refl s with }

theorem deregisterInterface_steady [DecidableEq F] [Binary64 F] :
    Steady s (s.deregisterInterface id) where
  tags := by
    obtain ⟨_, _, heq⟩ := s.deregisterInterface_eq id
    rw [heq]
    split_ifs <;> rfl
  pending := s.pendingPathRequestAdmissions_deregisterInterface id
  sent := by rw [requestsSent, s.transmissions_deregisterInterface id, requestsSent]
  interfaces := s.interfaces_deregisterInterface id ▸ .erase _ id

end

/-! ### Sending -/

variable {raw : Bytes}

section

variable [Sha256] [Ed25519] [Hkdf]

theorem trySendToInterface_steady {s s' : Actor F}
    {outcome : InterfaceSendOutcome} (hcause : cause ≠ .pathRequest)
    (h : s.trySendToInterface cause id raw = (outcome, s')) : Steady s s' := by
  obtain ⟨-, entry, pendingLocalLinkRequests, he, rfl⟩ | ⟨-, rfl⟩ := trySendToInterface_eq h
  · exact { (Steady.refl s).accept hcause he raw with }
  · exact .refl _

theorem sendToInterface_steady [DecidableEq F] [Binary64 F] (s : Actor F)
    (hcause : cause ≠ .pathRequest) (id : ℕ) (raw : Bytes) :
    Steady s (s.sendToInterface cause id raw).2 := by
  rcases h : s.trySendToInterface cause id raw with ⟨outcome, s'⟩
  have hsent := trySendToInterface_steady hcause h
  simp only [sendToInterface, h]
  cases outcome with
  | closed => exact hsent.trans (deregisterInterface_steady _ _)
  | offline => exact hsent.trans (deregisterInterface_steady _ _)
  | _ => exact hsent

end

/-! ### Both -/

/-- Work that learns nothing and leaves path requests alone. -/
structure Quiet (Q : Cause → Bytes → Prop) (s s' : Actor F) : Prop where
  calm : Calm Q s s'
  steady : Steady s s'

namespace Quiet

variable {Q Q' : Cause → Bytes → Prop} {s s' s'' : Actor F}

theorem refl (Q : Cause → Bytes → Prop) (s : Actor F) : Quiet Q s s := ⟨.refl Q s, .refl s⟩

theorem absorb (h : Quiet Q s s')
    (hQ : ∀ cause raw, Q cause raw → s.Holds cause raw ∨ Q' cause raw) : Quiet Q' s s' :=
  ⟨h.calm.absorb hQ, h.steady⟩

theorem mono (h : Quiet Q s s') (hQ : ∀ cause raw, Q cause raw → Q' cause raw) : Quiet Q' s s' :=
  ⟨h.calm.mono hQ, h.steady⟩

theorem trans (h : Quiet Q s s') (h' : Quiet Q s' s'') : Quiet Q s s'' :=
  ⟨h.calm.trans h'.calm, h.steady.trans h'.steady⟩

theorem foldl {ι : Type} {f : Actor F → ι → Actor F} (hf : ∀ s i, Quiet Q s (f s i)) (l : List ι)
    (s : Actor F) : Quiet Q s (l.foldl f s) :=
  ⟨.foldl (fun s i => (hf s i).calm) l s, .foldl (fun s i => (hf s i).steady) l s⟩

theorem iterate {f : Actor F → Actor F} (hf : ∀ s, Quiet Q s (f s)) (n : ℕ) (s : Actor F) :
    Quiet Q s (f^[n] s) :=
  ⟨.iterate (fun s => (hf s).calm) n s, .iterate (fun s => (hf s).steady) n s⟩

section

variable (h : Quiet Q s s')

include h

theorem mapValues_interfaces {f : ℕ → Interface F → Interface F}
    (hf : ∀ id (entry : Interface F), entry.Later (f id entry))
    (hqueue : ∀ id (entry : Interface F), ∀ q ∈ (f id entry).announceQueue,
      q ∈ entry.announceQueue ∨ Q .announce q.raw) :
    Quiet Q s { s' with interfaces := s'.interfaces.mapValues f } :=
  ⟨h.calm.mapValues_interfaces hf hqueue,
    h.steady.set_interfaces (.mapValues _ fun id entry => (hf id entry).role)⟩

theorem modify_interface (id : ℕ) (hf : ∀ entry : Interface F, entry.Later (f entry))
    (hqueue : ∀ entry, ∀ q ∈ (f entry).announceQueue, q ∈ entry.announceQueue ∨ Q .announce q.raw) :
    Quiet Q s { s' with interfaces := s'.interfaces.modify id f } :=
  ⟨h.calm.modify_interface id hf hqueue, h.steady.modify_interface id fun entry => (hf entry).role⟩

theorem accept (hcause : cause ≠ .pathRequest) (he : s'.interfaces.get id = some entry)
    (hraw : s.Holds cause raw ∨ Q cause raw) : Quiet Q s (s'.accept cause id entry raw) :=
  ⟨h.calm.accept he hraw, h.steady.accept hcause he raw⟩

theorem set_announceTable {announceTable : Table (Octets 16) (AnnounceEntry F)}
    (ht : ∀ hash entry, announceTable.get hash = some entry →
      s.Holds .announce entry.packetRaw ∨ Q .announce entry.packetRaw) :
    Quiet Q s { s' with announceTable } :=
  ⟨h.calm.set_announceTable ht, { h.steady with }⟩

theorem set_pendingAnnounces {pending : List (PendingAnnounce F)}
    (hp : ∀ p ∈ pending, s.Holds .announce p.raw ∨ Q .announce p.raw) :
    Quiet Q s { s' with pendingAnnounceAdmissions := pending } :=
  ⟨h.calm.set_pendingAnnounces hp, { h.steady with }⟩

theorem set_offered {offeredAnnounces : Table ℕ (OfferedAnnounce F)}
    (ho : ∀ id o, offeredAnnounces.get id = some o →
      s.Holds .announce o.raw ∨ Q .announce o.raw) :
    Quiet Q s { s' with offeredAnnounces } :=
  ⟨h.calm.set_offered ho, { h.steady with }⟩

end

end Quiet

section

variable (Q : Cause → Bytes → Prop) (s : Actor F)

theorem deliver_quiet {destHash : Octets 16} {event : DestinationEvent} :
    Quiet Q s (s.deliver destHash event).2 :=
  ⟨deliver_calm Q, deliver_steady s destHash event⟩

theorem sendToInterface_quiet [Sha256] [Ed25519] [Hkdf] [DecidableEq F] [Binary64 F] {s : Actor F}
    (hcause : cause ≠ .pathRequest) :
    Quiet (fun c r => c = cause ∧ r = raw) s (s.sendToInterface cause id raw).2 :=
  ⟨sendToInterface_calm, sendToInterface_steady s hcause id raw⟩

theorem finishCachedResponse_quiet [DecidableEq F] (id : ℕ) (cached : Option (Octets 16 × F))
    (raw : Bytes) : Quiet Q s (s.finishCachedResponse cached raw id) :=
  ⟨finishCachedResponse_calm Q s id cached raw, finishCachedResponse_steady s id cached raw⟩

theorem deregisterInterface_quiet [DecidableEq F] [Binary64 F] (id : ℕ) :
    Quiet Q s (s.deregisterInterface id) :=
  ⟨deregisterInterface_calm Q s id, deregisterInterface_steady s id⟩

/-- Losing searches only loses requests that wait for them. -/
theorem retire_discovery_quiet
    (discoveryPathRequests : Table (Octets 16) (DiscoveryOperation F)) :
    Quiet Q s (Actor.retireOrphanedDiscoveryAdmissions { s with discoveryPathRequests }) where
  calm := by
    refine .trans ?_ (retireOrphanedDiscoveryAdmissions_calm Q _)
    exact { Calm.refl Q s with }
  steady := { Steady.refl s with pending := List.filter_sublist }

end

end Actor

end Reticulum.Transport
