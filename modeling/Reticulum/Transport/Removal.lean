import Reticulum.Transport.Calm

/-!
# Removing an interface

`deregister_interface_with_link_reason` of `actor/mod.rs` cleans the tables of a node one after the
other. Here its result is written down as a whole: every table but those of announces is given by
what it was before, and the tables of announces only change by the path responses that end.
-/

namespace Reticulum.Transport.Actor

variable {F : Type} [DecidableEq F]

/-! ### Path responses that end -/

variable (s : Actor F)

/-- The end of a path response changes the tables of announces only. -/
theorem finishCachedResponse_eq (cached : Option (Octets 16 × F)) (raw : Bytes)
    (id : ℕ) : ∃ announceTable heldAnnounces,
      s.finishCachedResponse cached raw id = { s with announceTable, heldAnnounces } := by
  unfold finishCachedResponse
  cases cached with
  | none => exact ⟨_, _, rfl⟩
  | some cached =>
    dsimp only
    split
    · split <;> exact ⟨_, _, rfl⟩
    · exact ⟨_, _, rfl⟩

variable (id : ℕ)

theorem retireAnnounceInterface_eq : ∃ announceTable heldAnnounces,
    s.retireAnnounceInterface id =
      { s with
        announceTable
        heldAnnounces
        offeredAnnounces := s.offeredAnnounces.erase id
        pendingAnnounceAdmissions :=
          s.pendingAnnounceAdmissions.filter (·.interface ≠ id) } := by
  have hfold : ∀ (l : List (PendingAnnounce F)) (s : Actor F), ∃ announceTable heldAnnounces,
      l.foldl (fun s pending =>
        if pending.interface = id then s.finishCachedResponse pending.cached pending.raw id
        else s) s = { s with announceTable, heldAnnounces } := by
    intro l
    induction l with
    | nil => exact fun s => ⟨_, _, rfl⟩
    | cons pending l ih =>
      intro s
      rw [List.foldl_cons]
      split
      · obtain ⟨_, _, hfinished⟩ := s.finishCachedResponse_eq pending.cached pending.raw id
        rw [hfinished]
        exact ih _
      · exact ih s
  obtain ⟨announceTable, heldAnnounces, heq⟩ := hfold s.pendingAnnounceAdmissions
    { s with offeredAnnounces := s.offeredAnnounces.erase id }
  refine ⟨announceTable, heldAnnounces, ?_⟩
  rw [retireAnnounceInterface, heq]

/-! ### The whole removal -/

variable [Binary64 F]

/-- A node without an interface, but for the path responses that end with it. -/
def withoutInterface (s : Actor F) (id : ℕ) : Actor F :=
  { retirePathRequestAdmissions (retireRecursiveDiscoveryInterface { s with
      linkTable := s.linkTable.removeInterface id
      tunnelTable := s.tunnelTable.voidInterface id
      pathTable := s.pathTable.dropAllVia id
      pathInterfaceSuppressions := s.pathInterfaceSuppressions.retain fun key _ => key.2 ≠ id
      pendingLocalPathRequests := s.pendingLocalPathRequests.retain fun _ waiting => waiting ≠ id }
      id) id with
    offeredAnnounces := s.offeredAnnounces.erase id
    pendingAnnounceAdmissions := s.pendingAnnounceAdmissions.filter (·.interface ≠ id)
    interfaces := s.interfaces.erase id }

/-- An interface is removed from every table. With the peer of a shared instance its whole state
goes. -/
theorem deregisterInterface_eq : ∃ announceTable heldAnnounces,
    s.deregisterInterface id =
      if s.isSharedInstancePeerInterface id then
        clearSharedConnectionState { s.withoutInterface id with
          isSharedInstance := false, sharedInstanceClientMode := true }
      else { s.withoutInterface id with announceTable, heldAnnounces } := by
  have hrole : (s.interfaces.get id).map (·.role) = some .sharedInstancePeer ↔
      s.isSharedInstancePeerInterface id := by
    rw [isSharedInstancePeerInterface, hasRole]
    cases s.interfaces.get id <;> simp
  simp only [deregisterInterface, hrole]
  generalize hretired : retirePathRequestAdmissions _ id = retired
  obtain ⟨announceTable, heldAnnounces, heq⟩ := retireAnnounceInterface_eq retired id
  refine ⟨announceTable, heldAnnounces, ?_⟩
  subst hretired
  rw [heq]
  split_ifs
  · rfl
  · rfl

theorem interfaces_deregisterInterface :
    (s.deregisterInterface id).interfaces = s.interfaces.erase id := by
  obtain ⟨_, _, heq⟩ := s.deregisterInterface_eq id
  rw [heq]
  split_ifs <;> rfl

theorem transmissions_deregisterInterface :
    (s.deregisterInterface id).transmissions = s.transmissions := by
  obtain ⟨_, _, heq⟩ := s.deregisterInterface_eq id
  rw [heq]
  split_ifs <;> rfl

theorem pendingPathRequestAdmissions_deregisterInterface :
    (s.deregisterInterface id).pendingPathRequestAdmissions.Sublist
      s.pendingPathRequestAdmissions := by
  obtain ⟨_, _, heq⟩ := s.deregisterInterface_eq id
  rw [heq]
  split_ifs
  · exact List.nil_sublist _
  · exact List.filter_sublist.trans List.filter_sublist

end Reticulum.Transport.Actor
