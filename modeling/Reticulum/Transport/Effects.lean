import Reticulum.Transport.Inbound

/-!
# What a received packet can do

One statement for each type of packet says all that the node may gain from it: links, paths, tunnel
paths, cached and held announces, known keys, and packets to send. What is not named is lost or as
before. The invariants of the node follow from these statements, without another look at the code.
-/

namespace Reticulum.Transport

open Wire Table Option

variable {F : Type}

/-- What a step may bring in. -/
structure Gain (F : Type) where
  packets : Cause → Bytes → Prop := fun _ _ => False
  links : Octets 16 → LinkEntry F → Prop := fun _ _ => False
  paths : Octets 16 → RouteEntry F → Prop := fun _ _ => False
  tunnels : Octets 16 → TunnelPath F → Prop := fun _ _ => False
  cache : Octets 32 → Bytes → Prop := fun _ _ => False
  held : HeldAnnounce → Prop := fun _ => False
  keys : Octets 16 → Octets 64 → Prop := fun _ _ => False

namespace Actor

/-- A step that brings in no more than `g`. -/
structure Gains (g : Gain F) (s s' : Actor F) : Prop where
  links : ∀ id entry, s'.linkTable.get id = some entry →
    s.linkTable.get id = some entry ∨ g.links id entry
  paths : ∀ destHash path, s'.pathTable.get destHash = some path →
    s.pathTable.get destHash = some path ∨ g.paths destHash path
  tunnels : ∀ destHash path, s'.tunnelTable.Knows destHash path →
    s.tunnelTable.Knows destHash path ∨ g.tunnels destHash path
  cache : ∀ hash raw, s'.cached hash = some raw → s.cached hash = some raw ∨ g.cache hash raw
  interfaces : ∀ id entry', s'.interfaces.get id = some entry' →
    ∃ entry, s.interfaces.get id = some entry ∧ entry'.role = entry.role ∧
      ∀ destHash held, entry'.heldAnnounces.get destHash = some held →
        entry.heldAnnounces.get destHash = some held ∨ g.held held
  keys : ∀ destHash key, s'.knownKey destHash = some key →
    s.knownKey destHash = some key ∨ g.keys destHash key
  localDestinations : s'.localDestinations = s.localDestinations
  isTransportEnabled : s'.isTransportEnabled = s.isTransportEnabled
  transportIdentityHash : s'.transportIdentityHash = s.transportIdentityHash
  localHopsDelta : s'.localHopsDelta = s.localHopsDelta
  isSharedInstance : s.isSharedInstance = false → s'.isSharedInstance = false
  holds : ∀ cause raw, s'.Holds cause raw → s.Holds cause raw ∨ g.packets cause raw
  sent : ∃ l, s'.transmissions = s.transmissions ++ l ∧
    ∀ t ∈ l, s.Holds t.cause t.raw ∨ g.packets t.cause t.raw

namespace Gains

variable {g : Gain F} {s s' s'' : Actor F}

theorem refl (g : Gain F) (s : Actor F) : Gains g s s :=
  ⟨fun _ _ h => .inl h, fun _ _ h => .inl h, fun _ _ h => .inl h, fun _ _ h => .inl h,
    fun _ _ h => ⟨_, h, rfl, fun _ _ h => .inl h⟩, fun _ _ h => .inl h, rfl, rfl, rfl, rfl, id,
    fun _ _ h => .inl h, [], (List.append_nil _).symm, nofun⟩

/-- Two steps with one bound. -/
theorem trans (h : Gains g s s') (h' : Gains g s' s'') : Gains g s s'' where
  links id entry he := (h'.links id entry he).elim (h.links id entry) .inr
  paths destHash path hp := (h'.paths destHash path hp).elim (h.paths destHash path) .inr
  tunnels destHash path hp := (h'.tunnels destHash path hp).elim (h.tunnels destHash path) .inr
  cache hash raw hc := (h'.cache hash raw hc).elim (h.cache hash raw) .inr
  interfaces id entry'' he := by
    obtain ⟨entry', he', hrole', hheld'⟩ := h'.interfaces id entry'' he
    obtain ⟨entry, he, hrole, hheld⟩ := h.interfaces id entry' he'
    exact ⟨entry, he, hrole'.trans hrole, fun destHash held hh =>
      (hheld' destHash held hh).elim (hheld destHash held) .inr⟩
  keys destHash key hk := (h'.keys destHash key hk).elim (h.keys destHash key) .inr
  localDestinations := h'.localDestinations.trans h.localDestinations
  isTransportEnabled := h'.isTransportEnabled.trans h.isTransportEnabled
  transportIdentityHash := h'.transportIdentityHash.trans h.transportIdentityHash
  localHopsDelta := h'.localHopsDelta.trans h.localHopsDelta
  isSharedInstance := h'.isSharedInstance ∘ h.isSharedInstance
  holds cause raw hh := (h'.holds cause raw hh).elim (h.holds cause raw) .inr
  sent := by
    obtain ⟨l, hl, hall⟩ := h.sent
    obtain ⟨l', hl', hall'⟩ := h'.sent
    refine ⟨l ++ l', by rw [hl', hl, List.append_assoc], fun t ht => ?_⟩
    rcases List.mem_append.mp ht with ht | ht
    · exact hall t ht
    · exact (hall' t ht).elim (h.holds t.cause t.raw) .inr

/-- A node without local clients and shared peers gets none. -/
theorem bare (h : Gains g s s') (hs : s.Bare) : s'.Bare where
  role id entry' he := by
    obtain ⟨entry, he, hrole, -⟩ := h.interfaces id entry' he
    rw [hrole]
    exact hs.role id entry he
  localHopsDelta := h.localHopsDelta.trans hs.localHopsDelta
  isSharedInstance := h.isSharedInstance hs.isSharedInstance

end Gains

variable {g : Gain F} {Q : Cause → Bytes → Prop}

/-- Auxiliary work brings in only the packets that it is given. -/
theorem Calm.gains {s s' : Actor F} (h : Calm Q s s')
    (hQ : ∀ cause raw, Q cause raw → g.packets cause raw) : Gains g s s' where
  links id entry he := .inl (h.links he)
  paths destHash path hp := .inl (h.paths hp)
  tunnels destHash path hp := .inl (h.tunnels destHash path hp)
  cache hash raw hc := .inl (h.cache hash raw hc)
  interfaces id entry' he := by
    obtain ⟨entry, he, hl⟩ := h.interfaces id entry' he
    exact ⟨entry, he, hl.role, fun _ _ hh => .inl (hl.heldAnnounces hh)⟩
  keys destHash key hk := .inl (by rwa [knownKey, h.recentAnnounces] at hk)
  localDestinations := h.localDestinations
  isTransportEnabled := h.isTransportEnabled
  transportIdentityHash := h.transportIdentityHash
  localHopsDelta := h.localHopsDelta
  isSharedInstance := h.isSharedInstance
  holds cause raw hh := (h.holds cause raw hh).imp_right (hQ cause raw)
  sent := by
    obtain ⟨l, hl, hall⟩ := h.sent
    exact ⟨l, hl, fun t ht => (hall t ht).imp_right (hQ _ _)⟩

/-- A step that brings in no more than `g` and leaves path requests alone. -/
structure Brings (g : Gain F) (s s' : Actor F) : Prop where
  gains : Gains g s s'
  steady : Steady s s'

namespace Brings

variable {g : Gain F} {s s' s'' : Actor F}

theorem refl (g : Gain F) (s : Actor F) : Brings g s s := ⟨.refl g s, .refl s⟩

theorem trans (h : Brings g s s') (h' : Brings g s' s'') : Brings g s s'' :=
  ⟨h.gains.trans h'.gains, h.steady.trans h'.steady⟩

theorem foldl {ι : Type} {f : Actor F → ι → Actor F} (l : List ι)
    (hf : ∀ s, ∀ i ∈ l, Brings g s (f s i)) (s : Actor F) : Brings g s (l.foldl f s) :=
  List.foldlRecOn l f (motive := Brings g s) (refl g s)
    fun s' h i hi => h.trans (hf s' i hi)

end Brings

theorem Quiet.brings {s s' : Actor F} (h : Quiet Q s s')
    (hQ : ∀ cause raw, Q cause raw → g.packets cause raw) : Brings g s s' :=
  ⟨h.calm.gains hQ, h.steady⟩

/-! ### Small changes -/

variable {interfaceId : ℕ} {s' : Actor F} {announce : AnnounceData} {t : TunnelTable F}

section

variable {s : Actor F}

theorem transportAnnounceFromRaw_congr (h : s'.transportIdentityHash = s.transportIdentityHash) :
    s'.transportAnnounceFromRaw = s.transportAnnounceFromRaw := by
  funext cachedRaw destinationHash hops context
  rw [transportAnnounceFromRaw, transportAnnounceFromRaw, h]

theorem pathResponseFromCachedAnnounce_congr
    (h : s'.transportIdentityHash = s.transportIdentityHash) :
    s'.pathResponseFromCachedAnnounce = s.pathResponseFromCachedAnnounce := by
  funext cachedRaw destinationHash hops
  rw [pathResponseFromCachedAnnounce, pathResponseFromCachedAnnounce, h]

/-- An announce is held back on its interface. -/
theorem heldAnnounce_brings {announce : HeldAnnounce} (hheld : g.held announce) :
    Brings g s { s with
      interfaces := s.interfaces.modify interfaceId fun entry => entry.holdAnnounce announce } := by
  have hhold (entry : Interface F) : (entry.holdAnnounce announce).role = entry.role ∧
      (entry.holdAnnounce announce).announceQueue = entry.announceQueue ∧
      ∀ destHash held, (entry.holdAnnounce announce).heldAnnounces.get destHash = some held →
        entry.heldAnnounces.get destHash = some held ∨ g.held held := by
    unfold Interface.holdAnnounce
    split
    · exact ⟨rfl, rfl, fun _ _ h => .inl h⟩
    split
    · refine ⟨rfl, rfl, fun destHash held h => ?_⟩
      dsimp only at h
      obtain ⟨-, rfl⟩ | h := of_get_insert h
      · exact .inr hheld
      · exact .inl h
    · exact ⟨rfl, rfl, fun _ _ h => .inl h⟩
  have hget (id : ℕ) (entry' : Interface F)
      (h : (s.interfaces.modify interfaceId fun entry => entry.holdAnnounce announce).get id =
        some entry') :
      ∃ entry, s.interfaces.get id = some entry ∧
        (entry' = entry ∨ entry' = entry.holdAnnounce announce) := by
    obtain ⟨entry, hget, rfl, -⟩ | h := of_get_modify h
    · exact ⟨entry, hget, .inr rfl⟩
    · exact ⟨entry', h, .inl rfl⟩
  refine ⟨{ Gains.refl _ s with
    interfaces := fun id entry' he => ?_
    holds := fun cause raw hh => .inl ?_ }, ?_⟩
  · obtain ⟨entry, hentry, rfl | rfl⟩ := hget id entry' he
    · exact ⟨entry', hentry, rfl, fun _ _ h => .inl h⟩
    · exact ⟨entry, hentry, (hhold entry).1, (hhold entry).2.2⟩
  · cases cause with
    | pathRequest | forward | relay => exact hh
    | announce =>
      rcases hh with hh | hh | ⟨id, entry', he, q, hq, hraw⟩ | hh
      · exact .inl hh
      · exact .inr (.inl hh)
      · obtain ⟨entry, hentry, rfl | rfl⟩ := hget id entry' he
        · exact .inr (.inr (.inl ⟨id, entry', hentry, q, hq, hraw⟩))
        · exact .inr (.inr (.inl ⟨id, entry, hentry, q, (hhold entry).2.1 ▸ hq, hraw⟩))
      · exact .inr (.inr (.inr hh))
  · exact (Steady.refl s).modify_interface interfaceId fun entry => (hhold entry).1

variable {m : Moment F}

theorem rememberAnnounce_brings {header : PacketHeader} {identity : Identity}
    (hkey : g.keys header.destinationHash identity.getPublicKey) :
    Brings g s (s.rememberAnnounce m header announce identity) := by
  refine ⟨{ Gains.refl _ s with keys := fun destHash key hk => ?_ }, { Steady.refl s with }⟩
  obtain ⟨known, hget, hk⟩ := bind_eq_some_iff.mp hk
  rw [rememberAnnounce] at hget
  obtain ⟨hdest, rfl⟩ | hget := of_get_insert hget
  · have hkeyed : some identity.getPublicKey = some key := by
      unfold rememberedAnnounce at hk
      split at hk <;> exact hk
    exact .inr (hdest ▸ some.inj hkeyed ▸ hkey)
  · exact .inl (bind_eq_some_iff.mpr ⟨known, hget, hk⟩)

variable {destHash : Octets 16}

theorem modify_recentAnnounces_brings (g : Gain F) {f : RecentAnnounce F → RecentAnnounce F}
    (hf : ∀ known, (f known).publicKey = known.publicKey) :
    Brings g s { s with recentAnnounces := s.recentAnnounces.modify destHash f } := by
  refine ⟨{ Gains.refl _ s with keys := fun destHash' key hk => .inl ?_ }, { Steady.refl s with }⟩
  obtain ⟨known', hget, hkey⟩ := bind_eq_some_iff.mp hk
  obtain ⟨known, hknown, rfl, -⟩ | hget := of_get_modify hget
  · exact bind_eq_some_iff.mpr ⟨known, hknown, (hf known).symm.trans hkey⟩
  · exact bind_eq_some_iff.mpr ⟨known', hget, hkey⟩

theorem useDestination_brings (g : Gain F) : Brings g s (s.useDestination m destHash) :=
  modify_recentAnnounces_brings g fun _ => rfl

variable [Binary64 F]

/-- A path was used. -/
def Touched (s : Actor F) (m : Moment F) (destHash : Octets 16) (path : RouteEntry F) : Prop :=
  ∃ before, s.pathTable.get destHash = some before ∧ path = before.touch m.now

theorem touchLive_brings
    (htouched : ∀ destHash path, s.Touched m destHash path → g.paths destHash path) :
    Brings g s { s with pathTable := s.pathTable.touchLive m.now destHash } := by
  refine ⟨{ Gains.refl _ s with paths := fun destHash' path hp => ?_ }, { Steady.refl s with }⟩
  change (s.pathTable.entries.modify _ _).get destHash' = some path at hp
  obtain ⟨before, hget, heq, -⟩ | hp := of_get_modify hp
  · split_ifs at heq
    · exact .inl (heq ▸ hget)
    · exact .inr (htouched _ _ ⟨before, hget, heq.symm⟩)
  · exact .inl hp

/-- A path was restored from a tunnel. -/
def Restored (s : Actor F) (destHash : Octets 16) (path : RouteEntry F) : Prop :=
  ∃ known, s.tunnelTable.Knows destHash known ∧ path.hops = known.hops ∧
    path.packetHash = known.packetHash

variable {tunnelId : Octets 32}

theorem handleTunnel_knows {now : F} {path : TunnelPath F}
    (h : (t.handleTunnel now tunnelId interfaceId).Knows destHash path) : t.Knows destHash path := by
  obtain ⟨id, entry', he, hp⟩ := h
  unfold TunnelTable.handleTunnel at he
  dsimp only at he
  split_ifs at he
  · obtain ⟨entry, hget, rfl, -⟩ | he := of_get_modify he
    · exact ⟨id, entry, hget, hp⟩
    · exact ⟨id, entry', he, hp⟩
  · obtain ⟨-, rfl⟩ | he := of_get_insert he
    · cases hp
    · exact ⟨id, entry', he, hp⟩

/-- One path of a tunnel is restored or forgotten. -/
theorem restoreTunnelPath_brings {e : Octets 16 × TunnelPath F}
    (hpath : ∀ path : RouteEntry F, path.hops = e.2.hops → path.packetHash = e.2.packetHash →
      g.paths e.1 path) :
    Brings g s (s.restoreTunnelPath m tunnelId interfaceId e) := by
  unfold restoreTunnelPath
  split
  · refine ⟨{ Gains.refl _ s with paths := fun destHash path hp => ?_ }, { Steady.refl s with }⟩
    change (s.pathTable.entries.insert _ _).get destHash = some path at hp
    obtain ⟨hdest, rfl⟩ | hp := of_get_insert hp
    · exact .inr (hdest ▸ hpath _ rfl rfl)
    · exact .inl hp
  · refine ⟨{ Gains.refl _ s with tunnels := fun destHash path hp => .inl ?_ }, { Steady.refl s with }⟩
    obtain ⟨id, entry', he, hget⟩ := hp
    dsimp only at he
    obtain ⟨entry, hentry, rfl, -⟩ | he := of_get_modify he
    · exact ⟨id, entry, hentry, Sub.erase _ _ hget⟩
    · exact ⟨id, entry', he, hget⟩

end

/-! ### Announces -/

section

variable [Binary64 F] {s : Actor F} (m : Moment F)

theorem cancelRebroadcast_eq (header : PacketHeader) :
    ∃ announceTable, s.cancelRebroadcast m header = { s with announceTable } ∧
      ∀ hash entry, announceTable.get hash = some entry →
        ∃ entry', s.announceTable.get hash = some entry' ∧ entry.packetRaw = entry'.packetRaw := by
  have herase : ∀ hash entry, (s.announceTable.erase header.destinationHash).get hash = some entry →
      ∃ entry', s.announceTable.get hash = some entry' ∧ entry.packetRaw = entry'.packetRaw :=
    fun hash entry he => ⟨entry, Sub.erase _ _ he, rfl⟩
  unfold cancelRebroadcast
  split
  · exact ⟨_, rfl, fun _ entry he => ⟨entry, he, rfl⟩⟩
  next existing _ =>
    split
    · split
      · exact ⟨_, rfl, herase⟩
      · refine ⟨_, rfl, fun hash entry he => ?_⟩
        obtain ⟨entry', hget, rfl, -⟩ | he := of_get_modify he
        · exact ⟨entry', hget, rfl⟩
        · exact ⟨entry, he, rfl⟩
    split
    · exact ⟨_, rfl, herase⟩
    · exact ⟨_, rfl, fun _ entry he => ⟨entry, he, rfl⟩⟩

theorem liftSuppression_eq (destHash : Octets 16) (interfaceId : ℕ) :
    ∃ pathInterfaceSuppressions,
      s.liftSuppression m destHash interfaceId = { s with pathInterfaceSuppressions } := by
  unfold liftSuppression
  split
  · exact ⟨_, rfl⟩
  · exact ⟨_, rfl⟩

theorem queueRebroadcast_eq (raw : Bytes) (header : PacketHeader) (interfaceId : ℕ) :
    ∃ announceTable, s.queueRebroadcast m raw header interfaceId = { s with announceTable } ∧
      ∀ hash entry, announceTable.get hash = some entry →
        s.announceTable.get hash = some entry ∨
          entry.packetRaw =
            s.transportAnnounceFromRaw raw header.destinationHash header.hops .none := by
  unfold queueRebroadcast
  dsimp only
  split
  · refine ⟨_, rfl, fun hash entry he => ?_⟩
    by_cases heq : hash = header.destinationHash
    · rw [heq, get_insert_self] at he
      exact .inr (some.inj he ▸ rfl)
    · rw [get_insert_ne heq] at he
      exact .inl he
  · exact ⟨_, rfl, fun _ _ he => .inl he⟩

/-- A tunnel learns only the path it is given. -/
theorem knows_of_learn {now : F} {destHash destHash' : Octets 16} {path path' : TunnelPath F}
    (h : (t.learn now interfaceId destHash path).Knows destHash' path') :
    t.Knows destHash' path' ∨ destHash' = destHash ∧ path' = path := by
  unfold TunnelTable.learn at h
  split at h
  · exact .inl h
  next tunnelId _ =>
    obtain ⟨id, entry', he, hp⟩ := h
    obtain ⟨entry, hget, rfl, -⟩ | he := of_get_modify he
    · dsimp only at hp
      obtain hnew | hp := of_get_insert hp
      · exact .inr hnew
      · exact .inl ⟨id, entry, hget, hp⟩
    · exact .inl ⟨id, entry', he, hp⟩

end

section

variable [Sha256] [Ed25519] [Hkdf] [DecidableEq F] [Binary64 F] {s : Actor F} {g : Gain F}
  {m : Moment F} {raw : Bytes} {header : PacketHeader} {interfaceId : ℕ}

/-- What an announce may bring in. -/
def announceGain (s : Actor F) (m : Moment F) (raw : Bytes) (header : PacketHeader)
    (dataOffset interfaceId : ℕ) : Gain F where
  packets cause sent := cause = .announce ∧ header.destinationHash ∉ s.localDestinations ∧
    header.hops < pathfinderM ∧
    (sent = s.transportAnnounceFromRaw raw header.destinationHash header.hops .none ∨
      s.pathResponseFromCachedAnnounce raw header.destinationHash header.hops = some sent)
  paths destHash path := destHash = header.destinationHash ∧ header.hops < pathfinderM ∧
    ∃ announce identity, s.verifiedAnnounce m raw header dataOffset = some (announce, identity) ∧
      s.improvesPath m header announce.randomHash interfaceId = true ∧
      path = s.announcedPath m raw header announce.randomHash interfaceId
  tunnels destHash path := destHash = header.destinationHash ∧ header.hops < pathfinderM ∧
    path.hops = header.hops ∧ path.packetHash = packetHash raw header.flags.headerType
  cache hash cachedRaw := packetHash raw header.flags.headerType = some hash ∧ cachedRaw = raw
  held announce := announce.raw = raw ∧ announce.receivingInterfaceId = interfaceId
  keys destHash key := destHash = header.destinationHash ∧
    ∃ announce identity, s.verifiedAnnounce m raw header dataOffset = some (announce, identity) ∧
      announce.validateDestinationBinding destHash identity (s.knownKey destHash) = .ok () ∧
      key = identity.getPublicKey

theorem answerSearch_brings (m : Moment F) (interfaceId : ℕ)
    (hresponse : ∀ response, s.pathResponseFromCachedAnnounce raw
      header.destinationHash header.hops = some response → g.packets .announce response) :
    Brings g s (s.answerSearch m raw header interfaceId) := by
  unfold answerSearch
  split
  · exact .refl g s
  next response h =>
    exact finishRecursiveDiscovery_quiet.brings fun _ _ hq => hq.1 ▸ hq.2 ▸ hresponse response h

theorem answerLocalRequest_brings (interfaceId : ℕ)
    (hresponse : ∀ response, s.pathResponseFromCachedAnnounce raw
      header.destinationHash header.hops = some response → g.packets .announce response) :
    Brings g s (s.answerLocalRequest raw header interfaceId) := by
  unfold answerLocalRequest
  split
  · split
    · exact .refl g s
    have herased (pendingLocalPathRequests : Table (Octets 16) ℕ) :
        Brings g s { s with pendingLocalPathRequests } :=
      ⟨{ Gains.refl g s with }, { Steady.refl s with }⟩
    dsimp only
    split
    · exact herased _
    next response h =>
      exact (herased _).trans
        ((sendToInterface_quiet (by decide)).brings fun _ _ hq => hq.1 ▸ hq.2 ▸ hresponse response h)
  · exact .refl g s

omit [Ed25519] [Hkdf] [DecidableEq F] [Binary64 F] in
theorem cacheAnnounceToDisk_brings (m : Moment F) (header : PacketHeader)
    (hcache : ∀ hash, packetHash raw header.flags.headerType = some hash → g.cache hash raw) :
    Brings g s (s.cacheAnnounceToDisk m raw header) := by
  unfold cacheAnnounceToDisk
  split
  · exact .refl g s
  next hash hhash =>
    refine ⟨{ Gains.refl _ s with cache := fun hash' raw' hc => ?_ }, { Steady.refl s with }⟩
    obtain ⟨cache', hmap, hget⟩ := bind_eq_some_iff.mp hc
    obtain ⟨cache, hcache', rfl⟩ := map_eq_some_iff.mp hmap
    have hkept : cache.get hash' = some raw' → s.cached hash' = some raw' := fun h =>
      bind_eq_some_iff.mpr ⟨cache, hcache', h⟩
    split_ifs at hget
    · exact .inl (hkept hget)
    · obtain ⟨rfl, rfl⟩ | hget := of_get_insert hget
      · exact .inr (hcache _ hhash)
      · exact .inl (hkept hget)

omit [Ed25519] [Hkdf] [DecidableEq F] [Binary64 F] in
theorem noteAnnounce_brings (g : Gain F) (raw : Bytes) (header : PacketHeader)
    (announce : AnnounceData) : Brings g s (s.noteAnnounce raw header announce) :=
  modify_recentAnnounces_brings g fun _ => rfl

/-- An announce that is adopted: its bytes are sent on, its path is learned. -/
theorem adoptAnnounce_brings
    (hrelay : g.packets .announce
      (s.transportAnnounceFromRaw raw header.destinationHash header.hops .none))
    (hresponse : ∀ response, s.pathResponseFromCachedAnnounce raw header.destinationHash
      header.hops = some response → g.packets .announce response)
    (hpath : g.paths header.destinationHash
      (s.announcedPath m raw header announce.randomHash interfaceId))
    (htunnel : ∀ path : TunnelPath F, path.hops = header.hops →
      path.packetHash = packetHash raw header.flags.headerType →
        g.tunnels header.destinationHash path)
    (hcache : ∀ hash, packetHash raw header.flags.headerType = some hash → g.cache hash raw) :
    Brings g s (s.adoptAnnounce m raw header announce interfaceId) := by
  obtain ⟨announceTable, hqueue, htable⟩ := queueRebroadcast_eq (s := s) m raw header interfaceId
  have hqueued : Brings g s { s with announceTable } := by
    have hquiet : Quiet g.packets s { s with announceTable } := by
      refine (Quiet.refl _ s).set_announceTable fun hash entry he => ?_
      rcases htable hash entry he with h | h
      · exact .inl (.inl ⟨hash, entry, h, rfl⟩)
      · exact .inr (h ▸ hrelay)
    exact hquiet.brings fun _ _ h => h
  have hlearned : Brings g { s with announceTable }
      (Actor.learnPath { s with announceTable } m raw header announce.randomHash interfaceId) := by
    refine ⟨{ Gains.refl g _ with
      paths := fun destHash path hp => ?_
      tunnels := fun destHash path hp => ?_ }, { Steady.refl _ with }⟩
    · change (s.pathTable.entries.insert _ _).get destHash = some path at hp
      obtain ⟨rfl, rfl⟩ | hp := of_get_insert hp
      · exact .inr hpath
      · exact .inl hp
    · rcases knows_of_learn hp with hp | ⟨rfl, rfl⟩
      · exact .inl hp
      · exact .inr (htunnel _ rfl rfl)
  -- Later states have the identity of the node, so they make the same bytes.
  have hresponse' (s' : Actor F) (h : Brings g s s') (response : Bytes)
      (hr : s'.pathResponseFromCachedAnnounce raw header.destinationHash header.hops =
        some response) : g.packets .announce response :=
    hresponse response (pathResponseFromCachedAnnounce_congr h.gains.transportIdentityHash ▸ hr)
  unfold adoptAnnounce
  rw [hqueue]
  have hadopted := hqueued.trans hlearned
  have hanswered := hadopted.trans (answerSearch_brings m interfaceId (hresponse' _ hadopted))
  have hcached := hanswered.trans (cacheAnnounceToDisk_brings m header hcache)
  have hnoted := hcached.trans (noteAnnounce_brings g raw header announce)
  have hshared := hnoted.trans (answerLocalRequest_brings interfaceId (hresponse' _ hnoted))
  refine hshared.trans (sendAnnounceToLocalClients_quiet.brings fun cause sent hsent => ?_)
  obtain ⟨rfl, rfl⟩ := hsent
  rw [transportAnnounceFromRaw_congr hshared.gains.transportIdentityHash]
  exact hrelay

/-- What an announce can do. -/
theorem processAnnounce_brings {dataOffset interfaceId : ℕ} :
    Brings (s.announceGain m raw header dataOffset interfaceId) s
      (s.processAnnounce m raw header dataOffset interfaceId) := by
  unfold processAnnounce
  split
  · exact .refl _ s
  next hlocal =>
    split
    · exact .refl _ s
    next announce identity hverified =>
      split
      · exact heldAnnounce_brings ⟨rfl, rfl⟩
      split
      · exact .refl _ s
      next hbinding =>
        have hremembered : Brings (s.announceGain m raw header dataOffset interfaceId) s
            (s.rememberAnnounce m header announce identity) :=
          rememberAnnounce_brings ⟨rfl, announce, identity, hverified, hbinding, rfl⟩
        obtain ⟨recentAnnounces, hrecent⟩ : ∃ recentAnnounces,
            s.rememberAnnounce m header announce identity = { s with recentAnnounces } := ⟨_, rfl⟩
        rw [hrecent] at hremembered ⊢
        refine hremembered.trans ?_
        unfold considerAnnounce
        split
        · exact .refl _ _
        next hhops =>
          obtain ⟨announceTable, hcancel, htable⟩ :=
            cancelRebroadcast_eq (s := { s with recentAnnounces }) m header
          obtain ⟨pathInterfaceSuppressions, hlift⟩ := liftSuppression_eq
            (s := { s with recentAnnounces, announceTable }) m header.destinationHash interfaceId
          have hcancelled : Brings (s.announceGain m raw header dataOffset interfaceId)
              { s with recentAnnounces }
              { s with recentAnnounces, announceTable, pathInterfaceSuppressions } := by
            have hquiet : Quiet (fun _ _ => False) { s with recentAnnounces }
                { s with recentAnnounces, announceTable } :=
              (Quiet.refl _ { s with recentAnnounces }).set_announceTable fun hash entry he => by
                obtain ⟨entry', hentry, hraw⟩ := htable hash entry he
                exact .inl (.inl ⟨hash, entry', hentry, hraw.symm⟩)
            exact (hquiet.brings fun _ _ h => h.elim).trans
              ⟨{ Gains.refl _ _ with }, { Steady.refl _ with }⟩
          have hbelow : header.hops < pathfinderM := UInt8.not_le.mp hhops
          rw [hcancel]
          dsimp only
          rw [hlift]
          split
          next himproves =>
            exact hcancelled.trans (adoptAnnounce_brings ⟨rfl, hlocal, hbelow, .inl rfl⟩
              (fun response h => ⟨rfl, hlocal, hbelow, .inr h⟩)
              ⟨rfl, hbelow, announce, identity, hverified, himproves, rfl⟩
              (fun path hhops hhash => ⟨rfl, hbelow, hhops, hhash⟩)
              fun hash hhash => ⟨hhash, rfl⟩)
          · exact hcancelled

/-! ### Traffic of links -/

/-- The packet sent on with the hop count of its header, or that of local clients. -/
def Rehopped (s : Actor F) (raw : Bytes) (header : PacketHeader) (interfaceId : ℕ) (sent : Bytes) :
    Prop :=
  ∃ exempt, sent = raw.set 1 (s.relayedHops header interfaceId exempt)

/-- A link was used. -/
def Used (s : Actor F) (m : Moment F) (id : Octets 16) (entry : LinkEntry F) : Prop :=
  ∃ before, s.linkTable.get id = some before ∧ entry = { before with timestamp := m.now }

theorem sendToInterface_brings {cause : Cause} {id : ℕ} (hcause : cause ≠ .pathRequest)
    (hraw : g.packets cause raw) : Brings g s (s.sendToInterface cause id raw).2 :=
  (sendToInterface_quiet hcause).brings fun _ _ h => h.1 ▸ h.2 ▸ hraw

theorem relayLinkPacket_brings {target : ℕ} {hops : UInt8} (hraw : g.packets .relay (raw.set 1 hops))
    (hused : ∀ id entry, s.Used m id entry → g.links id entry) :
    Brings g s (s.relayLinkPacket m raw header target hops) := by
  have htouched : Brings g s { s with
      linkTable := s.linkTable.modify header.destinationHash fun entry =>
        { entry with timestamp := m.now } } := by
    refine ⟨{ Gains.refl _ s with links := fun id entry he => ?_ }, { Steady.refl s with }⟩
    rw [LinkTable.get_modify] at he
    split_ifs at he
    · obtain ⟨before, hget, rfl⟩ := map_eq_some_iff.mp he
      exact .inr (hused id _ ⟨before, hget, rfl⟩)
    · exact .inl he
  unfold relayLinkPacket
  dsimp only
  split
  · exact htouched.trans (sendToInterface_brings (by decide) hraw)
  split
  · exact .refl g s
  split
  next packetHashlist _ =>
    have hlisted : Brings g s { s with
        packetHashlist
        linkTable := s.linkTable.modify header.destinationHash fun entry =>
          { entry with timestamp := m.now } } :=
      htouched.trans ⟨{ Gains.refl g _ with }, { Steady.refl _ with }⟩
    exact hlisted.trans (sendToInterface_brings (by decide) hraw)
  · exact .refl g s

/-- What a packet of a link can do. -/
theorem routeLinkPacket_brings
    (hraw : ∀ sent, s.Rehopped raw header interfaceId sent → g.packets .relay sent)
    (hused : ∀ id entry, s.Used m id entry → g.links id entry) :
    Brings g s (s.routeLinkPacketViaLinkTable m raw header interfaceId).2 := by
  unfold routeLinkPacketViaLinkTable
  split
  · exact .refl g s
  split
  · exact .refl g s
  split
  · exact .refl g s
  split
  · exact .refl g s
  dsimp only
  split
  · exact .refl g s
  split
  · exact .refl g s
  · exact .refl g s
  · exact relayLinkPacket_brings (hraw _ ⟨_, rfl⟩) hused

/-! ### Link requests -/

/-- What a link request may bring in. -/
def requestGain (s : Actor F) (m : Moment F) (raw : Bytes) (header : PacketHeader)
    (interfaceId : ℕ) : Gain F where
  packets cause sent := cause = .forward ∧ ∃ plan,
    s.planLinkRequest m raw header interfaceId = some plan ∧ sent = plan.forwarded
  links id entry := ∃ plan, s.planLinkRequest m raw header interfaceId = some plan ∧
    id = plan.linkId ∧ entry = plan.entry
  paths := s.Touched m

/-- What a link request can do. -/
theorem processLinkRequest_brings :
    Brings (s.requestGain m raw header interfaceId) s
      (s.processLinkRequest m raw header interfaceId) := by
  unfold processLinkRequest
  split
  · exact (deliver_quiet (fun _ _ => False) s).brings fun _ _ h => h.elim
  split
  · exact .refl _ s
  next plan hplan =>
    have hquiet : Quiet (fun c r => c = .forward ∧ r = plan.forwarded) s
        (s.sendToInterface .forward plan.target plan.forwarded).2 :=
      sendToInterface_quiet (by decide)
    rcases hsend : s.sendToInterface .forward plan.target plan.forwarded with ⟨sent, s'⟩
    rw [hsend] at hquiet
    have hsent : Brings (s.requestGain m raw header interfaceId) s s' :=
      hquiet.brings fun _ _ h => ⟨h.1, plan, hplan, h.2⟩
    cases sent with
    | false => exact hsent
    | true =>
      have htouched : Brings (s.requestGain m raw header interfaceId) s' { s' with
          pathTable := s'.pathTable.touchLive m.now header.destinationHash } := by
        refine touchLive_brings fun destHash path hp => ?_
        obtain ⟨before, hget, rfl⟩ := hp
        exact ⟨before, hquiet.calm.paths hget, rfl⟩
      refine (hsent.trans htouched).trans
        ⟨{ Gains.refl _ _ with links := fun id entry he => ?_ }, { Steady.refl _ with }⟩
      dsimp only at he
      rw [LinkTable.get_insert] at he
      split_ifs at he with hid
      · exact .inr ⟨plan, hplan, hid, (some.inj he).symm⟩
      · exact .inl he

/-! ### Proofs -/

/-- A link was validated by a link proof. -/
def Validated (s : Actor F) (raw : Bytes) (header : PacketHeader) (interfaceId : ℕ)
    (id : Octets 16) (entry : LinkEntry F) : Prop :=
  header.context = .lrproof ∧ id = header.destinationHash ∧ ∃ before,
    s.linkTable.get id = some before ∧ header.hops = before.remainingHops ∧
    interfaceId = before.interfaceId ∧ s.validateTransitLrproof raw header before = .valid ∧
    entry = { before with validated := true, acceptedMtuCeiling := proofMtu raw header }

/-- What a proof may bring in. -/
def proofGain (s : Actor F) (m : Moment F) (raw : Bytes) (header : PacketHeader)
    (interfaceId : ℕ) : Gain F where
  packets cause sent := (cause = .relay ∨ cause = .forward) ∧ s.Rehopped raw header interfaceId sent
  links id entry := s.Used m id entry ∨ s.Validated raw header interfaceId id entry

variable {plan : ProofPlan F}

omit [Hkdf] [DecidableEq F] in
theorem of_claimLinkProof (h : s.claimLinkProof m raw header interfaceId = some (some plan)) :
    s.linkTable.get header.destinationHash = some plan.entry ∧
      header.hops = plan.entry.remainingHops ∧ interfaceId = plan.entry.interfaceId ∧
      s.validateTransitLrproof raw header plan.entry = .valid ∧
      packetHash raw header.flags.headerType = some plan.hash ∧
      plan.forwarded = raw.set 1 (s.relayedHops header interfaceId (s.isInstanceLocal plan.entry)) := by
  unfold claimLinkProof at h
  split at h
  · cases h
  next entry hentry =>
    split at h
    · cases h
    split at h
    · cases h
    split at h
    next hmatch =>
      split at h
      next hash hvalid hhash =>
        obtain rfl := some.inj (some.inj h)
        exact ⟨hentry, hmatch.1, hmatch.2, hvalid, hhash, rfl⟩
      · cases h
    · cases h

theorem relayLinkProof_brings (hcontext : header.context = .lrproof)
    (h : s.claimLinkProof m raw header interfaceId = some (some plan)) :
    Brings (s.proofGain m raw header interfaceId) s (s.relayLinkProof m raw header plan) := by
  obtain ⟨hentry, hhops, hinterface, hvalid, -, hforwarded⟩ := of_claimLinkProof h
  unfold relayLinkProof
  split
  · exact .refl _ s
  next packetHashlist _ =>
    have hquiet : Quiet (fun c r => c = .relay ∧ r = plan.forwarded) { s with packetHashlist }
        (Actor.sendToInterface { s with packetHashlist } .relay plan.entry.receivingInterface
          plan.forwarded).2 := sendToInterface_quiet (by decide)
    rcases hsend : Actor.sendToInterface { s with packetHashlist } .relay
      plan.entry.receivingInterface plan.forwarded with ⟨sent, s'⟩
    rw [hsend] at hquiet
    have hlisted : Brings (s.proofGain m raw header interfaceId) s { s with packetHashlist } :=
      ⟨{ Gains.refl _ s with }, { Steady.refl s with }⟩
    have hsent := hlisted.trans
      (hquiet.brings fun _ _ h => ⟨.inl h.1, _, h.2.trans hforwarded⟩)
    cases sent with
    | false => exact hsent
    | true =>
      have hvalidated : Brings (s.proofGain m raw header interfaceId) s' { s' with
          linkTable := s'.linkTable.modify header.destinationHash fun entry =>
            { entry with validated := true, acceptedMtuCeiling := proofMtu raw header } } := by
        refine ⟨{ Gains.refl _ s' with links := fun id entry he => ?_ }, { Steady.refl s' with }⟩
        rw [LinkTable.get_modify] at he
        split_ifs at he with hid
        · obtain ⟨before, hget, rfl⟩ := map_eq_some_iff.mp he
          have hbefore : s.linkTable.get id = some before := hquiet.calm.links hget
          obtain rfl := some.inj (hentry.symm.trans (hid ▸ hbefore))
          exact .inr (.inr ⟨hcontext, hid, _, hbefore, hhops, hinterface, hvalid, rfl⟩)
        · exact .inl he
      dsimp only
      split
      · exact hsent.trans hvalidated
      · exact (hsent.trans hvalidated).trans (useDestination_brings _)

theorem processLinkProof_brings (hcontext : header.context = .lrproof) :
    Brings (s.proofGain m raw header interfaceId) s
      (s.processLinkProof m raw header interfaceId) := by
  have hdelivered : Brings (s.proofGain m raw header interfaceId) s
      (s.deliver header.destinationHash (s.inboundEvent raw interfaceId)).2 :=
    (deliver_quiet (fun _ _ => False) s).brings fun _ _ h => h.elim
  unfold processLinkProof
  split
  · split
    · exact hdelivered
    · exact .refl _ s
  split
  · exact .refl _ s
  next plan hplan => exact relayLinkProof_brings hcontext hplan
  · rcases hdeliver : s.deliver header.destinationHash (s.inboundEvent raw interfaceId) with
      ⟨taken, s'⟩
    rw [hdeliver] at hdelivered
    have hnoted : Brings (s.proofGain m raw header interfaceId) s' (s'.listHash raw header) := by
      unfold listHash
      split
      · exact .refl _ s'
      · exact ⟨{ Gains.refl _ _ with }, { Steady.refl _ with }⟩
    split
    next heq =>
      obtain ⟨-, rfl⟩ := Prod.mk.inj heq
      exact hdelivered.trans hnoted
    next heq =>
      obtain ⟨-, rfl⟩ := Prod.mk.inj heq
      exact hdelivered

omit [Sha256] [Hkdf] [DecidableEq F] [Binary64 F] in
theorem processReceiptProof_brings (g : Gain F) : Brings g s (s.processReceiptProof m raw header) := by
  have hquiet : Quiet (fun _ _ => False) s (s.processReceiptProof m raw header) := by
    unfold processReceiptProof
    rcases s.receipts.processProof m.instant s.knownKey header.destinationHash
      (raw.drop header.size) with ⟨receipts, proof⟩
    have hreceipts : Quiet (fun _ _ => False) s { s with receipts } :=
      ⟨{ Calm.refl _ s with }, { Steady.refl s with }⟩
    dsimp only
    split
    · exact hreceipts
    split
    · exact hreceipts.trans ⟨{ Calm.refl _ _ with }, { Steady.refl _ with }⟩
    · exact hreceipts.trans (Quiet.foldl (fun s _ => deliver_quiet _ s) _ _)
  exact hquiet.brings fun _ _ h => h.elim

theorem routeProof_brings
    (hraw : ∀ sent, s.Rehopped raw header interfaceId sent → g.packets .forward sent) :
    Brings g s (s.routeProof raw header interfaceId).2 := by
  unfold routeProof
  dsimp only
  split
  · exact .refl _ s
  split
  · exact .refl _ s
  next entry _ =>
    have hremoved (reverseTable : Table (Octets 16) (ReverseEntry F)) :
        Brings g s { s with reverseTable } :=
      ⟨{ Gains.refl g s with }, { Steady.refl s with }⟩
    split
    · exact hremoved _
    · exact (hremoved _).trans (sendToInterface_brings (by decide) (hraw _ ⟨_, rfl⟩))

/-- A packet that no link claims leaves the node as it is. -/
theorem routeLinkPacket_unclaimed
    (h : s.routeLinkPacketViaLinkTable m raw header interfaceId = (false, s')) : s' = s := by
  unfold routeLinkPacketViaLinkTable at h
  dsimp only at h
  repeat' split at h
  all_goals first
    | exact (Prod.mk.inj h).2.symm
    | cases (Prod.mk.inj h).1

/-- A property of what the parts of `process_proof` leave is one of what it leaves. -/
theorem processProof_induction {P : Actor F → Prop} (hsame : P s)
    (hlink : header.context = .lrproof → P (s.processLinkProof m raw header interfaceId))
    (hreceipt : P (s.processReceiptProof m raw header))
    (hrouted : header.context ≠ .lrproof →
      s.receipts.receiptTable.contains header.destinationHash = false →
      P (s.routeLinkPacketViaLinkTable m raw header interfaceId).2)
    (hreturned : P (s.routeProof raw header interfaceId).2)
    (hdelivered : ∀ s' key event, P s' → P (s'.deliver key event).2) :
    P (s.processProof m raw header interfaceId) := by
  unfold processProof
  split
  next hcontext => exact hlink hcontext
  next hcontext =>
  split
  · split
    · exact hsame
    · exact hreceipt
  next hunclaimed =>
  have hrouted := hrouted hcontext (Bool.eq_false_iff.mpr hunclaimed)
  rcases hroute : s.routeLinkPacketViaLinkTable m raw header interfaceId with ⟨claimed, s'⟩
  rw [hroute] at hrouted
  cases claimed with
  | true => exact hrouted
  | false =>
    obtain rfl := routeLinkPacket_unclaimed hroute
    dsimp only
    rcases hreturn : s'.routeProof raw header interfaceId with ⟨returned, s''⟩
    rw [hreturn] at hreturned
    cases returned with
    | true => exact hreturned
    | false => exact hdelivered s'' _ _ hreturned

/-- What a proof can do. -/
theorem processProof_brings :
    Brings (s.proofGain m raw header interfaceId) s (s.processProof m raw header interfaceId) := by
  refine processProof_induction (.refl _ s) processLinkProof_brings (processReceiptProof_brings _)
    ?_ ?_ fun s' key event h => ?_
  · intro _ _
    exact routeLinkPacket_brings (fun sent h => ⟨.inl rfl, h⟩) fun id entry h => .inl h
  · exact routeProof_brings fun sent h => ⟨.inr rfl, h⟩
  · exact h.trans ((deliver_quiet (fun _ _ => False) _).brings fun _ _ h => h.elim)

/-! ### Data -/

/-- The packets that a data packet may bring in where no link claims it. -/
def UnclaimedPacket (s : Actor F) (m : Moment F) (raw : Bytes) (header : PacketHeader) (cause : Cause)
    (sent : Bytes) : Prop :=
  cause = .forward ∧ (∃ fromLocalClient forLocalClient toLocalClient target,
    (s.forwarding m.now).transportForwardCandidate raw header fromLocalClient forLocalClient
      toLocalClient = some (target, sent)) ∨
  s.PathResponse cause sent ∨ PathRequest cause sent ∨
  header.context = .cacheRequest ∧ cause = .announce ∧ ∃ hash : Octets 32,
    dataPayload raw header = some hash.1 ∧ s.cached hash = some sent

/-- What a data packet may bring in, but for what local clients share. -/
def dataGain (s : Actor F) (m : Moment F) (raw : Bytes) (header : PacketHeader)
    (interfaceId : ℕ) : Gain F where
  packets cause sent :=
    cause = .relay ∧ s.Rehopped raw header interfaceId sent ∨
    s.UnclaimedPacket m raw header cause sent
  links := s.Used m
  paths destHash path := s.Touched m destHash path ∨ s.Restored destHash path

omit [Hkdf] [DecidableEq F] in
theorem processTunnelSynthesis_brings
    (hpaths : ∀ destHash path, s.Restored destHash path → g.paths destHash path) :
    Brings g s (s.processTunnelSynthesis m raw header interfaceId) := by
  unfold processTunnelSynthesis
  split
  · exact .refl _ s
  next synthesis _ =>
    have hhandled (tunnelId : Octets 32) : Brings g s
        { s with tunnelTable := s.tunnelTable.handleTunnel m.now tunnelId interfaceId } :=
      ⟨{ Gains.refl _ _ with tunnels := fun _ _ hp => .inl (handleTunnel_knows hp) },
        { Steady.refl _ with }⟩
    refine (hhandled synthesis.tunnelId).trans ?_
    unfold restoreTunnelPaths
    dsimp only
    split
    · exact .refl _ _
    next tunnel htunnel =>
      refine .foldl _ (fun s' e he => restoreTunnelPath_brings fun path hhops hhash => ?_) _
      exact hpaths _ _
        ⟨e.2, handleTunnel_knows ⟨_, tunnel, htunnel, mem_toList.mp he⟩, hhops, hhash⟩

variable {fromLocalClient forLocalClient toLocalClient : Bool}

theorem forwardData_brings
    (hforward : ∀ fromLocalClient forLocalClient toLocalClient target sent,
      (s.forwarding m.now).transportForwardCandidate raw header fromLocalClient forLocalClient
        toLocalClient = some (target, sent) → g.packets .forward sent)
    (hpaths : ∀ destHash path, s.Touched m destHash path → g.paths destHash path) :
    Brings g s (s.forwardData m raw header interfaceId fromLocalClient forLocalClient
      toLocalClient) := by
  unfold forwardData
  split
  next target forwarded hash hcandidate _ =>
    have hreverse (reverseTable : Table (Octets 16) (ReverseEntry F)) :
        Quiet (fun c r => c = .forward ∧ r = forwarded) s { s with reverseTable } :=
      ⟨{ Calm.refl _ _ with }, { Steady.refl _ with }⟩
    have hquiet (reverseTable : Table (Octets 16) (ReverseEntry F)) :
        Quiet (fun c r => c = .forward ∧ r = forwarded) s
          (Actor.sendToInterface { s with reverseTable } .forward target forwarded).2 :=
      (hreverse reverseTable).trans (sendToInterface_quiet (by decide))
    refine ((hquiet _).brings fun cause sent h => ?_).trans
      (touchLive_brings fun destHash path hp => ?_)
    · obtain ⟨rfl, rfl⟩ := h
      exact hforward _ _ _ _ _ hcandidate
    · obtain ⟨before, hget, rfl⟩ := hp
      exact hpaths destHash _ ⟨before, (hquiet _).calm.paths hget, rfl⟩
  · exact .refl _ s

/-- What a data packet can do, but for what local clients share, where it is known what its link and
the cache can do with it. -/
theorem routeData_gains_of
    (hrouted : Gains g s (s.routeLinkPacketViaLinkTable m raw header interfaceId).2)
    (hreplayed : header.context = .cacheRequest → Gains g s (s.handleCacheRequest m raw header))
    (hforward : ∀ fromLocalClient forLocalClient toLocalClient target sent,
      (s.forwarding m.now).transportForwardCandidate raw header fromLocalClient forLocalClient
        toLocalClient = some (target, sent) → g.packets .forward sent)
    (hanswer : ∀ cause sent, s.PathResponse cause sent ∨ PathRequest cause sent →
      g.packets cause sent)
    (hpaths : ∀ destHash path, s.Touched m destHash path ∨ s.Restored destHash path →
      g.paths destHash path) :
    Gains g s (s.routeData m raw header interfaceId fromLocalClient forLocalClient
      toLocalClient) := by
  unfold routeData
  rcases hroute : s.routeLinkPacketViaLinkTable m raw header interfaceId with ⟨claimed, s'⟩
  rw [hroute] at hrouted
  cases claimed with
  | true => exact hrouted
  | false =>
    obtain rfl := routeLinkPacket_unclaimed hroute
    dsimp only
    split
    · split
      · exact .refl _ s'
      · exact handleInboundPathRequest_calm.gains hanswer
    split
    · exact (processTunnelSynthesis_brings fun destHash path h =>
        hpaths destHash path (.inr h)).gains
    split
    next hcontext => exact hreplayed hcontext
    split
    · exact (deliver_calm fun _ _ => False).gains fun _ _ h => h.elim
    · exact (forwardData_brings hforward fun destHash path h => hpaths destHash path (.inl h)).gains

/-- What a data packet can do, but for what local clients share. -/
theorem routeData_gains :
    Gains (s.dataGain m raw header interfaceId) s (s.routeData m raw header interfaceId
      fromLocalClient forLocalClient toLocalClient) :=
  routeData_gains_of
    (Brings.gains (routeLinkPacket_brings (fun _ h => .inl ⟨rfl, h⟩) fun _ _ h => h))
    (fun hcontext => handleCacheRequest_quiet.calm.gains fun _ _ h =>
      .inr (.inr (.inr (.inr ⟨hcontext, h⟩))))
    (fun _ _ _ _ _ h => .inr (.inl ⟨rfl, _, _, _, _, h⟩))
    (fun _ _ h => .inr (.inr (h.imp_right .inl))) fun _ _ h => h

/-- What local clients share neither learns nor opens anything. -/
theorem shareBroadcast_quiet :
    Quiet (fun c _ => c = .forward) s (s.shareBroadcast raw header interfaceId) := by
  unfold shareBroadcast
  dsimp only
  split
  · split
    · exact .foldl (fun _ _ => (sendToInterface_quiet (by decide)).mono fun _ _ h => h.1) _ _
    · exact .foldl (fun _ _ => (sendToInterface_quiet (by decide)).mono fun _ _ h => h.1) _ _
  · exact .refl _ s

/-- What a data packet can do, after what local clients share. -/
theorem processData_shares (s : Actor F) (m : Moment F) (raw : Bytes) (header : PacketHeader)
    (interfaceId : ℕ) :
    ∃ shared, Calm (fun c _ => c = .forward) s shared ∧
      Gains (shared.dataGain m raw header interfaceId) shared
        (s.processData m raw header interfaceId) :=
  ⟨_, shareBroadcast_quiet.calm, routeData_gains⟩

/-! ### Nodes without local clients -/

namespace Bare

omit [Sha256] [Ed25519] [Hkdf] [DecidableEq F] [Binary64 F]

theorem hasRole_eq_false {role : InterfaceRole} {id : ℕ}
    (h : ∀ entry, s.interfaces.get id = some entry → entry.role ≠ role) :
    s.hasRole id role = false := by
  unfold hasRole
  cases hget : s.interfaces.get id with
  | none => rfl
  | some entry => simpa using h entry hget

theorem not_isLocalClientInterface (hs : s.Bare) (id : ℕ) : s.isLocalClientInterface id = false :=
  hasRole_eq_false fun entry he => (hs.role id entry he).1

theorem not_isSharedInstancePeerInterface (hs : s.Bare) (id : ℕ) :
    s.isSharedInstancePeerInterface id = false :=
  hasRole_eq_false fun entry he => (hs.role id entry he).2

theorem not_hasLocalClientInterfaces (hs : s.Bare) : s.hasLocalClientInterfaces = false := by
  refine List.any_eq_false.mpr fun entry he => ?_
  obtain ⟨id, hget⟩ := mem_values.mp he
  simpa using (hs.role id entry hget).1

theorem localClientInterfaceIdsExcept_eq_nil (hs : s.Bare) (except : Option ℕ) :
    s.localClientInterfaceIdsExcept except = [] := by
  rw [localClientInterfaceIdsExcept, List.map_eq_nil_iff, List.filter_eq_nil_iff]
  rintro ⟨id, entry⟩ he
  simpa using fun _ => (hs.role id entry (mem_toList.mp he)).1

theorem adjustedInboundHops_eq (hs : s.Bare) (rawHops : UInt8) (interfaceId : ℕ) :
    s.adjustedInboundHops rawHops interfaceId = if rawHops = 255 then 255 else rawHops + 1 := by
  simp [adjustedInboundHops, hs.not_hasLocalClientInterfaces, hs.not_isSharedInstancePeerInterface]

theorem relayedHops_eq (hs : s.Bare) (header : PacketHeader) (interfaceId : ℕ) (exempt : Bool) :
    s.relayedHops header interfaceId exempt = header.hops := by
  simp [relayedHops, hs.not_isLocalClientInterface]

end Bare

/-- Without local clients nothing is shared with them. -/
theorem Bare.processData_eq (hs : s.Bare) (m : Moment F) (raw : Bytes) (header : PacketHeader)
    (interfaceId : ℕ) :
    s.processData m raw header interfaceId = s.routeData m raw header interfaceId
      (s.isLocalClientInterface interfaceId) (s.isForLocalClient m header.destinationHash)
      (s.isForLocalClient m header.destinationHash ||
        s.isProofForLocalClient header.destinationHash) := by
  have hshared : s.shareBroadcast raw header interfaceId = s := by
    simp [shareBroadcast, hs.not_isLocalClientInterface, hs.localClientInterfaceIdsExcept_eq_nil]
  rw [processData, hshared]

/-- What a data packet can do, on a node without local clients. -/
theorem processData_gains (hs : s.Bare) : Gains (s.dataGain m raw header interfaceId) s
      (s.processData m raw header interfaceId) := by
  rw [hs.processData_eq]
  exact routeData_gains

/-! ### Received packets -/

omit [Ed25519] [Hkdf] [DecidableEq F] [Binary64 F] in
theorem admitHash_eq (h : s.admitHash raw header = some s') :
    ∃ packetHashlist, s' = { s with packetHashlist } := by
  unfold admitHash at h
  split at h
  · exact ⟨s.packetHashlist, (some.inj h).symm⟩
  split at h
  · cases h
  split at h
  · exact ⟨_, (some.inj h).symm⟩
  split at h
  · exact ⟨s.packetHashlist, (some.inj h).symm⟩
  · cases h

/-- The header of a received packet with the hops it has for the node. -/
def arrived (s : Actor F) (header : PacketHeader) (interfaceId : ℕ) : PacketHeader :=
  { header with hops := s.adjustedInboundHops header.hops interfaceId }

/-- A received packet is dropped, or its hash is listed where that is due and it is dispatched. -/
theorem onClear_cases (s : Actor F) (m : Moment F) (raw : Bytes) (interfaceId : ℕ) :
    s.onClear m raw interfaceId = s ∨ ∃ header dataOffset packetHashlist,
      PacketHeader.unpack raw = .ok (header, dataOffset) ∧
      s.filtersPacket header (raw.drop dataOffset) interfaceId = false ∧
      s.admitHash raw header = some { s with packetHashlist } ∧
      s.onClear m raw interfaceId = Actor.dispatch { s with packetHashlist } m raw
        (s.arrived header interfaceId) dataOffset interfaceId := by
  unfold onClear
  split
  · exact .inl rfl
  next header dataOffset hunpack =>
    split
    · exact .inl rfl
    next hfilter =>
      split
      · exact .inl rfl
      next s' hadmitted =>
        obtain ⟨packetHashlist, rfl⟩ := admitHash_eq hadmitted
        exact .inr ⟨header, dataOffset, packetHashlist, hunpack, Bool.eq_false_iff.mpr hfilter,
          hadmitted, rfl⟩

end

end Actor

end Reticulum.Transport
