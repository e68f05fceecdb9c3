import Reticulum.Transport.TransitLinks

/-!
# Paths restored from a tunnel

When a tunnel reappears, `restore_tunnel_paths` of `actor/outbound.rs` puts the paths that were
learned over it back into the path table. Whether a cached path has expired is only asked where the
table has no path to its destination. Where it has one, hops and timebases are compared, and an
expired path of the tunnel may take the place of a live one.

## Main definitions

* `TunnelPath.supersedes`, `TunnelPath.route` — whether a cached path is installed, and as what.
* `NeverDegrades` — what a change of the path table should not do to routing.

## Main results

* `get_restoreTunnelPaths` — the path to each destination afterwards.
* `neverDegrades_restoreTunnelPaths_iff` — when the restoration of a tunnel degrades nothing.
-/

namespace Reticulum.Transport

open Binary64 Octets TunnelPath Option

section

variable {F : Type} [Binary64 F]

/-! ### One destination -/

namespace TunnelPath

variable (path : TunnelPath F)

/-- Whether a cached path is installed where the table has an entry, or none. -/
def supersedes (now : F) : Option (RouteEntry F) → Bool
  | some existing =>
    (decide (path.hops ≤ existing.hops) || lt existing.expires now) &&
      decide (pathTimebaseFromRandomBlobs existing.randomBlobs ≤
        pathTimebaseFromRandomBlobs path.randomBlobs)
  | none => lt now path.expires

/-- The entry that a cached path becomes. -/
def route (now : F) (interfaceId : ℕ) : RouteEntry F where
  timestamp := now
  nextHop := path.nextHop
  hops := path.hops
  expires := path.expires
  randomBlobs := path.randomBlobs
  interfaceId
  packetHash := path.packetHash

/-- The path to a destination after its cached path was considered. -/
def settle (now : F) (interfaceId : ℕ) (existing : Option (RouteEntry F)) :
    Option (RouteEntry F) :=
  if path.supersedes now existing then some (path.route now interfaceId) else existing

variable {path} {now : F} {interfaceId : ℕ} {existing : Option (RouteEntry F)} {e : RouteEntry F}

/-- A path that was not there before is the cached one. -/
theorem of_settle_ne (h : path.settle now interfaceId existing = some e) (hne : existing ≠ some e) :
    path.supersedes now existing ∧ path.route now interfaceId = e := by
  unfold settle at h
  split_ifs at h with hsupersedes
  · exact ⟨hsupersedes, some.inj h⟩
  · exact absurd h hne

/-- What takes the place of an unexpired path is no longer and no older. -/
theorem le_of_supersedes (h : path.supersedes now (some e)) (hlive : e.isExpired now = false) :
    path.hops ≤ e.hops ∧ pathTimebaseFromRandomBlobs e.randomBlobs ≤
      pathTimebaseFromRandomBlobs path.randomBlobs := by
  rw [RouteEntry.isExpired] at hlive
  simpa [supersedes, hlive] using h

end TunnelPath

variable {e : RouteEntry F} {d : Octets 16}

namespace Actor

variable (s : Actor F) (m : Moment F) (tunnelId : Octets 32) (interfaceId : ℕ) (destHash : Octets 16)

theorem restoresTunnelPath_eq (path : TunnelPath F) :
    s.restoresTunnelPath m destHash path = path.supersedes m.now (s.pathTable.get destHash) := by
  unfold restoresTunnelPath supersedes
  cases s.pathTable.get destHash <;> rfl

theorem pathTable_restoreTunnelPath (e : Octets 16 × TunnelPath F) :
    (s.restoreTunnelPath m tunnelId interfaceId e).pathTable =
      if e.2.supersedes m.now (s.pathTable.get e.1) then
        s.pathTable.insert e.1 (e.2.route m.now interfaceId)
      else s.pathTable := by
  rw [restoreTunnelPath, restoresTunnelPath_eq]
  split_ifs <;> rfl

/-! ### The whole tunnel -/

/-- The path that a tunnel has to a destination. -/
def cachedPath (destHash : Octets 16) : Option (TunnelPath F) :=
  (s.tunnelTable.entries.get tunnelId).bind fun tunnel => tunnel.tunnelPaths.get destHash

/-- The path to a destination depends on the path before and on the cached one. -/
theorem get_restoreTunnelPaths :
    (s.restoreTunnelPaths m tunnelId interfaceId).pathTable.get destHash =
      (s.cachedPath tunnelId destHash).elim (s.pathTable.get destHash) fun path =>
        path.settle m.now interfaceId (s.pathTable.get destHash) := by
  unfold restoreTunnelPaths cachedPath
  cases s.tunnelTable.entries.get tunnelId with
  | none => rfl
  | some tunnel =>
    simp only [bind_some]
    refine Table.foldl_toList_apart (g := fun s d => s.pathTable.get d)
      (h := fun _ path => path.settle m.now interfaceId) (fun s e d hd => ?_) (fun s e => ?_)
      tunnel.tunnelPaths s destHash
    · simp only [pathTable_restoreTunnelPath]
      split_ifs
      · exact Table.get_insert_ne hd
      · rfl
    · simp only [pathTable_restoreTunnelPath]
      unfold settle
      split_ifs
      · exact Table.get_insert_self
      · rfl

variable {s}

/-- No destination loses its path. -/
theorem exists_restored (he : s.pathTable.get d = some e) :
    ∃ e', (s.restoreTunnelPaths m tunnelId interfaceId).pathTable.get d = some e' := by
  rw [get_restoreTunnelPaths, he]
  cases s.cachedPath tunnelId d with
  | none => exact ⟨e, rfl⟩
  | some path =>
    simp only [elim_some, settle]
    split_ifs
    · exact ⟨_, rfl⟩
    · exact ⟨e, rfl⟩

variable {m tunnelId interfaceId}

/-- A path that is new in the table was cached by the tunnel, and passed the test. -/
theorem exists_of_restored
    (hafter : (s.restoreTunnelPaths m tunnelId interfaceId).pathTable.get d = some e)
    (hne : s.pathTable.get d ≠ some e) :
    ∃ path : TunnelPath F, s.cachedPath tunnelId d = some path ∧
      path.supersedes m.now (s.pathTable.get d) ∧ path.route m.now interfaceId = e := by
  rw [get_restoreTunnelPaths] at hafter
  cases hpath : s.cachedPath tunnelId d with
  | none =>
    rw [hpath] at hafter
    exact absurd hafter hne
  | some path =>
    rw [hpath] at hafter
    exact ⟨path, rfl, of_settle_ne hafter hne⟩

/-- No path is new and expired, if no expired path of the tunnel passes the test of hops and timebase
against another path. -/
theorem isExpired_of_restored (hlt : StrictOrder F)
    (h : ∀ d path existing, s.cachedPath tunnelId d = some path →
      s.pathTable.get d = some existing → s.restoresTunnelPath m d path →
      lt path.expires m.now → path.route m.now interfaceId = existing)
    (hafter : (s.restoreTunnelPaths m tunnelId interfaceId).pathTable.get d = some e)
    (hne : s.pathTable.get d ≠ some e) : e.isExpired m.now = false := by
  obtain ⟨path, hpath, hsupersedes, rfl⟩ := exists_of_restored hafter hne
  cases hexisting : s.pathTable.get d with
  | none =>
    rw [hexisting] at hsupersedes
    exact hlt.asymm hsupersedes
  | some existing =>
    refine Bool.eq_false_of_not_eq_true fun hexpired => hne ?_
    rw [← restoresTunnelPath_eq] at hsupersedes
    rw [hexisting, h d path existing hpath hexisting hsupersedes hexpired]

end Actor

/-! ### Routing that does not get worse -/

/-- What a change of the path table should not do: install a path that has expired, replace a live
path by a longer or older one, or leave a destination without a live path that had one. -/
structure NeverDegrades (now : F) (before after : PathTable F) : Prop where
  unexpired : ∀ d e, after.get d = some e → before.get d ≠ some e → e.isExpired now = false
  noWorse : ∀ d e e', before.getLive now d = some e → after.get d = some e' → e' ≠ e →
    e'.hops ≤ e.hops ∧ pathTimebaseFromRandomBlobs e.randomBlobs ≤
      pathTimebaseFromRandomBlobs e'.randomBlobs
  live : ∀ d, (before.getLive now d).isSome → (after.getLive now d).isSome

theorem PathTable.getLive_eq_some {t : PathTable F} {now : F} :
    t.getLive now d = some e ↔ t.get d = some e ∧ e.isExpired now = false := by
  rw [getLive, filter_eq_some_iff, Bool.not_eq_true', get]

open Actor in
/-- A tunnel is restored without harm if and only if none of its expired paths passes the test of
hops and timebase against another path in the table. -/
theorem neverDegrades_restoreTunnelPaths_iff (hlt : StrictOrder F) (s : Actor F)
    (m : Moment F) (tunnelId : Octets 32) (interfaceId : ℕ) :
    NeverDegrades m.now s.pathTable (s.restoreTunnelPaths m tunnelId interfaceId).pathTable ↔
      ∀ d path existing, s.cachedPath tunnelId d = some path →
        s.pathTable.get d = some existing → s.restoresTunnelPath m d path →
        lt path.expires m.now → path.route m.now interfaceId = existing := by
  constructor
  · intro h d path existing hpath hexisting hrestores hexpired
    by_contra hne
    have hafter : (s.restoreTunnelPaths m tunnelId interfaceId).pathTable.get d =
        some (path.route m.now interfaceId) := by
      rw [get_restoreTunnelPaths, hpath]
      rw [restoresTunnelPath_eq] at hrestores
      exact if_pos hrestores
    have hunexpired := h.unexpired d _ hafter fun heq =>
      hne (some.inj (heq.symm.trans hexisting))
    exact Bool.false_ne_true (hunexpired.symm.trans hexpired)
  · intro h
    refine ⟨fun d e => isExpired_of_restored hlt h, fun d e e' hlive hafter hne => ?_,
      fun d hlive => ?_⟩
    · obtain ⟨hget, hunexpired⟩ := PathTable.getLive_eq_some.mp hlive
      obtain ⟨path, -, hsupersedes, rfl⟩ := exists_of_restored hafter fun heq =>
        hne (some.inj (heq.symm.trans hget))
      exact le_of_supersedes (hget ▸ hsupersedes) hunexpired
    · obtain ⟨e, he⟩ := isSome_iff_exists.mp hlive
      obtain ⟨hget, hunexpired⟩ := PathTable.getLive_eq_some.mp he
      obtain ⟨e', hafter⟩ := exists_restored m tunnelId interfaceId hget
      refine isSome_iff_exists.mpr ⟨e', PathTable.getLive_eq_some.mpr ⟨hafter, ?_⟩⟩
      by_cases hsame : s.pathTable.get d = some e'
      · rwa [← some.inj (hget.symm.trans hsame)]
      · exact isExpired_of_restored hlt h hafter hsame

end

namespace Session

/-- A path to the destination that is good for another 500 seconds. -/
def livePath : RouteEntry ℚ :=
  { RouteEntry.new 1700000000 none 2 1 .full with expires := 1700001000 }

/-- A node with this path that had a tunnel over its second interface, with a path learned over it
until some time. -/
def flapped (expires : ℚ) : Actor ℚ :=
  { node with
    pathTable := node.pathTable.insert destination livePath
    tunnelTable :=
      { entries := Table.insert ∅ (read 32 [])
          { interfaceId := none
            tunnelPaths := Table.insert ∅ destination ⟨1700000000, none, 1, expires, [], none⟩
            expires := 1700028800 }
        byInterface := ∅ } }

end Session

open Transport.Session in
/-- The node forgets its live path for a shorter one that has expired, and is left without any. -/
theorem expired_tunnel_path_replaces_live :
    ((flapped 1700000400).pathTable.getLive 1700000500 destination).isSome ∧
      (((flapped 1700000400).restoreTunnelPaths (moment 1700000500)
        (read 32 []) 2).pathTable.getLive 1700000500 destination).isSome = false ∧
      ¬ NeverDegrades 1700000500 (flapped 1700000400).pathTable
        ((flapped 1700000400).restoreTunnelPaths (moment 1700000500)
          (read 32 []) 2).pathTable := by
  have hbefore : ((flapped 1700000400).pathTable.getLive 1700000500 destination).isSome := by
    decide +kernel
  have hafter : (((flapped 1700000400).restoreTunnelPaths (moment 1700000500)
      (read 32 []) 2).pathTable.getLive 1700000500 destination).isSome = false := by
    decide +kernel
  exact ⟨hbefore, hafter, fun h => Bool.false_ne_true (hafter.symm.trans (h.live _ hbefore))⟩

open Transport.Session in
/-- With a path that has not expired the same tunnel is restored without harm, and its shorter path
is installed. -/
theorem neverDegrades_restoreTunnelPaths_unexpired :
    ((((flapped 1700000600).restoreTunnelPaths (moment 1700000500)
        (read 32 []) 2).pathTable.getLive 1700000500 destination).map (·.hops)) = some 1 ∧
      NeverDegrades 1700000500 (flapped 1700000600).pathTable
        ((flapped 1700000600).restoreTunnelPaths (moment 1700000500)
          (read 32 []) 2).pathTable := by
  refine ⟨by decide +kernel, (neverDegrades_restoreTunnelPaths_iff strictOrder_rat
    (flapped 1700000600) (moment 1700000500) (read 32 []) 2).mpr ?_⟩
  intro d path existing hpath _ _ hexpired
  have hcached : (flapped 1700000600).cachedPath (read 32 []) d =
      if d = destination then some ⟨1700000000, none, 1, 1700000600, [], none⟩ else none :=
    Table.get_insert
  rw [hcached] at hpath
  split_ifs at hpath
  obtain rfl := some.inj hpath
  exact absurd hexpired (by decide +kernel)

end Reticulum.Transport
