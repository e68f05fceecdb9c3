import Reticulum.Transport.TransitLinks

/-!
# Replayed announces

A path stores the random blobs of the announces that it was learned from, at most 64 of them; the
newest emission time among them is its timebase. While a path is neither expired nor marked
unresponsive, an announce moves it only if it was emitted after the timebase, so that no replay of
announces brings an old path back.

## Main definitions

* `Actor.ReceivesAnnounce` — the packet of an event is an announce.
* `Actor.Announces` — the packet of an event is an announce of a destination.
* `Actor.LivePath`, `Actor.StaysLive` — a path that can be used, now or throughout a run.
* `Replays` — an announce that is not newer than a path.

## Main results

* `Actor.announce_replay` — live paths move forward in time only, over every run of announces.
-/

namespace Reticulum.Transport

open Wire Option

variable {F : Type}

/-! ### The blobs of a path -/

variable {blobs : List (Octets 10)}

theorem length_pushRandomBlob_le (h : blobs.length ≤ maxRandomBlobs)
    (b : Octets 10) : (pushRandomBlob blobs b).length ≤ maxRandomBlobs := by
  unfold pushRandomBlob
  split_ifs with hmem hfull
  · exact h
  · rw [List.length_append, List.length_drop, List.length_singleton]
    unfold maxRandomBlobs at *
    omega
  · rw [List.length_append, List.length_singleton]
    omega

/-- A blob newer than all before it moves the timebase forward. -/
theorem lt_pathTimebase_push {b : Octets 10}
    (h : pathTimebaseFromRandomBlobs blobs < announceTimebase b) :
    pathTimebaseFromRandomBlobs blobs < pathTimebaseFromRandomBlobs (pushRandomBlob blobs b) := by
  have hnew : b ∉ blobs := fun hmem => absurd (le_pathTimebase hmem) (Nat.not_le.mpr h)
  rw [pushRandomBlob, if_neg hnew]
  split_ifs
  · rwa [pathTimebase_append_of_lt (List.drop_subset 1 blobs) h]
  · rwa [pathTimebase_append_of_lt (List.Subset.refl blobs) h]

/-- An announce with a random hash that the path holds, or that was emitted no later than the newest
one. -/
def Replays (path : RouteEntry F) (randomHash : Octets 10) : Prop :=
  randomHash ∈ path.randomBlobs ∨
    announceTimebase randomHash ≤ pathTimebaseFromRandomBlobs path.randomBlobs

namespace Actor

section

variable [Sha256] [Ed25519] [Hkdf] [DecidableEq F] [Binary64 F] {s : Actor F}

/-- The path of a destination that is neither expired nor unresponsive. -/
def LivePath (s : Actor F) (now : F) (destHash : Octets 16) (path : RouteEntry F) : Prop :=
  s.pathTable.get destHash = some path ∧ path.isExpired now = false ∧
    s.pathTable.getState destHash ≠ .unresponsive

/-- Whatever the packet of an event is, it is an announce. -/
def ReceivesAnnounce (s : Actor F) (e : Inbound F) : Prop :=
  ∀ raw header dataOffset, s.clearPacket .wire e.interfaceId e.raw = some raw →
    PacketHeader.unpack raw = .ok (header, dataOffset) → header.flags.packetType = .announce

/-- The packet of an event is an announce of a destination with a random hash. -/
def Announces (s : Actor F) (e : Inbound F) (destHash : Octets 16) (randomHash : Octets 10) : Prop :=
  ∃ raw header dataOffset announce, s.clearPacket .wire e.interfaceId e.raw = some raw ∧
    PacketHeader.unpack raw = .ok (header, dataOffset) ∧ header.flags.packetType = .announce ∧
    header.destinationHash = destHash ∧
    AnnounceData.unpack (raw.drop dataOffset) header.flags.contextFlag = .ok announce ∧
    announce.randomHash = randomHash

/-- A run of announces. -/
def AnnounceRun : Actor F → List (Inbound F) → Prop
  | _, [] => True
  | s, e :: es => s.ReceivesAnnounce e ∧ (s.receive e).AnnounceRun es

/-- A destination has a live path throughout a run, and a path at its end. -/
def StaysLive (destHash : Octets 16) : Actor F → List (Inbound F) → Prop
  | s, [] => ∃ path, s.pathTable.get destHash = some path
  | s, e :: es => (∃ path, s.LivePath e.moment.now destHash path) ∧ (s.receive e).StaysLive destHash es

/-! ### One announce -/

variable {path : RouteEntry F} {randomHash : Octets 10} {header : PacketHeader}

omit [Sha256] [Ed25519] [Hkdf] [DecidableEq F] in
/-- An announce that moves a live path is newer than it. -/
theorem newer_of_improvesPath {m : Moment F} {interfaceId : ℕ}
    (hlive : s.LivePath m.now header.destinationHash path)
    (h : s.improvesPath m header randomHash interfaceId = true) :
    randomHash ∉ path.randomBlobs ∧
      pathTimebaseFromRandomBlobs path.randomBlobs < announceTimebase randomHash := by
  obtain ⟨hpath, hexpired, hresponsive⟩ := hlive
  simp only [improvesPath, hpath, hexpired, Bool.false_or] at h
  split_ifs at h with hsuppressed hhops hnewer hsame
  · simpa using h
  · exact ⟨by simpa using h, of_decide_eq_true hnewer⟩
  · exact absurd (of_decide_eq_true h) hresponsive

/-- An announce that does not improve the path of its destination leaves the path table. -/
theorem processAnnounce_pathTable {m : Moment F} {raw : Bytes}
    {dataOffset interfaceId : ℕ}
    (h : ∀ announce identity, s.verifiedAnnounce m raw header dataOffset = some (announce, identity) →
      s.improvesPath m header announce.randomHash interfaceId = false) :
    (s.processAnnounce m raw header dataOffset interfaceId).pathTable = s.pathTable := by
  unfold processAnnounce
  split
  · rfl
  split
  · rfl
  next announce identity hverified =>
    split
    · rfl
    split
    · rfl
    obtain ⟨recentAnnounces, hrecent⟩ : ∃ recentAnnounces,
        s.rememberAnnounce m header announce identity = { s with recentAnnounces } := ⟨_, rfl⟩
    rw [hrecent]
    unfold considerAnnounce
    split
    · rfl
    obtain ⟨announceTable, hcancel, -⟩ :=
      cancelRebroadcast_eq (s := { s with recentAnnounces }) m header
    obtain ⟨pathInterfaceSuppressions, hlift⟩ := liftSuppression_eq
      (s := { s with recentAnnounces, announceTable }) m header.destinationHash interfaceId
    rw [hcancel]
    dsimp only
    rw [hlift]
    have hstale : Actor.improvesPath { s with recentAnnounces, announceTable } m header
        announce.randomHash interfaceId = false := h announce identity hverified
    rw [hstale]
    rfl

variable {destHash : Octets 16} {e : Inbound F}

/-- What an announce does to the path of a destination: nothing or its loss, a first path, or the
path that the announce stands for. -/
theorem receive_paths (hannounce : s.ReceivesAnnounce e)
    (h : (s.receive e).pathTable.get destHash = some path) :
    s.pathTable.get destHash = some path ∨
      ∃ raw header randomHash, header.destinationHash = destHash ∧
        s.improvesPath e.moment header randomHash e.interfaceId = true ∧
        path = s.announcedPath e.moment raw header randomHash e.interfaceId := by
  obtain hdrop | ⟨raw, header, dataOffset, packetHashlist, hclear, hunpack, -, -, hdispatch⟩ :=
    receive_cases s e
  · exact .inl (hdrop ▸ h)
  have htype : (s.arrived header e.interfaceId).flags.packetType = .announce :=
    hannounce raw header dataOffset hclear hunpack
  simp only [hdispatch, dispatch, htype] at h
  obtain hold | ⟨hdest, _, announce, identity, _, himproves, hpath⟩ :=
    processAnnounce_brings.gains.paths _ _ h
  · exact .inl hold
  exact .inr ⟨raw, s.arrived header e.interfaceId, announce.randomHash, hdest.symm, himproves, hpath⟩

/-- A replayed announce leaves the path table. -/
theorem receive_replay (hannounces : s.Announces e destHash randomHash)
    (hlive : s.LivePath e.moment.now destHash path) (hreplays : Replays path randomHash) :
    (s.receive e).pathTable = s.pathTable := by
  obtain ⟨raw, header, dataOffset, announce, hclear, hunpack, htype, rfl, hparsed, rfl⟩ := hannounces
  obtain hdrop | ⟨packetHashlist, -, hdispatch⟩ := receive_cases_of hclear hunpack
  · rw [hdrop]
  have htype' : (s.arrived header e.interfaceId).flags.packetType = .announce := htype
  simp only [hdispatch, dispatch, htype']
  refine processAnnounce_pathTable (s := { s with packetHashlist })
    fun announce' identity hverified => ?_
  obtain ⟨hparsed', -⟩ := of_verifiedAnnounce hverified
  obtain rfl := Except.ok.inj (hparsed.symm.trans hparsed')
  rw [Bool.eq_false_iff]
  intro himproves
  have hlive' : Actor.LivePath { s with packetHashlist } e.moment.now
      (s.arrived header e.interfaceId).destinationHash path := hlive
  obtain ⟨hfresh, hnewer⟩ := newer_of_improvesPath hlive' himproves
  exact hreplays.elim hfresh (Nat.not_le.mpr hnewer)

/-- A path that an announce moves goes forward in time. -/
theorem receive_timebase {path path' : RouteEntry F} (hannounce : s.ReceivesAnnounce e)
    (hlive : s.LivePath e.moment.now destHash path)
    (h : (s.receive e).pathTable.get destHash = some path') :
    path' = path ∨ pathTimebaseFromRandomBlobs path.randomBlobs <
      pathTimebaseFromRandomBlobs path'.randomBlobs := by
  rcases receive_paths hannounce h with hold | ⟨raw, header, randomHash, rfl, himproves, rfl⟩
  · exact .inl (some.inj (hold.symm.trans hlive.1))
  · obtain ⟨-, hnewer⟩ := newer_of_improvesPath hlive himproves
    refine .inr ?_
    simp only [announcedPath, hlive.1, map_some, getD_some]
    exact lt_pathTimebase_push hnewer

theorem receive_blobs (hannounce : s.ReceivesAnnounce e)
    (hblobs : ∀ path, s.pathTable.get destHash = some path →
      path.randomBlobs.length ≤ maxRandomBlobs) (path : RouteEntry F)
    (h : (s.receive e).pathTable.get destHash = some path) :
    path.randomBlobs.length ≤ maxRandomBlobs := by
  rcases receive_paths hannounce h with hold | ⟨raw, header, randomHash, rfl, -, rfl⟩
  · exact hblobs path hold
  · refine length_pushRandomBlob_le ?_ randomHash
    cases hpath : s.pathTable.get header.destinationHash with
    | none => exact Nat.zero_le _
    | some path => exact hblobs path hpath

/-! ### Runs -/

theorem AnnounceRun.right {before after : List (Inbound F)} (h : s.AnnounceRun (before ++ after)) :
    (before.foldl receive s).AnnounceRun after := by
  induction before generalizing s with
  | nil => exact h
  | cons e before ih => exact ih h.2

variable {es : List (Inbound F)}

theorem run_blobs (hrun : s.AnnounceRun es)
    (hblobs : ∀ path, s.pathTable.get destHash = some path →
      path.randomBlobs.length ≤ maxRandomBlobs) :
    ∀ path, (es.foldl receive s).pathTable.get destHash = some path →
      path.randomBlobs.length ≤ maxRandomBlobs := by
  induction es generalizing s with
  | nil => exact hblobs
  | cons e es ih => exact ih hrun.2 (receive_blobs hrun.1 hblobs)

/-- Over a run in which it stays live, a path is as before or has moved forward in time. -/
theorem run_timebase (hrun : s.AnnounceRun es) (hlive : s.StaysLive destHash es)
    (hpath : s.pathTable.get destHash = some path) :
    ∃ path', (es.foldl receive s).pathTable.get destHash = some path' ∧
      (path' = path ∨ pathTimebaseFromRandomBlobs path.randomBlobs <
        pathTimebaseFromRandomBlobs path'.randomBlobs) := by
  induction es generalizing s path with
  | nil => exact ⟨path, hpath, .inl rfl⟩
  | cons e es ih =>
    obtain ⟨⟨live, hlive⟩, hlater⟩ := hlive
    obtain rfl := some.inj (hpath.symm.trans hlive.1)
    obtain ⟨next, hnext⟩ : ∃ next, (s.receive e).pathTable.get destHash = some next := by
      cases es with
      | nil => exact hlater
      | cons =>
        obtain ⟨⟨next, hnext⟩, -⟩ := hlater
        exact ⟨next, hnext.1⟩
    obtain ⟨path', hpath', hmoved⟩ := ih hrun.2 hlater hnext
    refine ⟨path', hpath', ?_⟩
    rcases receive_timebase hrun.1 hlive hnext with rfl | hforward
    · exact hmoved
    · rcases hmoved with rfl | hmoved
      · exact .inr hforward
      · exact .inr (hforward.trans hmoved)

/-- **Replay of announces.** Over every run of announces: a path stores at most 64 random blobs; while
it stays live, it is as before or its timebase has grown; and the next announce leaves it as it is if
the path holds its random hash or is at least as new. -/
theorem announce_replay (s : Actor F) (destHash : Octets 16) (es : List (Inbound F))
    (hrun : s.AnnounceRun es)
    (hblobs : ∀ path, s.pathTable.get destHash = some path →
      path.randomBlobs.length ≤ maxRandomBlobs) :
    (∀ path, (es.foldl receive s).pathTable.get destHash = some path →
      path.randomBlobs.length ≤ maxRandomBlobs) ∧
    (∀ before after path, es = before ++ after →
      (before.foldl receive s).pathTable.get destHash = some path →
      (before.foldl receive s).StaysLive destHash after →
      ∃ path', (es.foldl receive s).pathTable.get destHash = some path' ∧
        (path' = path ∨ pathTimebaseFromRandomBlobs path.randomBlobs <
          pathTimebaseFromRandomBlobs path'.randomBlobs)) ∧
    ∀ e randomHash path, (es.foldl receive s).Announces e destHash randomHash →
      (es.foldl receive s).LivePath e.moment.now destHash path → Replays path randomHash →
      ((es.foldl receive s).receive e).pathTable.get destHash = some path := by
  refine ⟨run_blobs hrun hblobs, ?_, fun e randomHash path hannounces hlive hreplays => ?_⟩
  · rintro before after path rfl hpath hlive
    rw [List.foldl_append]
    exact run_timebase hrun.right hlive hpath
  · rw [receive_replay hannounces hlive hreplays]
    exact hlive.1

end

end Actor

open Transport.Session Actor in
/-- In the session the path comes from the announce. A copy of it over the other interface, some
seconds later, leaves the path. -/
theorem announce_replay_session :
    ∃ path, ([announced].foldl receive node).LivePath 1700000009 destination path ∧
      (([announced].foldl receive node).receive
        ⟨moment 1700000009, announce, 2⟩).pathTable.get destination = some path := by
  have hunpack : PacketHeader.unpack announce =
      .ok (⟨.unpack 0x01, 0, none, destination, .none⟩, 19) := by decide +kernel
  have hrun : node.AnnounceRun [announced] := by
    refine ⟨fun raw header dataOffset hclear hu => ?_, trivial⟩
    have hclear' : node.clearPacket .wire 1 announce = some announce := by decide +kernel
    obtain rfl := some.inj (hclear'.symm.trans hclear)
    obtain ⟨rfl, -⟩ := Prod.mk.inj (Except.ok.inj (hunpack.symm.trans hu))
    decide
  obtain ⟨path, hpath, hlive⟩ := map_eq_some_iff.mp
    (show (([announced].foldl receive node).pathTable.get destination).map (fun path =>
        (path.isExpired 1700000009, path.randomBlobs)) =
      some (false, [⟨[1, 2, 3, 4, 5, 0, 101, 83, 241, 0], rfl⟩]) by decide +kernel)
  obtain ⟨hexpired, hblobs⟩ := Prod.mk.inj hlive
  have hlive : ([announced].foldl receive node).LivePath 1700000009 destination path :=
    ⟨hpath, hexpired, by decide +kernel⟩
  have hannounces : ([announced].foldl receive node).Announces ⟨moment 1700000009, announce, 2⟩
      destination ⟨[1, 2, 3, 4, 5, 0, 101, 83, 241, 0], rfl⟩ :=
    ⟨announce, _, _, ⟨destinationKey, Session.nameHash, ⟨[1, 2, 3, 4, 5, 0, 101, 83, 241, 0], rfl⟩, none,
      announceSignature, none⟩, by decide +kernel, hunpack, by decide, rfl, by decide +kernel, rfl⟩
  refine ⟨path, hlive, (announce_replay node destination [announced] hrun nofun).2.2 _ _ path
    hannounces hlive (.inl ?_)⟩
  rw [hblobs]
  exact List.mem_singleton.mpr rfl

end Reticulum.Transport
