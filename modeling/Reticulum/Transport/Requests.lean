import Reticulum.Transport.Announces

/-!
# Requests for paths and cached announces

A node answers a request for a path from its cache of announces, passes it to the owner of a local
destination, or searches on with requests of its own. It replays a cached announce on a request for
it, and restores the paths of a tunnel that reappears. The functions follow `actor/outbound.rs`,
`actor/path_request_admission.rs`, `actor/recursive_discovery.rs`, `actor/persistence.rs` and
`tunnel.rs` of the `rns-transport` crate.
-/

namespace Reticulum.Transport

open Wire Binary64 Octets Option

variable {F : Type}

/-! ### Well-known destinations -/

section

variable [Sha256]

/-- `path_request_dest_hash`, of `"rnstransport.path.request"`. -/
def pathRequestDestHash : Octets 16 :=
  Destination.hashFromNameAndIdentity
    [114, 110, 115, 116, 114, 97, 110, 115, 112, 111, 114, 116, 46, 112, 97, 116, 104, 46, 114, 101,
      113, 117, 101, 115, 116] none

/-- `tunnel_synthesize_dest_hash`, of `"rnstransport.tunnel.synthesize"`. -/
def tunnelSynthesizeDestHash : Octets 16 :=
  Destination.hashFromNameAndIdentity
    [114, 110, 115, 116, 114, 97, 110, 115, 112, 111, 114, 116, 46, 116, 117, 110, 110, 101, 108, 46,
      115, 121, 110, 116, 104, 101, 115, 105, 122, 101] none

/-! ### Tunnel synthesis -/

/-- `TunnelSynthesisData`. -/
structure TunnelSynthesisData where
  publicKey : Octets 64
  interfaceHash : Octets 32
  randomHash : Octets 16
  signature : Octets 64
  deriving DecidableEq, Repr

namespace TunnelSynthesisData

/-- `TunnelSynthesisData::unpack`. -/
def unpack (data : Bytes) : Option TunnelSynthesisData :=
  if data.length ≠ 176 then none
  else some
    { publicKey := read 64 data
      interfaceHash := read 32 (data.drop 64)
      randomHash := read 16 (data.drop 96)
      signature := read 64 (data.drop 112) }

/-- `TunnelSynthesisData::tunnel_id`. -/
def tunnelId (d : TunnelSynthesisData) : Octets 32 :=
  Sha256.digest (d.publicKey.1 ++ d.interfaceHash.1)

/-- `TunnelSynthesisData::is_signed`. -/
def isSigned [Ed25519] (d : TunnelSynthesisData) : Bool :=
  match Identity.fromPublicKey d.publicKey with
  | none => false
  | some signer =>
    signer.verify (d.publicKey.1 ++ d.interfaceHash.1 ++ d.randomHash.1) d.signature

end TunnelSynthesisData

end

/-! ### Constants -/

/-- `PATH_REQUEST_TIMEOUT`. -/
def pathRequestTimeout : ℚ := 15

/-- `DISCOVERY_PR_TX_THROTTLE`. -/
def discoveryPrTxThrottle : ℚ := 1 / 2

/-- `PATH_REQUEST_GRACE`. -/
def pathRequestGrace : ℚ := 2 / 5

/-- `PATH_REQUEST_RG`. -/
def pathRequestRg : ℚ := 3 / 2

/-- `DEFAULT_PER_HOP_TIMEOUT`. -/
def defaultPerHopTimeout : ℚ := 6

/-- `MAX_DISCOVERY_DESTINATIONS`. -/
def maxDiscoveryDestinations : ℕ := 1024

/-- `MAX_DISCOVERY_REQUESTERS`. -/
def maxDiscoveryRequesters : ℕ := 64

/-- `mode_discovers_unknown_paths`. -/
def modeDiscoversUnknownPaths : InterfaceMode → Bool
  | .accessPoint | .gateway | .roaming | .internal => true
  | _ => false

/-- The data of a path request: the destination, the transport id of the requestor and the tag. A
request without a tag is ignored. -/
def parsePathRequest (data : Bytes) : Option (Octets 16 × Option (Octets 16) × Bytes) :=
  if 32 < data.length then
    some (read 16 data, some (read 16 (data.drop 16)), (data.drop 32).take 16)
  else if 16 < data.length then some (read 16 data, none, (data.drop 16).take 16)
  else none

/-- What an entry of the retry queue is for. -/
def PendingAdmission.key (p : PendingAdmission F) : Octets 16 × ℕ := (p.destination, p.interface)

namespace Actor

variable {Q : Cause → Bytes → Prop} {s : Actor F}

/-! ### Queued path responses -/

/-- A queued path response displaces the announce of its destination. -/
def queuePathResponse (s : Actor F) (hash : Octets 16) (entry : AnnounceEntry F) : Actor F :=
  { s with
    heldAnnounces := match s.announceTable.get hash with
      | none => s.heldAnnounces
      | some held => s.heldAnnounces.insert hash held
    announceTable := s.announceTable.insert hash entry }

theorem queuePathResponse_calm {Q : Cause → Bytes → Prop} {hash : Octets 16}
    {entry : AnnounceEntry F} (hentry : Q .announce entry.packetRaw) :
    Calm Q s (s.queuePathResponse hash entry) := by
  have hheld : Calm Q s { s with
      heldAnnounces := match s.announceTable.get hash with
        | none => s.heldAnnounces
        | some held => s.heldAnnounces.insert hash held } := by
    refine (Calm.refl Q s).set_heldAnnounces fun hash' found hf => ?_
    split at hf
    · exact .inl (.inr (.inl ⟨hash', found, hf, rfl⟩))
    next held hheld =>
      obtain ⟨-, rfl⟩ | hf := Table.of_get_insert hf
      · exact .inl (.inl ⟨hash, _, hheld, rfl⟩)
      · exact .inl (.inr (.inl ⟨hash', found, hf, rfl⟩))
  refine hheld.set_announceTable fun hash' found hf => ?_
  obtain ⟨-, rfl⟩ | hf := Table.of_get_insert hf
  · exact .inr hentry
  · exact .inl (.inl ⟨hash', found, hf, rfl⟩)

/-! ### Searches for a path -/

/-- The requesters of a search that are still registered. -/
def liveRequesters (s : Actor F) (operation : DiscoveryOperation F) : DiscoveryOperation F :=
  { operation with requesters := operation.requesters.filter s.discoveryWaiterRegistered }

section

variable [Binary64 F] {m : Moment F} {destination : Octets 16}

/-- Whether `retain_live_requesters` keeps a search. -/
def searchIsLive (s : Actor F) (m : Moment F) (operation : DiscoveryOperation F) : Bool :=
  isFinite m.now && lt m.now operation.timeout && !(s.liveRequesters operation).requesters.isEmpty

/-- `cull_recursive_discovery`. -/
def cullRecursiveDiscovery (s : Actor F) (m : Moment F) : Actor F :=
  Actor.retireOrphanedDiscoveryAdmissions
    { s with
      discoveryPathRequests :=
        (s.discoveryPathRequests.retain fun _ operation => s.searchIsLive m operation).mapValues
          fun _ operation => s.liveRequesters operation }

/-- `recursive_discovery_timeout`. -/
def recursiveDiscoveryTimeout (s : Actor F) (requester : ℕ) : F :=
  let slowest := ((s.interfaces.toList.filter fun e => e.1 ≠ requester ∧ e.2.outbound ∧
    !e.2.tx.closed ∧ !e.2.markedOffline ∧ 0 < e.2.bitrate).map fun e => e.2.bitrate).min?
  max
    (add (interfaceRoundTripAllowance slowest) (ofRat defaultPerHopTimeout))
    (ofRat pathRequestTimeout)

/-- The beginning of `admit_discovery_requester`: `retain_live_requesters` for one search. -/
def retainLiveRequesters (s : Actor F) (m : Moment F) (destination : Octets 16) : Actor F :=
  match s.discoveryPathRequests.get destination with
  | none => s
  | some operation =>
    if s.searchIsLive m operation then
      { s with
        discoveryPathRequests :=
          s.discoveryPathRequests.insert destination (s.liveRequesters operation) }
    else Actor.retireOrphanedDiscoveryAdmissions
      { s with discoveryPathRequests := s.discoveryPathRequests.erase destination }

/-- The part of `admit_discovery_requester` that drops old searches where there are too many. -/
def makeRoomForSearch (s : Actor F) (m : Moment F) : Actor F :=
  if maxDiscoveryDestinations ≤ s.discoveryPathRequests.size then s.cullRecursiveDiscovery m else s

/-- The end of `admit_discovery_requester`: a new search, unless there are too many. -/
def startSearch (s : Actor F) (m : Moment F) (destination : Octets 16) (requester channel : ℕ) :
    Bool × Actor F :=
  let timeout := add m.now (s.recursiveDiscoveryTimeout requester)
  if maxDiscoveryDestinations ≤ s.discoveryPathRequests.size ||
      !isFinite timeout || le timeout m.now then (false, s)
  else
    (true,
      { s with
        discoveryPathRequests := s.discoveryPathRequests.insert destination
          { id := s.nextDiscovery, timeout, requesters := [(requester, channel)] }
        nextDiscovery := s.nextDiscovery + 1 })

/-- `admit_discovery_requester`: whether a new search started. -/
def admitDiscoveryRequester (s : Actor F) (m : Moment F) (destination : Octets 16)
    (requester : ℕ) : Bool × Actor F :=
  if !isFinite m.now then (false, s)
  else
    let s := s.retainLiveRequesters m destination
    match s.interfaces.get requester with
    | none => (false, s)
    | some entry =>
      if !entry.outbound || entry.tx.closed || entry.markedOffline then (false, s)
      else
        match s.discoveryPathRequests.get destination with
        | some operation =>
          if (requester, entry.tx.id) ∈ operation.requesters ∨
              maxDiscoveryRequesters ≤ operation.requesters.length then (false, s)
          else
            (false,
              { s with
                discoveryPathRequests := s.discoveryPathRequests.insert destination
                  { operation with
                    requesters := operation.requesters ++ [(requester, entry.tx.id)] } })
        | none => (s.makeRoomForSearch m).startSearch m destination requester entry.tx.id

theorem cullRecursiveDiscovery_quiet : Quiet Q s (s.cullRecursiveDiscovery m) :=
  retire_discovery_quiet Q s _

theorem retainLiveRequesters_quiet : Quiet Q s (s.retainLiveRequesters m destination) := by
  unfold retainLiveRequesters
  split
  · exact .refl Q s
  split
  · exact ⟨{ Calm.refl _ _ with }, { Steady.refl _ with }⟩
  · exact retire_discovery_quiet Q s _

theorem admitDiscoveryRequester_quiet {requester : ℕ} :
    Quiet Q s (s.admitDiscoveryRequester m destination requester).2 := by
  have hlive : Quiet Q s (s.retainLiveRequesters m destination) := retainLiveRequesters_quiet
  unfold admitDiscoveryRequester
  split
  · exact .refl Q s
  dsimp only
  split
  · exact hlive
  split
  · exact hlive
  split
  · split
    · exact hlive
    · exact hlive.trans ⟨{ Calm.refl _ _ with }, { Steady.refl _ with }⟩
  have hroom : Quiet Q s ((s.retainLiveRequesters m destination).makeRoomForSearch m) := by
    unfold makeRoomForSearch
    split
    · exact hlive.trans cullRecursiveDiscovery_quiet
    · exact hlive
  unfold startSearch
  dsimp only
  split
  · exact hroom
  · exact hroom.trans ⟨{ Calm.refl _ _ with }, { Steady.refl _ with }⟩

end

/-! ### Cached announces -/

/-- `data_payload_offset` and the payload behind it. -/
def dataPayload (raw : Bytes) (header : PacketHeader) : Option Bytes :=
  let offset := match header.flags.headerType with
    | .header1 => headerMinsize
    | .header2 => headerMaxsize
  if offset ≤ raw.length then some (raw.drop offset) else none

/-- `cached_announce_raw`. -/
def cachedAnnounceRaw (s : Actor F) (m : Moment F) (hash : Octets 32) : Option Bytes :=
  if m.cacheReads hash then s.cached hash else none

section

variable [Binary64 F] {m : Moment F} {raw : Bytes}

/-- `handle_cache_request`. -/
def handleCacheRequest (s : Actor F) (m : Moment F) (raw : Bytes) (header : PacketHeader) :
    Actor F :=
  match dataPayload raw header with
  | none => s
  | some payload =>
    if payload.length ≠ 32 then s
    else
      let requestedHash := read 32 payload
      match s.pathTable.entries.toList.find? fun e => e.2.packetHash = some requestedHash with
      | none => s
      | some _ =>
        match s.cachedAnnounceRaw m requestedHash with
        | none => s
        | some cachedRaw =>
          if (PacketHeader.unpack cachedRaw).toOption.all fun e => pathfinderM ≤ e.1.hops then s
          else if s.isTransportEnabled then s.broadcastAnnounceOnInterfaces m cachedRaw none
          else s

/-- A cached announce is replayed as it is. -/
theorem handleCacheRequest_quiet {header : PacketHeader} :
    Quiet (fun c r => c = .announce ∧ ∃ hash : Octets 32, dataPayload raw header = some hash.1 ∧
      s.cached hash = some r) s (s.handleCacheRequest m raw header) := by
  unfold handleCacheRequest
  split
  · exact .refl _ s
  next payload hpayload =>
    split
    · exact .refl _ s
    rename_i hlen
    replace hlen := not_ne_iff.mp hlen
    dsimp only
    split
    · exact .refl _ s
    split
    · exact .refl _ s
    next cachedRaw hcached =>
      have hstored : s.cached (read 32 payload) = some cachedRaw :=
        (ite_none_right_eq_some.mp hcached).2
      split
      · exact .refl _ s
      split
      · refine broadcastAnnounceOnInterfaces_quiet.mono fun _ _ h => ⟨h.1, _, ?_, h.2 ▸ hstored⟩
        rw [hpayload, read_val hlen.ge, List.take_of_length_le hlen.le]
      · exact .refl _ s

/-! ### Tunnels -/

/-- Whether `restore_tunnel_paths` reinstalls a path. -/
def restoresTunnelPath (s : Actor F) (m : Moment F) (destHash : Octets 16) (path : TunnelPath F) :
    Bool :=
  match s.pathTable.get destHash with
  | some existing =>
    (decide (path.hops ≤ existing.hops) || lt existing.expires m.now) &&
      decide (pathTimebaseFromRandomBlobs existing.randomBlobs ≤
        pathTimebaseFromRandomBlobs path.randomBlobs)
  | none => lt m.now path.expires

/-- One path of `restore_tunnel_paths`: it is reinstalled, or the tunnel forgets it. -/
def restoreTunnelPath (s : Actor F) (m : Moment F) (tunnelId : Octets 32) (interfaceId : ℕ)
    (e : Octets 16 × TunnelPath F) : Actor F :=
  if s.restoresTunnelPath m e.1 e.2 then
    { s with
      pathTable := s.pathTable.insert e.1
        { timestamp := m.now
          nextHop := e.2.nextHop
          hops := e.2.hops
          expires := e.2.expires
          randomBlobs := e.2.randomBlobs
          interfaceId
          packetHash := e.2.packetHash } }
  else
    { s with
      tunnelTable :=
        { s.tunnelTable with
          entries := s.tunnelTable.entries.modify tunnelId fun entry =>
            { entry with tunnelPaths := entry.tunnelPaths.erase e.1 } } }

/-- `restore_tunnel_paths`. -/
def restoreTunnelPaths (s : Actor F) (m : Moment F) (tunnelId : Octets 32) (interfaceId : ℕ) :
    Actor F :=
  match s.tunnelTable.entries.get tunnelId with
  | none => s
  | some tunnel =>
    tunnel.tunnelPaths.toList.foldl (fun s e => s.restoreTunnelPath m tunnelId interfaceId e) s

end

/-! ### Requests of the node -/

/-- `Admission`. -/
inductive Admission
  | sent
  | full
  | policyWait
  | retired
  deriving DecidableEq, Repr

section

variable [Sha256]

/-- The header of a request for a path. -/
def pathRequestHeader : PacketHeader where
  flags :=
    { headerType := .header1
      contextFlag := false
      transportType := .broadcast
      destinationType := .plain
      packetType := .data }
  hops := 0
  transportId := none
  destinationHash := pathRequestDestHash
  context := .none

/-- `build_path_request_packet`, with the tag that it draws if it is given none. -/
def buildPathRequestPacket (s : Actor F) (destinationHash : Octets 16) (tag : Option Bytes)
    (randomTag : Octets 16) : Bytes :=
  let identity := if s.isTransportEnabled then s.transportIdentityHash else none
  pathRequestHeader.pack ++ (destinationHash.1 ++ (identity.map Subtype.val).getD [] ++
    (tag.map (·.take 16)).getD randomTag.1)

/-- The path requests that a node makes itself. -/
def PathRequest (cause : Cause) (raw : Bytes) : Prop :=
  cause = .pathRequest ∧ ∃ payload, raw = pathRequestHeader.pack ++ payload

variable [Ed25519] [Hkdf] [DecidableEq F] [Binary64 F] {m : Moment F} {destination : Octets 16}
  {interface interfaceId : ℕ} {raw tag : Bytes} {recursive : Bool}

/-- `try_admit_path_request`. -/
def tryAdmitPathRequest (s : Actor F) (m : Moment F) (destination : Octets 16) (interface : ℕ)
    (raw : Bytes) (recursive : Bool) : Admission × Actor F :=
  match s.interfaces.get interface with
  | none => (.retired, s)
  | some entry =>
    if !entry.outbound then (.retired, s)
    else if recursive && (m.egressLimitPr interface || !entry.announceQueue.isEmpty ||
        lt m.now entry.announceAllowedAt) then (.policyWait, s)
    else
      match s.trySendToInterface .pathRequest interface raw with
      | (.sent, sent) =>
        (.sent,
          { sent with
            interfaces :=
              if recursive then sent.interfaces.modify interface fun entry =>
                { entry with announceAllowedAt := add m.now (announceDelay entry raw) }
              else sent.interfaces
            pathRequests := sent.pathRequests.insert destination m.now })
      | (.full, _) => (.full, s)
      | (.closed, _) | (.offline, _) => (.retired, s.deregisterInterface interface)
      | (_, _) => (.retired, s)

/-- `admit_path_request`. -/
def admitPathRequest (s : Actor F) (m : Moment F) (destination : Octets 16) (interface : ℕ)
    (raw : Bytes) (recursive : Bool) : Actor F :=
  if s.pendingPathRequestAdmissions.any fun pending =>
      pending.destination = destination && pending.interface = interface then s
  else
    match s.tryAdmitPathRequest m destination interface raw recursive with
    | (.full, s) =>
      if maxPending ≤ s.pendingPathRequestAdmissions.length then s
      else
        match s.interfaces.get interface with
        | none => s
        | some entry =>
          let discovery := if recursive then s.discoveryPathRequests.get destination else none
          let gate := add m.now (ofRat pathRequestGateTimeout)
          let pending : PendingAdmission F :=
            { destination
              interface
              generation := entry.tx.id
              raw
              recursive
              deadline := discovery.elim gate fun owner => min owner.timeout gate
              nextTry := add m.now (ofRat discoveryPrTxThrottle)
              initialRoute := s.liveRoute m destination
              discoveryOwner := discovery.map (·.id) }
          { s with pendingPathRequestAdmissions := s.pendingPathRequestAdmissions ++ [pending] }
    | (_, s) => s

/-- `send_path_request`. -/
def sendPathRequest (s : Actor F) (m : Moment F) (destinationHash : Octets 16) (interface : ℕ)
    (tag : Option Bytes) (recursive : Bool) : Actor F :=
  s.admitPathRequest m destinationHash interface
    (s.buildPathRequestPacket destinationHash tag (m.randomTag interface)) recursive

/-- `forward_path_request`. -/
def forwardPathRequest (s : Actor F) (m : Moment F) (destinationHash : Octets 16)
    (except : Option ℕ) (tag : Option Bytes) (recursive : Bool) : Actor F :=
  let ids := (s.interfaces.toList.filter fun e => except ≠ some e.1 ∧ e.2.outbound).map Prod.fst
  ids.foldl (fun s id => s.sendPathRequest m destinationHash id tag recursive) s

/-- One round of `process_pending_path_request_admissions`. -/
def pollPendingPathRequest (s : Actor F) (m : Moment F) : Actor F :=
  match s.pendingPathRequestAdmissions with
  | [] => s
  | pending :: rest =>
    let s := { s with pendingPathRequestAdmissions := rest }
    let retry (s : Actor F) (nextTry : F) : Actor F :=
      { s with
        pendingPathRequestAdmissions :=
          s.pendingPathRequestAdmissions ++ [{ pending with nextTry }] }
    let sameInterface := (s.interfaces.get pending.interface).any fun entry =>
      entry.outbound && entry.tx.id = pending.generation
    let sameDiscovery := pending.discoveryOwner.all fun owner =>
      (s.discoveryPathRequests.get pending.destination).any fun current =>
        current.id = owner && lt m.now current.timeout
    let route := s.liveRoute m pending.destination
    let freshPath := route.isSome && decide (route ≠ pending.initialRoute)
    if le pending.deadline m.now || !sameInterface || !sameDiscovery || freshPath then s
    else if lt m.now pending.nextTry then retry s pending.nextTry
    else
      match s.tryAdmitPathRequest m pending.destination pending.interface pending.raw
          pending.recursive with
      | (.full, s) | (.policyWait, s) =>
        retry s (add m.now (ofRat discoveryPrTxThrottle))
      | (_, s) => s

/-- `process_pending_path_request_admissions`. -/
def processPendingPathRequestAdmissions (s : Actor F) (m : Moment F) : Actor F :=
  (fun s => s.pollPendingPathRequest m)^[min maxPoll s.pendingPathRequestAdmissions.length] s

/-! ### Outcomes of requests -/

variable {s' : Actor F} {outcome : Admission}

/-- A request is taken by its interface, or takes the interface with it, or nothing changes. A
recursive one is only sent when the interface may carry an announce, and delays the next. -/
theorem tryAdmitPathRequest_eq
    (h : s.tryAdmitPathRequest m destination interface raw recursive = (outcome, s')) :
    (outcome = .sent ∧ ∃ entry interfaces pendingLocalLinkRequests,
      s.interfaces.get interface = some entry ∧
      (recursive → lt m.now entry.announceAllowedAt = false) ∧
      Table.get interfaces = Function.update s.interfaces.get interface (some { entry with
        tx := { entry.tx with room := entry.tx.room - 1 }
        announceAllowedAt := if recursive then add m.now (announceDelay entry raw)
          else entry.announceAllowedAt }) ∧
      s' = { s with
        interfaces
        pendingLocalLinkRequests
        transmissions := s.transmissions ++ [⟨.pathRequest, interface, raw⟩]
        pathRequests := s.pathRequests.insert destination m.now }) ∨
    (outcome = .retired ∧ s' = s.deregisterInterface interface) ∨ outcome ≠ .sent ∧ s' = s := by
  unfold tryAdmitPathRequest at h
  cases hentry : s.interfaces.get interface with
  | none =>
    rw [hentry] at h
    obtain ⟨rfl, rfl⟩ := Prod.mk.inj h
    exact .inr (.inr ⟨by simp, rfl⟩)
  | some entry =>
    rw [hentry] at h
    dsimp only at h
    split at h
    · obtain ⟨rfl, rfl⟩ := Prod.mk.inj h
      exact .inr (.inr ⟨by simp, rfl⟩)
    split at h
    · obtain ⟨rfl, rfl⟩ := Prod.mk.inj h
      exact .inr (.inr ⟨by simp, rfl⟩)
    next hpolicy =>
    split at h
    next sent htry =>
      obtain ⟨rfl, rfl⟩ := Prod.mk.inj h
      obtain ⟨-, entry', pendingLocalLinkRequests, hentry', rfl⟩ | ⟨hne, -⟩ :=
        trySendToInterface_eq htry
      · obtain rfl := some.inj (hentry'.symm.trans hentry)
        refine .inl ⟨rfl, entry', _, _, rfl, fun hrecursive => ?_, ?_, rfl⟩
        · simp only [hrecursive, Bool.true_and, Bool.or_eq_true, not_or] at hpolicy
          exact Bool.eq_false_of_not_eq_true hpolicy.2
        · funext id
          cases recursive <;>
            simp only [accept, Table.get_modify, Table.get_insert, Function.update_apply, if_true,
              Bool.false_eq_true, if_false]
          split_ifs <;> rfl
      · exact absurd rfl hne
    · obtain ⟨rfl, rfl⟩ := Prod.mk.inj h
      exact .inr (.inr ⟨by simp, rfl⟩)
    · obtain ⟨rfl, rfl⟩ := Prod.mk.inj h
      exact .inr (.inl ⟨rfl, rfl⟩)
    · obtain ⟨rfl, rfl⟩ := Prod.mk.inj h
      exact .inr (.inl ⟨rfl, rfl⟩)
    · obtain ⟨rfl, rfl⟩ := Prod.mk.inj h
      exact .inr (.inr ⟨by simp, rfl⟩)

/-- The entry that an admission appends: it keeps the bytes, the channel, the live route and the
discovery of the moment. -/
def RetainedAs (s : Actor F) (m : Moment F) (destination : Octets 16) (interface : ℕ) (raw : Bytes)
    (recursive : Bool) (p : PendingAdmission F) : Prop :=
  p.key = (destination, interface) ∧ p.raw = raw ∧ p.initialRoute = s.liveRoute m destination ∧
    (∃ entry, s.interfaces.get interface = some entry ∧ p.generation = entry.tx.id) ∧
    p.discoveryOwner =
      if recursive then (s.discoveryPathRequests.get destination).map (·.id) else none

/-- A request is left alone, or tried, or retained when no other waits for its destination and
interface. -/
theorem admitPathRequest_cases (s : Actor F) (m : Moment F) (destination : Octets 16)
    (interface : ℕ) (raw : Bytes) (recursive : Bool) :
    s.admitPathRequest m destination interface raw recursive = s ∨
    (∃ outcome, s.tryAdmitPathRequest m destination interface raw recursive =
      (outcome, s.admitPathRequest m destination interface raw recursive)) ∨
    ∃ p, s.RetainedAs m destination interface raw recursive p ∧
      (∀ q ∈ s.pendingPathRequestAdmissions, q.key ≠ p.key) ∧
      s.pendingPathRequestAdmissions.length < 256 ∧
      s.admitPathRequest m destination interface raw recursive =
        { s with pendingPathRequestAdmissions := s.pendingPathRequestAdmissions ++ [p] } := by
  unfold admitPathRequest
  split
  · exact .inl rfl
  next hnew =>
  rcases h : s.tryAdmitPathRequest m destination interface raw recursive with ⟨outcome, s'⟩
  obtain ⟨rfl, -⟩ | ⟨rfl, -⟩ | ⟨hne, rfl⟩ := tryAdmitPathRequest_eq h
  · exact .inr (.inl ⟨_, rfl⟩)
  · exact .inr (.inl ⟨_, rfl⟩)
  cases outcome with
  | sent | policyWait | retired => exact .inr (.inl ⟨_, rfl⟩)
  | full =>
    dsimp only
    split
    · exact .inl rfl
    next hroom =>
    split
    · exact .inl rfl
    next entry hentry =>
    refine .inr (.inr ⟨_, ⟨rfl, rfl, rfl, ⟨entry, hentry, rfl⟩, ?_⟩, fun q hq hkey => hnew ?_,
      Nat.lt_of_not_le hroom, rfl⟩)
    · cases recursive <;> rfl
    · obtain ⟨hdestination, hinterface⟩ := Prod.mk.inj hkey
      exact List.any_eq_true.mpr ⟨q, hq, by simp [hdestination, hinterface]⟩

/-- What a poll demands of an entry: its interface has the channel it was retained for, its deadline
is ahead, its discovery exists, and no live route differs from the one known at admission. -/
def Due (s : Actor F) (m : Moment F) (p : PendingAdmission F) : Prop :=
  (∃ entry, s.interfaces.get p.interface = some entry ∧ entry.tx.id = p.generation) ∧
    le p.deadline m.now = false ∧
    (∀ owner ∈ p.discoveryOwner, ∃ current, s.discoveryPathRequests.get p.destination = some current ∧
      current.id = owner ∧ lt m.now current.timeout) ∧
    ∀ route, s.liveRoute m p.destination = some route → some route = p.initialRoute

/-- The first entry is given up, or goes to the end, or is due and leaves with the outcome of a
try. -/
theorem pollPendingPathRequest_cases (s : Actor F) (m : Moment F) :
    s.pollPendingPathRequest m = s ∨ ∃ p rest, s.pendingPathRequestAdmissions = p :: rest ∧
      (s.pollPendingPathRequest m = { s with pendingPathRequestAdmissions := rest } ∨
      (∃ nextTry, s.pollPendingPathRequest m =
        { s with pendingPathRequestAdmissions := rest ++ [{ p with nextTry }] }) ∨
      s.Due m p ∧ ∃ outcome, (outcome = .sent ∨ outcome = .retired) ∧
        Actor.tryAdmitPathRequest { s with pendingPathRequestAdmissions := rest } m p.destination
          p.interface p.raw p.recursive = (outcome, s.pollPendingPathRequest m)) := by
  unfold pollPendingPathRequest
  split
  · exact .inl rfl
  next p rest hpending =>
  refine .inr ⟨p, rest, hpending, ?_⟩
  dsimp only
  split
  · exact .inl rfl
  next hlive =>
  have hdue : s.Due m p := by
    simp only [Bool.or_eq_true, not_or, Bool.not_eq_true, Bool.not_eq_false', any_eq_true,
      all_eq_true, Bool.and_eq_true, decide_eq_true_eq] at hlive
    obtain ⟨⟨⟨hdeadline, entry, hentry, -, hchannel⟩, howner⟩, hroute⟩ := hlive
    refine ⟨⟨entry, hentry, hchannel⟩, hdeadline, fun owner hmem => ?_, fun route h => ?_⟩
    · obtain ⟨current, hget, hcurrent⟩ := howner owner hmem
      exact ⟨current, hget, hcurrent⟩
    · by_contra hdiffers
      exact hroute ⟨isSome_iff_exists.mpr ⟨route, h⟩, fun hsame => hdiffers (h.symm.trans hsame)⟩
  split
  · exact .inr (.inl ⟨_, rfl⟩)
  rcases h : Actor.tryAdmitPathRequest { s with pendingPathRequestAdmissions := rest } m p.destination
    p.interface p.raw p.recursive with ⟨outcome, s'⟩
  cases outcome with
  | sent => exact .inr (.inr ⟨hdue, _, .inl rfl, rfl⟩)
  | retired => exact .inr (.inr ⟨hdue, _, .inr rfl, rfl⟩)
  | full | policyWait =>
    obtain ⟨hne, -⟩ | ⟨hne, -⟩ | ⟨-, rfl⟩ := tryAdmitPathRequest_eq h
    · cases hne
    · cases hne
    · exact .inr (.inl ⟨_, rfl⟩)

theorem tryAdmitPathRequest_calm
    (h : s.tryAdmitPathRequest m destination interface raw recursive = (outcome, s')) :
    Calm (fun c r => c = .pathRequest ∧ r = raw) s s' := by
  obtain ⟨-, entry, interfaces, _, hentry, -, hget, rfl⟩ | ⟨-, rfl⟩ | ⟨-, rfl⟩ :=
    tryAdmitPathRequest_eq h
  · have htaken : Calm (fun c r => c = .pathRequest ∧ r = raw) s { s with interfaces } :=
      (Calm.refl _ s).update_interface hentry hget ⟨rfl, .refl _⟩ fun _ hq => .inl hq
    exact (htaken.transmit interface (.inr ⟨rfl, rfl⟩)).trans { Calm.refl _ _ with }
  · exact deregisterInterface_calm _ s _
  · exact .refl _ _

theorem admitPathRequest_calm :
    Calm (fun c r => c = .pathRequest ∧ r = raw) s
      (s.admitPathRequest m destination interface raw recursive) := by
  obtain heq | ⟨outcome, htry⟩ | ⟨p, hp, -, -, heq⟩ :=
    s.admitPathRequest_cases m destination interface raw recursive
  · rw [heq]
    exact .refl _ s
  · exact tryAdmitPathRequest_calm htry
  · rw [heq]
    refine (Calm.refl _ s).set_pendingRequests fun p' hp' => ?_
    rcases List.mem_append.mp hp' with hp' | hp'
    · exact .inl ⟨p', hp', rfl⟩
    · rw [List.mem_singleton.mp hp']
      exact .inr ⟨rfl, hp.2.1⟩

theorem sendPathRequest_calm {tag : Option Bytes} :
    Calm PathRequest s (s.sendPathRequest m destination interface tag recursive) :=
  admitPathRequest_calm.mono fun _ _ h => ⟨h.1, _, h.2⟩

theorem forwardPathRequest_calm {except : Option ℕ} {tag : Option Bytes} :
    Calm PathRequest s (s.forwardPathRequest m destination except tag recursive) :=
  Calm.foldl (fun _ _ => sendPathRequest_calm) _ _

theorem pollPendingPathRequest_calm : Calm Q s (s.pollPendingPathRequest m) := by
  obtain heq | ⟨pending, rest, hpending, hcases⟩ := s.pollPendingPathRequest_cases m
  · rw [heq]
    exact .refl Q s
  have hold (p : PendingAdmission F) (hp : p ∈ pending :: rest) :
      s.Holds .pathRequest p.raw ∨ Q .pathRequest p.raw :=
    .inl ⟨p, hpending ▸ hp, rfl⟩
  have hrest : Calm Q s { s with pendingPathRequestAdmissions := rest } :=
    (Calm.refl Q s).set_pendingRequests fun p hp => hold p (List.mem_cons_of_mem _ hp)
  obtain heq | ⟨nextTry, heq⟩ | ⟨-, outcome, -, htry⟩ := hcases
  · rw [heq]
    exact hrest
  · -- What is kept once more is the packet that was taken out.
    rw [heq]
    refine (Calm.refl Q s).set_pendingRequests fun p hp => ?_
    rcases List.mem_append.mp hp with hp | hp
    · exact hold p (List.mem_cons_of_mem _ hp)
    · rw [List.mem_singleton.mp hp]
      exact hold pending List.mem_cons_self
  · have hnext := (hrest.mono fun _ _ => Or.inl).trans
      ((tryAdmitPathRequest_calm htry).mono fun _ _ => Or.inr)
    exact hnext.absorb fun cause raw hq =>
      hq.elim .inr fun hq => hq.1 ▸ hq.2 ▸ hold pending List.mem_cons_self

theorem processPendingPathRequestAdmissions_calm :
    Calm Q s (s.processPendingPathRequestAdmissions m) :=
  Calm.iterate (fun _ => pollPendingPathRequest_calm) _ _

/-! ### Answers -/

/-- The end of `handle_inbound_path_request`: the search for an unknown path. -/
def searchPath (s : Actor F) (m : Moment F) (requestedDest : Octets 16) (tag : Bytes)
    (interfaceId : ℕ) : Actor F :=
  let shouldSearchUnknown := (s.interfaces.get interfaceId).any fun entry =>
    entry.recursivePrs || modeDiscoversUnknownPaths entry.mode
  if s.isLocalClientInterface interfaceId then
    s.forwardPathRequest m requestedDest (some interfaceId) (some tag) false
  else if s.isTransportEnabled && shouldSearchUnknown then
    if m.ingressLimitPr interfaceId then s
    else
      match s.admitDiscoveryRequester m requestedDest interfaceId with
      | (true, s) => s.forwardPathRequest m requestedDest (some interfaceId) (some tag) true
      | (false, s) => s
  else if s.hasLocalClientInterfaces then
    (s.localClientInterfaceIdsExcept (some interfaceId)).foldl
      (fun s id => s.sendPathRequest m requestedDest id none false) s
  else s

/-- The path from which `handle_inbound_path_request` may answer. -/
def answerablePath (s : Actor F) (m : Moment F) (requestedDest : Octets 16) (interfaceId : ℕ) :
    Option (RouteEntry F) :=
  if s.isTransportEnabled || s.isLocalClientInterface interfaceId then
    s.pathTable.getLive m.now requestedDest
  else none

/-- The answer of `handle_inbound_path_request` from a known path: `none` where it goes on to
search, and otherwise the state after it. -/
def answerFromPath (s : Actor F) (m : Moment F) (requestedDest : Octets 16)
    (requestorTransportId : Option (Octets 16)) (interfaceId : ℕ) : Option (Actor F) := do
  let path ← s.answerablePath m requestedDest interfaceId
  let roaming := (s.interfaces.get interfaceId).any fun iface => iface.mode = .roaming
  if requestorTransportId.any (fun requestor => path.nextHop = some requestor) then return s
  else if roaming && path.interfaceId = interfaceId then return s
  else
    let raw ← path.packetHash.bind (s.cachedAnnounceRaw m)
    match s.pathResponseFromCachedAnnounce raw requestedDest path.hops with
    | none => return s
    | some response =>
      let responseDelay : F :=
        if s.isLocalClientInterface interfaceId || s.isLocalClientInterface path.interfaceId then
          ofRat 0
        else add (ofRat pathRequestGrace)
          (ofRat (if roaming then pathRequestRg else 0))
      return s.queuePathResponse requestedDest
        { timestamp := m.now
          retransmitTimeout := add m.now responseDelay
          retries := 0
          receivedFrom := requestorTransportId.getD (replicate 16 0)
          hops := path.hops
          packetRaw := response
          localRebroadcasts := 0
          blockRebroadcast := true
          attachedInterface := some interfaceId
          sourceInterface := none }

/-- The part of `handle_inbound_path_request` behind the check of the tag. -/
def resolvePathRequest (s : Actor F) (m : Moment F) (requestedDest : Octets 16)
    (requestorTransportId : Option (Octets 16)) (tag : Bytes) (interfaceId : ℕ) : Actor F :=
  if requestedDest ∈ s.localDestinations then
    (s.deliver requestedDest (.announceRequested tag interfaceId)).2
  else
    let waits := !s.isLocalClientInterface interfaceId &&
      (s.pathTable.getLive m.now requestedDest).any fun path =>
        s.isLocalClientInterface path.interfaceId
    let s := { s with
      pendingLocalPathRequests :=
        if waits then s.pendingLocalPathRequests.insert requestedDest interfaceId
        else s.pendingLocalPathRequests }
    (s.answerFromPath m requestedDest requestorTransportId interfaceId).getD
      (s.searchPath m requestedDest tag interfaceId)

/-- `handle_inbound_path_request`. -/
def handleInboundPathRequest (s : Actor F) (m : Moment F) (data : Bytes) (interfaceId : ℕ) :
    Actor F :=
  match parsePathRequest data with
  | none => s
  | some (requestedDest, requestorTransportId, tag) =>
    let uniqueTag := requestedDest.1 ++ tag
    if (s.discoveryPrTags.get uniqueTag).any fun last =>
        lt (sub m.now last) (ofRat pathRequestGateTimeout) then s
    else
      let tagged := { s with discoveryPrTags := s.discoveryPrTags.insert uniqueTag m.now }
      tagged.resolvePathRequest m requestedDest requestorTransportId tag interfaceId

/-- The path responses that a node can make: its cached announce under the hops of its path. -/
def PathResponse (s : Actor F) (cause : Cause) (raw : Bytes) : Prop :=
  cause = .announce ∧ ∃ destHash path hash cachedRaw, s.pathTable.get destHash = some path ∧
    path.packetHash = some hash ∧ s.cached hash = some cachedRaw ∧
      s.pathResponseFromCachedAnnounce cachedRaw destHash path.hops = some raw

theorem searchPath_calm : Calm PathRequest s (s.searchPath m destination tag interfaceId) := by
  unfold searchPath
  dsimp only
  split
  · exact forwardPathRequest_calm
  split
  · split
    · exact .refl _ s
    have hadmitted : Calm PathRequest s
        (s.admitDiscoveryRequester m destination interfaceId).2 := admitDiscoveryRequester_quiet.calm
    split
    next s' h =>
      rw [h] at hadmitted
      exact hadmitted.trans forwardPathRequest_calm
    next s' h =>
      rw [h] at hadmitted
      exact hadmitted
  split
  · exact .foldl (fun _ _ => sendPathRequest_calm) _ _
  · exact .refl _ s

variable {requestorTransportId : Option (Octets 16)}

omit [Sha256] [Ed25519] [Hkdf] [DecidableEq F] in
theorem answerFromPath_quiet {s' : Actor F}
    (h : s.answerFromPath m destination requestorTransportId interfaceId = some s') :
    Quiet s.PathResponse s s' := by
  obtain ⟨path, hpath, h⟩ := bind_eq_some_iff.mp h
  have hget : s.pathTable.get destination = some path :=
    (filter_eq_some_iff.mp (ite_none_right_eq_some.mp hpath).2).1
  dsimp only at h
  split at h
  · exact some.inj h ▸ Quiet.refl _ s
  split at h
  · exact some.inj h ▸ Quiet.refl _ s
  obtain ⟨raw, hraw, h⟩ := bind_eq_some_iff.mp h
  obtain ⟨hash, hhash, hcached⟩ := bind_eq_some_iff.mp hraw
  have hstored : s.cached hash = some raw := (ite_none_right_eq_some.mp hcached).2
  split at h
  · exact some.inj h ▸ Quiet.refl _ s
  next response hresponse =>
    obtain rfl := some.inj h
    have hqueued : s.PathResponse .announce response :=
      ⟨rfl, destination, path, hash, raw, hget, hhash, hstored, hresponse⟩
    exact ⟨queuePathResponse_calm hqueued, { Steady.refl s with }⟩

theorem resolvePathRequest_calm :
    Calm (fun c r => s.PathResponse c r ∨ PathRequest c r) s
      (s.resolvePathRequest m destination requestorTransportId tag interfaceId) := by
  unfold resolvePathRequest
  split
  · exact deliver_calm _
  dsimp only
  generalize hwaiting : { s with pendingLocalPathRequests := _ } = waiting
  have hwait : Calm (fun c r => s.PathResponse c r ∨ PathRequest c r) s waiting :=
    hwaiting ▸ { Calm.refl _ s with }
  have hresponse : waiting.PathResponse = s.PathResponse := hwaiting ▸ rfl
  rcases hanswer : waiting.answerFromPath m destination requestorTransportId interfaceId with
    _ | answered
  · exact hwait.trans (searchPath_calm.mono fun _ _ => Or.inr)
  · exact hwait.trans ((answerFromPath_quiet hanswer).calm.mono fun _ _ h => .inl (hresponse ▸ h))

/-- A request for a path brings in path responses and requests of the node's own. -/
theorem handleInboundPathRequest_calm {data : Bytes} :
    Calm (fun c r => s.PathResponse c r ∨ PathRequest c r) s
      (s.handleInboundPathRequest m data interfaceId) := by
  unfold handleInboundPathRequest
  split
  · exact .refl _ s
  dsimp only
  split
  · exact .refl _ s
  · have htagged (discoveryPrTags : Table Bytes F) :
        Calm (fun c r => s.PathResponse c r ∨ PathRequest c r) s { s with discoveryPrTags } :=
      { Calm.refl _ s with }
    exact (htagged _).trans (resolvePathRequest_calm.mono fun _ _ h => h)

end

end Actor

end Reticulum.Transport
