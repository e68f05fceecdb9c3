import Reticulum.Foundation.Binary64
import Reticulum.Foundation.Table
import Reticulum.Transport.Forwarding

/-!
# The tables of a transport node

Paths, transit links, reverse routes, seen packets, queued announces and tunnels: `path_table.rs`,
`link_table.rs`, `reverse_table.rs`, `hashlist.rs`, `announce.rs` and `tunnel.rs` of the
`rns-transport` crate. Where the source reads the clock, the functions here take the time.
-/

namespace Reticulum.Transport

open Binary64 hiding max

variable {F : Type}

/-! ### Interface modes and roles -/

/-- `InterfaceMode`. -/
inductive InterfaceMode
  | full
  | pointToPoint
  | gateway
  | accessPoint
  | roaming
  | boundary
  | internal
  deriving DecidableEq, Repr

/-- `InterfaceRole`. -/
inductive InterfaceRole
  | normal
  | sharedServer
  | localClient
  | sharedInstancePeer
  deriving DecidableEq, Repr

/-! ### Paths -/

/-- `PATHFINDER_M`: the hop count at which packets are refused. -/
def pathfinderM : UInt8 := 128

/-- `MAX_RANDOM_BLOBS`. -/
def maxRandomBlobs : ℕ := 64

/-- `path_expiry`, with `AP_PATH_TIME`, `ROAMING_PATH_TIME` and `DESTINATION_TIMEOUT`. -/
def pathExpiry : InterfaceMode → ℕ
  | .accessPoint => 86400
  | .roaming => 21600
  | _ => 604800

/-- `announce_timebase`: the emission time in the last five bytes of a random blob. -/
def announceTimebase (randomBlob : Octets 10) : ℕ := ofBigEndian (randomBlob.1.drop 5)

/-- `path_timebase_from_random_blobs`. -/
def pathTimebaseFromRandomBlobs (randomBlobs : List (Octets 10)) : ℕ :=
  (randomBlobs.map announceTimebase).foldl max 0

/-- `PathEntry` of `path_table.rs`, with the fields that forwarding does not read. -/
structure RouteEntry (F : Type) extends PathEntry where
  timestamp : F
  expires : F
  randomBlobs : List (Octets 10)
  /-- The hash under which the announce is cached. -/
  packetHash : Option (Octets 32)

namespace RouteEntry

variable [Binary64 F]

/-- `PathEntry::new`. -/
def new (now : F) (nextHop : Option (Octets 16)) (hops : UInt8) (interfaceId : ℕ)
    (mode : InterfaceMode) : RouteEntry F where
  nextHop
  hops
  interfaceId
  timestamp := now
  expires := add now (ofRat (pathExpiry mode))
  randomBlobs := []
  packetHash := none

/-- `PathEntry::is_expired`. -/
def isExpired (e : RouteEntry F) (now : F) : Bool := lt e.expires now

/-- `PathEntry::touch`. -/
def touch (e : RouteEntry F) (now : F) : RouteEntry F :=
  let lifetime :=
    if lt e.timestamp e.expires then sub e.expires e.timestamp
    else ofRat (pathExpiry .full)
  { e with timestamp := now, expires := add now lifetime }

end RouteEntry

/-- `PathState`. -/
inductive PathState
  | unknown
  | unresponsive
  | responsive
  deriving DecidableEq, Repr

/-- `PathTable`. -/
structure PathTable (F : Type) where
  entries : Table (Octets 16) (RouteEntry F)
  states : Table (Octets 16) PathState

namespace PathTable

variable (t : PathTable F)

/-- `PathTable::insert`. -/
def insert (destHash : Octets 16) (entry : RouteEntry F) : PathTable F where
  entries := t.entries.insert destHash entry
  states := t.states.erase destHash

/-- `PathTable::get`. -/
def get (destHash : Octets 16) : Option (RouteEntry F) := t.entries.get destHash

/-- `PathTable::remove`. -/
def remove (destHash : Octets 16) : PathTable F where
  entries := t.entries.erase destHash
  states := t.states.erase destHash

/-- `PathTable::get_state`. -/
def getState (destHash : Octets 16) : PathState := (t.states.get destHash).getD .unknown

/-- `PathTable::set_state`. -/
def setState (destHash : Octets 16) (state : PathState) : PathTable F :=
  { t with states := t.states.insert destHash state }

/-- `PathTable::drop_all_via`. -/
def dropAllVia (interfaceId : ℕ) : PathTable F :=
  { t with entries := t.entries.retain fun _ e => e.interfaceId ≠ interfaceId }

/-- `PathTable::cull_dead_interfaces`. -/
def cullDeadInterfaces (active : ℕ → Bool) : PathTable F :=
  let entries := t.entries.retain fun _ e => active e.interfaceId
  { entries, states := t.states.retain fun hash _ => entries.contains hash }

variable [Binary64 F]

/-- `PathTable::get_live`. -/
def getLive (now : F) (destHash : Octets 16) : Option (RouteEntry F) :=
  (t.entries.get destHash).filter fun e => !e.isExpired now

/-- `PathTable::get_live_mut` and `PathEntry::touch`. -/
def touchLive (now : F) (destHash : Octets 16) : PathTable F :=
  { t with entries := t.entries.modify destHash fun e =>
      if e.isExpired now then e else e.touch now }

/-- `PathTable::cull_expired`. -/
def cullExpired (now : F) : PathTable F :=
  let entries := t.entries.retain fun _ e => !e.isExpired now
  { entries, states := t.states.retain fun hash _ => entries.contains hash }

/-- `PathTable::expire`. -/
def expire (now : F) (destHash : Octets 16) : PathTable F :=
  if t.entries.contains destHash then
    let expired := t.entries.modify destHash fun e => { e with expires := ofRat 0 }
    PathTable.cullExpired { t with entries := expired } now
  else t

/-- `PathTable::cull_expired_batch`. -/
def cullExpiredBatch (now : F) (limit : ℕ) : PathTable F :=
  ((t.entries.toList.filter fun e => e.2.isExpired now).take limit).foldl
    (fun t e => t.remove e.1) t

end PathTable

/-! ### Transit links -/

/-- `LinkEntry`. An owner is the identity of an interface registration. -/
structure LinkEntry (F : Type) where
  timestamp : F
  nextHop : Option (Octets 16)
  interfaceId : ℕ
  remainingHops : UInt8
  destinationHash : Octets 16
  established : Bool
  validated : Bool
  proofTimeout : F
  receivingInterface : ℕ
  takenHops : UInt8
  interfaceOwner : Option ℕ
  receivingOwner : Option ℕ
  requestedMode : ℕ
  acceptedMtuCeiling : ℕ

/-- `LINK_TIMEOUT`. -/
def linkTimeout : ℚ := 900

section

variable [Binary64 F]

/-- `pending_link_proof_deadline`. -/
def pendingLinkProofDeadline (now : F) (remainingHops : UInt8) : F :=
  add now (mul (ofRat 6) (ofRat (max remainingHops 1).toNat))

/-- `interface_round_trip_allowance`. -/
def interfaceRoundTripAllowance (bitrate : Option ℕ) : F :=
  match bitrate.filter (0 < ·) with
  | none => ofRat 0
  | some rate => div (mul (ofRat 2) (ofRat (Wire.mtu * 8 : ℕ)))
      (ofRat (max rate 5 : ℕ))

/-- `transit_link_proof_deadline`. -/
def transitLinkProofDeadline (now : F) (remainingHops : UInt8) (bitrate : Option ℕ) : F :=
  add (pendingLinkProofDeadline now remainingHops) (interfaceRoundTripAllowance bitrate)

/-- Whether an unvalidated link may no longer be used. -/
def LinkEntry.proofExpired (e : LinkEntry F) (now : F) : Bool :=
  le e.proofTimeout now || !isFinite e.proofTimeout

end

/-- `LinkTable`. -/
def LinkTable (F : Type) : Type := Table (Octets 16) (LinkEntry F)

namespace LinkTable

variable (t : LinkTable F)

/-- `LinkTable::get`. -/
def get (linkId : Octets 16) : Option (LinkEntry F) := Table.get t linkId

/-- `LinkTable::contains`. -/
def contains (linkId : Octets 16) : Bool := Table.contains t linkId

/-- `LinkTable::insert`. -/
def insert (linkId : Octets 16) (entry : LinkEntry F) : LinkTable F := Table.insert t linkId entry

/-- An update through `LinkTable::get_mut`. -/
def modify (linkId : Octets 16) (f : LinkEntry F → LinkEntry F) : LinkTable F :=
  Table.modify t linkId f

variable {linkId linkId' : Octets 16}

theorem get_insert {t : LinkTable F} {entry : LinkEntry F} :
    (t.insert linkId entry).get linkId' = if linkId' = linkId then some entry else t.get linkId' :=
  Table.get_insert

theorem get_modify {t : LinkTable F} {f : LinkEntry F → LinkEntry F} :
    (t.modify linkId f).get linkId' =
      if linkId' = linkId then (t.get linkId').map f else t.get linkId' :=
  Table.get_modify

/-- `LinkTable::len`. -/
def size : ℕ := Table.size t

/-- `LinkTable::remove_interface`. -/
def removeInterface (interfaceId : ℕ) : LinkTable F :=
  Table.retain (fun _ e => e.interfaceId ≠ interfaceId ∧ e.receivingInterface ≠ interfaceId) t

/-- `LinkTable::cull_dead_interfaces`. -/
def cullDeadInterfaces (active : ℕ → Bool) : LinkTable F :=
  Table.retain (fun _ e => active e.interfaceId && active e.receivingInterface) t

variable [Binary64 F]

/-- Whether `LinkTable::cull_stale` keeps an entry. -/
def keeps (now : F) (e : LinkEntry F) : Bool :=
  if e.validated then lt (sub now (ofRat linkTimeout)) e.timestamp
  else !e.proofExpired now

/-- `LinkTable::cull_stale`, with the unvalidated links that it removes. -/
def cullStale (now : F) : LinkTable F × List (LinkEntry F) :=
  (Table.retain (fun _ e => keeps now e) t,
    (Table.values t).filter fun e => !e.validated && !keeps now e)

end LinkTable

/-! ### Reverse routes -/

/-- `ReverseEntry`. -/
structure ReverseEntry (F : Type) where
  timestamp : F
  receivingInterface : ℕ
  remainingHops : UInt8
  outboundInterface : Option ℕ
deriving DecidableEq

/-- `REVERSE_TIMEOUT`. -/
def reverseTimeout : ℚ := 480

/-- `ReverseTable::cull_expired_batch`. -/
def cullExpiredReverse [Binary64 F] (t : Table (Octets 16) (ReverseEntry F)) (now : F)
    (limit : ℕ) : Table (Octets 16) (ReverseEntry F) :=
  let cutoff := sub now (ofRat reverseTimeout)
  ((t.toList.filter fun e => le e.2.timestamp cutoff).take limit).foldl
    (fun t e => t.erase e.1) t

/-- `ReverseTable::cull_dead_interfaces`. -/
def cullDeadReverse (t : Table (Octets 16) (ReverseEntry F)) (active : ℕ → Bool) :
    Table (Octets 16) (ReverseEntry F) :=
  t.retain fun _ e => active e.receivingInterface && e.outboundInterface.all active

/-! ### Seen packets -/

/-- `PacketHashlist`: two generations of hashes. -/
structure PacketHashlist where
  current : List (Octets 32)
  previous : List (Octets 32)
  maxSize : ℕ
  deriving DecidableEq

namespace PacketHashlist

variable (l : PacketHashlist)

/-- `PacketHashlist::contains`. -/
def contains (hash : Octets 32) : Bool := l.current.contains hash || l.previous.contains hash

/-- `PacketHashlist::force_rotate`. -/
def forceRotate : PacketHashlist := { l with current := [], previous := l.current }

/-- `PacketHashlist::insert`: whether the hash is new, and the list with it. -/
def insert (hash : Octets 32) : Bool × PacketHashlist :=
  if l.contains hash then (false, l)
  else
    let l := if l.maxSize / 2 ≤ l.current.length then l.forceRotate else l
    (true, { l with current := hash :: l.current })

variable {l} {hash : Octets 32}

theorem insert_of_contains (h : l.contains hash = true) : l.insert hash = (false, l) := by
  rw [insert, if_pos h]

theorem insert_fst : (l.insert hash).1 = !l.contains hash := by
  cases h : l.contains hash <;> simp [insert, h]

/-- An inserted hash is known. -/
theorem contains_insert_self : (l.insert hash).2.contains hash = true := by
  by_cases h : l.contains hash = true
  · rw [insert_of_contains h]
    exact h
  · rw [insert, if_neg h]
    simp [contains]

end PacketHashlist

/-! ### Announces to send again -/

/-- `AnnounceEntry`. -/
structure AnnounceEntry (F : Type) where
  timestamp : F
  retransmitTimeout : F
  retries : ℕ
  receivedFrom : Octets 16
  hops : UInt8
  packetRaw : Bytes
  localRebroadcasts : ℕ
  blockRebroadcast : Bool
  attachedInterface : Option ℕ
  sourceInterface : Option ℕ

/-- `PATHFINDER_R`. -/
def pathfinderR : ℕ := 1

/-- `LOCAL_REBROADCASTS_MAX`. -/
def localRebroadcastsMax : ℕ := 2

/-- `AnnounceTable::due_for_retransmit`. -/
def dueForRetransmit [Binary64 F] (t : Table (Octets 16) (AnnounceEntry F)) (now : F) :
    List (Octets 16) :=
  (t.toList.filter fun e => (!e.2.blockRebroadcast || e.2.attachedInterface.isSome) &&
    le e.2.retransmitTimeout now).map Prod.fst

/-- `AnnounceTable::cull_exhausted`. -/
def cullExhausted (t : Table (Octets 16) (AnnounceEntry F)) (maxRetries : ℕ) :
    Table (Octets 16) (AnnounceEntry F) :=
  t.retain fun _ e => e.retries ≤ maxRetries

/-! ### Tunnels -/

/-- `TunnelPath`. -/
structure TunnelPath (F : Type) where
  timestamp : F
  nextHop : Option (Octets 16)
  hops : UInt8
  expires : F
  randomBlobs : List (Octets 10)
  packetHash : Option (Octets 32)

/-- `TunnelEntry`. -/
structure TunnelEntry (F : Type) where
  interfaceId : Option ℕ
  tunnelPaths : Table (Octets 16) (TunnelPath F)
  expires : F

/-- `TunnelTable`. -/
structure TunnelTable (F : Type) where
  entries : Table (Octets 32) (TunnelEntry F)
  byInterface : Table ℕ (Octets 32)

/-- `TUNNEL_TIMEOUT` and `TUNNEL_PATH_TIMEOUT`. -/
def tunnelTimeout : ℚ := 28800

namespace TunnelTable

variable (t : TunnelTable F)

/-- `TunnelTable::void_interface`. -/
def voidInterface (interfaceId : ℕ) : TunnelTable F where
  byInterface := t.byInterface.erase interfaceId
  entries := t.entries.mapValues fun _ e =>
    if e.interfaceId = some interfaceId then { e with interfaceId := none } else e

variable [Binary64 F]

/-- `TunnelTable::get_mut_by_interface` and the insertion of a path learned on the interface. -/
def learn (now : F) (interfaceId : ℕ) (destHash : Octets 16) (path : TunnelPath F) :
    TunnelTable F :=
  match t.byInterface.get interfaceId with
  | none => t
  | some tunnelId =>
    { t with entries := t.entries.modify tunnelId fun e =>
        { e with
          tunnelPaths := e.tunnelPaths.insert destHash path
          expires := add now (ofRat tunnelTimeout) } }

/-- `handle_tunnel`. -/
def handleTunnel (now : F) (tunnelId : Octets 32) (interfaceId : ℕ) : TunnelTable F :=
  let expires := add now (ofRat tunnelTimeout)
  { byInterface := t.byInterface.insert interfaceId tunnelId
    entries :=
      if t.entries.contains tunnelId then
        t.entries.modify tunnelId fun e => { e with interfaceId := some interfaceId, expires }
      else t.entries.insert tunnelId
        { interfaceId := some interfaceId, tunnelPaths := ∅, expires } }

/-- `TunnelTable::cull_expired_batch`. -/
def cullExpiredBatch (now : F) (limit : ℕ) : TunnelTable F :=
  let isStale (e : TunnelEntry F) : Bool :=
    le e.expires now ||
      lt (add now (mul (ofRat 2) (ofRat tunnelTimeout)))
        e.expires
  { t with
    entries := ((t.entries.toList.filter fun e => isStale e.2).take limit).foldl
      (fun entries e => entries.erase e.1) t.entries }

end TunnelTable

/-! ### The timebase of a path -/

variable {blobs : List (Octets 10)}

/-- The timebase is the largest emission time, or zero. -/
theorem pathTimebase_le {bound : ℕ} :
    pathTimebaseFromRandomBlobs blobs ≤ bound ↔ ∀ b ∈ blobs, announceTimebase b ≤ bound := by
  have hfold : ∀ (l : List ℕ) (a : ℕ), l.foldl max a ≤ bound ↔ a ≤ bound ∧ ∀ x ∈ l, x ≤ bound := by
    intro l
    induction l with
    | nil => simp
    | cons x l ih =>
      intro a
      rw [List.foldl_cons, ih, max_le_iff, List.forall_mem_cons, and_assoc]
  rw [pathTimebaseFromRandomBlobs, hfold, List.forall_mem_map]
  simp

theorem le_pathTimebase {b : Octets 10} (h : b ∈ blobs) :
    announceTimebase b ≤ pathTimebaseFromRandomBlobs blobs :=
  pathTimebase_le.mp le_rfl b h

/-- A blob newer than all before it becomes the timebase, also when older ones are dropped. -/
theorem pathTimebase_append_of_lt {blobs kept : List (Octets 10)} {b : Octets 10}
    (hkept : kept ⊆ blobs) (h : pathTimebaseFromRandomBlobs blobs < announceTimebase b) :
    pathTimebaseFromRandomBlobs (kept ++ [b]) = announceTimebase b := by
  apply le_antisymm
  · refine pathTimebase_le.mpr fun c hc => ?_
    rcases List.mem_append.mp hc with hc | hc
    · exact (le_pathTimebase (hkept hc)).trans h.le
    · rw [List.mem_singleton.mp hc]
  · exact le_pathTimebase (by simp)

end Reticulum.Transport
