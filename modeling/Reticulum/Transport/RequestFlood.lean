import Reticulum.Transport.AnnounceRoutes
import Reticulum.Transport.Steady

/-!
# Floods of path requests end

A request for a path carries a tag, and nodes that search on for the path send it on under the same
tag. The layout of a request depends on whether its sender names itself, which a node only tells from
the length. What a node sends on is read by the next one as the same destination and tag. A node acts
on a destination and a tag once within the time of the gate, and then hands one copy at most to each
of its interfaces. So a flood has no more copies than the network has interfaces, over any topology.

## Main definitions

* `requestIn`, `carries` — the request in a packet.
* `Actor.copies` — the copies of a request that a node sent or has yet to send.
* `Actor.Contained` — work in which a node acts on a request once at most.
* `networkStep` — events at the nodes of a network.

## Main results

* `Actor.requestIn_buildPathRequestPacket` — a request is read as it was made.
* `Actor.advance_contained` — one event at a node.
* `path_request_flood_ends` — runs of a network.
-/

namespace Reticulum.Transport

open Wire Actor PacketHeader Binary64 List Option

variable {F : Type}

/-! ### Requests on the wire -/

section

variable [Sha256]

/-- The path request in a packet: its destination, the transport id of the requestor and the tag. -/
def requestIn (raw : Bytes) : Option (Octets 16 × Option (Octets 16) × Bytes) := do
  let (header, _) ← (unpack raw).toOption
  if header.flags.packetType = .data ∧ header.destinationHash = pathRequestDestHash then
    (dataPayload raw header).bind parsePathRequest
  else none

/-- The packet is a request for a path to the destination under the tag. -/
def carries (dest : Octets 16) (tag : Bytes) (raw : Bytes) : Bool :=
  (requestIn raw).any fun request => request.1 = dest && request.2.2 = tag

omit [Sha256] in
/-- The payload of a request is read as it was made. -/
theorem parsePathRequest_append (dest : Octets 16) (identity : Option (Octets 16)) {tag : Bytes}
    (hpos : tag ≠ []) (hlen : tag.length ≤ 16) :
    parsePathRequest (dest.1 ++ (identity.map Subtype.val).getD [] ++ tag) =
      some (dest, identity, tag) := by
  have hone : 0 < tag.length := length_pos_iff.mpr hpos
  unfold parsePathRequest
  cases identity with
  | none =>
    have hshort : ¬ 32 < (dest.1 ++ tag).length := by simp; omega
    have hlong : 16 < (dest.1 ++ tag).length := by simp; omega
    simp only [map_none, getD_none, append_nil, if_neg hshort, if_pos hlong,
      Octets.read_append, Octets.drop_append, take_of_length_le hlen]
  | some id =>
    have hlong : 32 < (dest.1 ++ (id.1 ++ tag)).length := by simp; omega
    have hdrop : (dest.1 ++ (id.1 ++ tag)).drop 32 = tag := by
      rw [← drop_drop (i := 16) (j := 16), Octets.drop_append, Octets.drop_append]
    simp only [map_some, getD_some, append_assoc, if_pos hlong,
      Octets.read_append, Octets.drop_append, hdrop, take_of_length_le hlen]

namespace Actor

/-- A packet under the header of a request. -/
theorem unpack_pathRequestHeader (payload : Bytes) :
    unpack (pathRequestHeader.pack ++ payload) = .ok (pathRequestHeader, 19) ∧
      dataPayload (pathRequestHeader.pack ++ payload) pathRequestHeader = some payload := by
  have hlayout : (PacketFlags.unpack pathRequestHeader.flags.pack).headerType = .header2 ↔
      pathRequestHeader.transportId.isSome := by
    rw [PacketFlags.unpack_pack]
    exact iff_of_false nofun nofun
  have hlen : pathRequestHeader.pack.length = headerMinsize := length_pack _
  constructor
  · rw [pack_append, unpack_frame hlayout, PacketFlags.unpack_pack]
    rfl
  · have hdrop : (pathRequestHeader.pack ++ payload).drop headerMinsize = payload := by
      rw [← hlen, drop_left]
    have hle : headerMinsize ≤ (pathRequestHeader.pack ++ payload).length := by
      rw [length_append, hlen]
      exact Nat.le_add_right _ _
    exact (if_pos hle).trans (congrArg some hdrop)

variable (s : Actor F)

/-- A request is read as it was made, whether or not its sender names itself. -/
theorem requestIn_buildPathRequestPacket (dest : Octets 16) {tag : Option Bytes}
    (htag : tag ≠ some []) (randomTag : Octets 16) :
    requestIn (s.buildPathRequestPacket dest tag randomTag) =
      some (dest, if s.isTransportEnabled then s.transportIdentityHash else none,
        (tag.map (·.take 16)).getD randomTag.1) := by
  have hdrawn : (tag.map (·.take 16)).getD randomTag.1 ≠ [] ∧
      ((tag.map (·.take 16)).getD randomTag.1).length ≤ 16 := by
    cases tag with
    | none => exact ⟨fun h => by simpa using congrArg List.length h, randomTag.2.le⟩
    | some tag =>
      have hne : tag ≠ [] := fun h => htag (congrArg some h)
      simp [hne]
  obtain ⟨hunpack, hpayload⟩ := unpack_pathRequestHeader (dest.1 ++
    ((if s.isTransportEnabled then s.transportIdentityHash else none).map Subtype.val).getD [] ++
    (tag.map (·.take 16)).getD randomTag.1)
  unfold buildPathRequestPacket requestIn
  dsimp only
  rw [hunpack]
  change (if _ then _ else none) = _
  rw [if_pos ⟨rfl, rfl⟩, hpayload]
  exact parsePathRequest_append dest _ hdrawn.1 hdrawn.2

/-- A node that receives a request hands its payload to the code for requests. -/
theorem dispatch_pathRequest [Ed25519] [Hkdf] [DecidableEq F] [Binary64 F] (m : Moment F)
    {raw payload : Bytes} {header : PacketHeader} (dataOffset interfaceId : ℕ)
    (hflags : header.flags = pathRequestHeader.flags)
    (hdest : header.destinationHash = pathRequestDestHash)
    (hpayload : dataPayload raw header = some payload) :
    s.dispatch m raw header dataOffset interfaceId =
      s.handleInboundPathRequest m payload interfaceId := by
  have hshare : s.shareBroadcast raw header interfaceId = s := by
    unfold shareBroadcast
    exact if_neg fun h => h.1 (.inl hdest)
  have hroute : s.routeLinkPacketViaLinkTable m raw header interfaceId = (false, s) := by
    unfold routeLinkPacketViaLinkTable
    rw [hflags]
    exact if_pos (.inl nofun)
  unfold dispatch
  rw [hflags]
  change s.processData m raw header interfaceId = _
  unfold processData
  dsimp only
  rw [hshare]
  unfold routeData
  rw [hroute]
  dsimp only
  rw [if_pos hdest, hpayload]

theorem carries_buildPathRequestPacket (dest dest' : Octets 16) (tag' : Bytes)
    {tag : Option Bytes} (htag : tag ≠ some []) (randomTag : Octets 16) :
    carries dest' tag' (s.buildPathRequestPacket dest tag randomTag) =
      (decide (dest = dest') && decide ((tag.map (·.take 16)).getD randomTag.1 = tag')) := by
  rw [carries, requestIn_buildPathRequestPacket s dest htag]
  rfl

end Actor

end

/-! ### Copies of a request -/

variable {n : ℕ}

namespace Actor

/-- A node without local clients. -/
def Clientless (s : Actor F) : Prop :=
  ∀ id entry, s.interfaces.get id = some entry → entry.role ≠ .localClient

theorem Clientless.last {s s' : Actor F} (hs : s.Clientless)
    (h : InterfacesLast s.interfaces s'.interfaces) :
    s'.Clientless := by
  intro id entry' he
  obtain ⟨entry, he, hrole⟩ := h id entry' he
  rw [hrole]
  exact hs id entry he

theorem Clientless.not_isLocalClientInterface {s : Actor F} (hs : s.Clientless)
    (id : ℕ) : s.isLocalClientInterface id = false :=
  Bare.hasRole_eq_false fun entry he => hs id entry he

theorem Clientless.not_hasLocalClientInterfaces {s : Actor F} (hs : s.Clientless) :
    s.hasLocalClientInterfaces = false := by
  refine any_eq_false.mpr fun entry he => ?_
  obtain ⟨id, hget⟩ := Table.mem_values.mp he
  simpa using hs id entry hget

variable {requestor : Option (Octets 16)}

/-- The tag of a request that is read has one to 16 bytes. -/
theorem tag_of_parsePathRequest {destination : Octets 16} {data tag : Bytes}
    (h : parsePathRequest data = some (destination, requestor, tag)) :
    tag ≠ [] ∧ tag.take 16 = tag := by
  have hread {n : ℕ} (hn : n < data.length) :
      (data.drop n).take 16 ≠ [] ∧ ((data.drop n).take 16).take 16 = (data.drop n).take 16 := by
    refine ⟨fun hnil => ?_, take_of_length_le (length_take_le _ _)⟩
    have hlength := congrArg List.length hnil
    simp at hlength
    omega
  unfold parsePathRequest at h
  split at h
  next hlen => exact (Prod.mk.inj (Prod.mk.inj (some.inj h)).2).2 ▸ hread hlen
  split at h
  next hlen => exact (Prod.mk.inj (Prod.mk.inj (some.inj h)).2).2 ▸ hread hlen
  · cases h

section

variable [Sha256] (dest : Octets 16) (tag : Bytes)

/-- The copies of a request that the node has sent or keeps to send. -/
def copies (s : Actor F) : ℕ :=
  s.requestsSent.countP (carries dest tag ·.raw) +
    s.pendingPathRequestAdmissions.countP (carries dest tag ·.raw)

/-- Work that adds no more than `n` copies of a request, and leaves the gate alone. -/
structure Adds (n : ℕ) (s s' : Actor F) : Prop where
  tags : s'.discoveryPrTags = s.discoveryPrTags
  interfaces : InterfacesLast s.interfaces s'.interfaces
  copies : s'.copies dest tag ≤ s.copies dest tag + n

variable {dest tag} {n n' : ℕ} {s s' s'' : Actor F}

theorem Steady.adds (h : Steady s s') : Adds dest tag n s s' where
  tags := h.tags
  interfaces := h.interfaces
  copies := by
    unfold copies
    rw [h.sent]
    exact (Nat.add_le_add_left h.pending.countP_le _).trans (Nat.le_add_right _ _)

namespace Adds

theorem refl (s : Actor F) : Adds dest tag n s s := (Steady.refl s).adds

theorem mono (h : Adds dest tag n s s') (hn : n ≤ n') : Adds dest tag n' s s' :=
  { h with copies := h.copies.trans (Nat.add_le_add_left hn _) }

theorem trans (h : Adds dest tag n s s') (h' : Adds dest tag n' s' s'') :
    Adds dest tag (n + n') s s'' where
  tags := h'.tags.trans h.tags
  interfaces := h.interfaces.trans h'.interfaces
  copies := by
    have := h.copies
    have := h'.copies
    omega

theorem foldl {ι : Type} {f : Actor F → ι → Actor F} (hf : ∀ s i, Adds dest tag n s (f s i))
    (l : List ι) (s : Actor F) : Adds dest tag (l.length * n) s (l.foldl f s) := by
  induction l generalizing s with
  | nil => exact .refl s
  | cons i l ih =>
    have h := (hf s i).trans (ih _)
    rwa [Nat.add_comm, ← Nat.succ_mul] at h

theorem iterate {f : Actor F → Actor F} (hf : ∀ s, Adds dest tag 0 s (f s)) (n : ℕ)
    (s : Actor F) : Adds dest tag 0 s (f^[n] s) := by
  induction n generalizing s with
  | zero => exact .refl s
  | succ n ih => exact (hf s).trans (ih _)

/-- A request waits. -/
theorem wait (h : Adds dest tag n s s') (p : PendingAdmission F) :
    Adds dest tag (n + (carries dest tag p.raw).toNat) s { s' with
      pendingPathRequestAdmissions := s'.pendingPathRequestAdmissions ++ [p] } := by
  refine { h with copies := ?_ }
  have hcopies : Actor.copies dest tag { s' with
      pendingPathRequestAdmissions := s'.pendingPathRequestAdmissions ++ [p] } =
      s'.copies dest tag + (carries dest tag p.raw).toNat := by
    cases hp : carries dest tag p.raw <;> simp [Actor.copies, requestsSent, hp, Nat.add_assoc]
  have := h.copies
  omega

/-- A request is sent. -/
theorem transmit (h : Adds dest tag n s s') (id : ℕ) (raw : Bytes) :
    Adds dest tag (n + (carries dest tag raw).toNat) s { s' with
      transmissions := s'.transmissions ++ [⟨.pathRequest, id, raw⟩] } := by
  refine { h with copies := ?_ }
  have hcopies : Actor.copies dest tag { s' with
      transmissions := s'.transmissions ++ [⟨.pathRequest, id, raw⟩] } =
      s'.copies dest tag + (carries dest tag raw).toNat := by
    cases hraw : carries dest tag raw <;>
      simp [Actor.copies, requestsSent, hraw, Nat.add_right_comm]
  have := h.copies
  omega

end Adds

/-! ### Admission -/

variable [Ed25519] [Hkdf] [DecidableEq F] [Binary64 F] {m : Moment F} {destination : Octets 16}
  {interface interfaceId : ℕ} {raw : Bytes} {recursive : Bool}

/-- A request that an interface takes is one more copy, and otherwise nothing is sent. -/
theorem tryAdmitPathRequest_cases {outcome : Admission} (dest : Octets 16) (tag : Bytes)
    (h : s.tryAdmitPathRequest m destination interface raw recursive = (outcome, s')) :
    outcome = .sent ∧ Adds dest tag (carries dest tag raw).toNat s s' ∨
      outcome ≠ .sent ∧ Steady s s' := by
  obtain ⟨rfl, entry, interfaces, _, hentry, -, hget, rfl⟩ | ⟨rfl, rfl⟩ | ⟨hne, rfl⟩ :=
    tryAdmitPathRequest_eq h
  · have htaken : Adds dest tag 0 s { s with interfaces } :=
      ((Steady.refl s).set_interfaces (.update hentry hget rfl)).adds
    have hsent := htaken.transmit interface raw
    rw [Nat.zero_add] at hsent
    exact .inl ⟨rfl, { hsent with }⟩
  · exact .inr ⟨nofun, deregisterInterface_steady s _⟩
  · exact .inr ⟨hne, .refl _⟩

variable (s) (m) (destination)

theorem admitPathRequest_adds (interface : ℕ) (raw : Bytes) (recursive : Bool) :
    Adds dest tag (carries dest tag raw).toNat s
      (s.admitPathRequest m destination interface raw recursive) := by
  obtain heq | ⟨outcome, htry⟩ | ⟨p, hp, -, -, heq⟩ :=
    s.admitPathRequest_cases m destination interface raw recursive
  · rw [heq]
    exact .refl s
  · obtain ⟨-, hsent⟩ | ⟨-, hsteady⟩ := tryAdmitPathRequest_cases dest tag htry
    · exact hsent
    · exact hsteady.adds
  · rw [heq, ← hp.2.1]
    exact ((Adds.refl s).wait p).mono (Nat.zero_add _).le

variable {drawn : Option Bytes}

/-- A request of the node is a copy if it has the destination and the tag. -/
theorem sendPathRequest_adds (interface : ℕ)
    (hdrawn : drawn ≠ some []) (recursive : Bool)
    (hn : destination = dest → (drawn.map (·.take 16)).getD (m.randomTag interface).1 = tag → 1 ≤ n) :
    Adds dest tag n s (s.sendPathRequest m destination interface drawn recursive) := by
  refine (admitPathRequest_adds s m destination interface _ recursive).mono ?_
  rw [carries_buildPathRequestPacket s destination dest tag hdrawn]
  by_cases hdest : destination = dest
  · by_cases htag : (drawn.map (·.take 16)).getD (m.randomTag interface).1 = tag
    · simpa [hdest, htag] using hn hdest htag
    · simp [htag]
  · simp [hdest]

/-- One copy at most on every interface. -/
theorem forwardPathRequest_adds
    (except : Option ℕ) (hdrawn : drawn ≠ some []) (recursive : Bool)
    (hn : destination = dest →
      ∀ id, (drawn.map (·.take 16)).getD (m.randomTag id).1 = tag → 1 ≤ n) :
    Adds dest tag (s.interfaces.size * n) s
      (s.forwardPathRequest m destination except drawn recursive) := by
  unfold forwardPathRequest
  refine (Adds.foldl (n := n) (fun s id => ?_) _ s).mono (Nat.mul_le_mul_right n ?_)
  · exact sendPathRequest_adds s m destination id hdrawn recursive fun hdest => hn hdest id
  · rw [length_map]
    exact length_filter_le _ _

/-- A request that waited is sent, or goes on waiting, or is given up. -/
theorem pollPendingPathRequest_adds : Adds dest tag 0 s (s.pollPendingPathRequest m) := by
  obtain heq | ⟨pending, rest, hpending, hcases⟩ := s.pollPendingPathRequest_cases m
  · rw [heq]
    exact .refl s
  have hcopies : s.copies dest tag = copies dest tag
      { s with pendingPathRequestAdmissions := rest } +
        (carries dest tag pending.raw).toNat := by
    cases hp : carries dest tag pending.raw <;>
      simp [copies, requestsSent, hpending, hp, Nat.add_assoc]
  -- What is done with the request adds it once at most to what is left.
  have htaken {s' : Actor F} (h : Adds dest tag (carries dest tag pending.raw).toNat
      { s with pendingPathRequestAdmissions := rest } s') : Adds dest tag 0 s s' :=
    { h with copies := h.copies.trans hcopies.ge }
  obtain heq | ⟨nextTry, heq⟩ | ⟨-, outcome, -, htry⟩ := hcases
  · rw [heq]
    exact htaken (.refl _)
  · rw [heq]
    exact htaken (((Adds.refl _).wait { pending with nextTry }).mono (Nat.zero_add _).le)
  · obtain ⟨-, hsent⟩ | ⟨-, hsteady⟩ := tryAdmitPathRequest_cases dest tag htry
    · exact htaken hsent
    · exact htaken (hsteady.adds)

theorem processPendingPathRequestAdmissions_adds :
    Adds dest tag 0 s (s.processPendingPathRequestAdmissions m) :=
  .iterate (fun s => pollPendingPathRequest_adds s m) _ s

/-! ### Answers and searches -/

variable {s}

/-- Without local clients, a search sends on the request that it is for. -/
theorem searchPath_adds (hs : s.Clientless) (m : Moment F) (requestedDest : Octets 16)
    {tag' : Bytes} (htag : tag' ≠ []) (hlen : tag'.take 16 = tag') (interfaceId : ℕ)
    (hn : requestedDest = dest → tag' = tag → 1 ≤ n) :
    Adds dest tag (s.interfaces.size * n) s (s.searchPath m requestedDest tag' interfaceId) := by
  have hforward (s : Actor F) : Adds dest tag (s.interfaces.size * n) s
      (s.forwardPathRequest m requestedDest (some interfaceId) (some tag') true) := by
    refine forwardPathRequest_adds s m requestedDest _ (by simpa using htag) true fun hdest _ h => ?_
    exact hn hdest (hlen.symm.trans h)
  have hself : Adds dest tag (s.interfaces.size * n) s s :=
    .refl s
  unfold searchPath
  rw [hs.not_isLocalClientInterface, hs.not_hasLocalClientInterfaces]
  dsimp only
  rw [if_neg Bool.false_ne_true]
  split
  · split
    · exact hself
    have hadmitted : Steady s (s.admitDiscoveryRequester m requestedDest interfaceId).2 :=
      (admitDiscoveryRequester_quiet (Q := fun _ _ => False)).steady
    split
    next s' h =>
      rw [h] at hadmitted
      refine ((hadmitted.adds (n := 0)).trans (hforward s')).mono ?_
      rw [Nat.zero_add]
      exact Nat.mul_le_mul_right n hadmitted.interfaces.size_le
    next s' h =>
      rw [h] at hadmitted
      exact hadmitted.adds
  · rw [if_neg Bool.false_ne_true]
    exact hself

theorem resolvePathRequest_adds (hs : s.Clientless) (m : Moment F) (requestedDest : Octets 16)
    (requestorTransportId : Option (Octets 16)) {tag' : Bytes} (htag : tag' ≠ [])
    (hlen : tag'.take 16 = tag') (interfaceId : ℕ)
    (hn : requestedDest = dest → tag' = tag → 1 ≤ n) :
    Adds dest tag (s.interfaces.size * n) s
      (s.resolvePathRequest m requestedDest requestorTransportId tag' interfaceId) := by
  unfold resolvePathRequest
  split
  · exact (deliver_steady s _ _).adds
  dsimp only
  generalize hwaiting : { s with pendingLocalPathRequests := _ } = waiting
  have hsize : waiting.interfaces = s.interfaces := hwaiting ▸ rfl
  have hwait : Steady s waiting := hwaiting ▸ { Steady.refl s with }
  rcases hanswer : waiting.answerFromPath m requestedDest requestorTransportId interfaceId with
    _ | answered
  · have hsearch := searchPath_adds (hs.last hwait.interfaces) m requestedDest htag hlen
      interfaceId hn
    rw [hsize] at hsearch
    exact (hwait.adds.trans hsearch).mono (Nat.zero_add _).le
  · exact (hwait.trans (answerFromPath_quiet hanswer).steady).adds

end

/-! ### The gate -/

section

variable [Sha256] (dest : Octets 16) (tag : Bytes) (T : F → Prop)

/-- The node has the tag of a request with one of the times `T`. -/
def Tagged (s : Actor F) : Prop :=
  ∃ last, T last ∧ s.discoveryPrTags.get (dest.1 ++ tag) = some last

/-- Work in which a node acts on a request once at most, with `n` copies of its own: the request
keeps its time in the gate, and one copy for each interface is added only when the request is new. -/
structure Contained (n : ℕ) (s s' : Actor F) : Prop where
  seen : ∀ last, T last → s.discoveryPrTags.get (dest.1 ++ tag) = some last →
    s'.discoveryPrTags.get (dest.1 ++ tag) = some last
  interfaces : InterfacesLast s.interfaces s'.interfaces
  copies : s'.copies dest tag ≤ s.copies dest tag + n ∨
    ¬ s.Tagged dest tag T ∧ s'.Tagged dest tag T ∧
      s'.copies dest tag ≤ s.copies dest tag + n + s.interfaces.size

variable {dest tag T} {n n' : ℕ} {s s' s'' : Actor F}

theorem Adds.contained (h : Adds dest tag n s s') : Contained dest tag T n s s' where
  seen last _ hlast := by rw [h.tags, hlast]
  interfaces := h.interfaces
  copies := .inl h.copies

theorem Steady.contained (h : Steady s s') : Contained dest tag T 0 s s' := h.adds.contained

variable {tags : Table Bytes F}

namespace Contained

theorem refl (s : Actor F) : Contained dest tag T 0 s s := (Steady.refl s).contained

theorem tagged (h : Contained dest tag T n s s') (hs : s.Tagged dest tag T) : s'.Tagged dest tag T := by
  obtain ⟨last, hlast, hget⟩ := hs
  exact ⟨last, hlast, h.seen last hlast hget⟩

/-- A node acts once in two pieces of work. -/
theorem trans (h : Contained dest tag T n s s') (h' : Contained dest tag T n' s' s'') :
    Contained dest tag T (n + n') s s'' where
  seen last hlast hget := h'.seen last hlast (h.seen last hlast hget)
  interfaces := h.interfaces.trans h'.interfaces
  copies := by
    have hsize := h.interfaces.size_le
    rcases h.copies with hc | ⟨hnew, hseen, hc⟩
    · rcases h'.copies with hc' | ⟨hnew', hseen', hc'⟩
      · exact .inl (by omega)
      · exact .inr ⟨fun hs => hnew' (h.tagged hs), hseen', by omega⟩
    · rcases h'.copies with hc' | ⟨hnew', -, -⟩
      · exact .inr ⟨hnew, h'.tagged hseen, by omega⟩
      · exact absurd hseen hnew'

theorem mono (h : Contained dest tag T n s s') (hn : n ≤ n') : Contained dest tag T n' s s' where
  seen := h.seen
  interfaces := h.interfaces
  copies := by
    rcases h.copies with hc | ⟨hnew, hseen, hc⟩
    · exact .inl (by omega)
    · exact .inr ⟨hnew, hseen, by omega⟩

/-- Work that leaves requests alone comes first. -/
theorem of_steady (h : Steady s s') (h' : Contained dest tag T n s' s'') :
    Contained dest tag T n s s'' := by
  have hfirst : Contained dest tag T 0 s s' := h.contained
  exact Nat.zero_add n ▸ hfirst.trans h'

/-- The tags of the node change, but not those of the run. -/
theorem of_tags (h : Steady s s')
    (htags : ∀ last, T last → s.discoveryPrTags.get (dest.1 ++ tag) = some last →
      tags.get (dest.1 ++ tag) = some last) :
    Contained dest tag T 0 s { s' with discoveryPrTags := tags } where
  seen := htags
  interfaces := h.interfaces
  copies := .inl h.adds.copies

theorem foldl {ι : Type} {f : Actor F → ι → Actor F} {P : Actor F → Prop}
    (hP : ∀ s s', P s → Contained dest tag T 0 s s' → P s')
    (hf : ∀ s i, P s → Contained dest tag T 0 s (f s i)) (l : List ι) (s : Actor F) (hs : P s) :
    Contained dest tag T 0 s (l.foldl f s) := by
  induction l generalizing s with
  | nil => exact .refl s
  | cons i l ih => exact (hf s i hs).trans (ih _ (hP _ _ hs (hf s i hs)))

end Contained

variable [Ed25519] [Hkdf] [DecidableEq F] [Binary64 F] {m : Moment F}

/-- Times that are closer together than the gate. -/
def Close (T : F → Prop) : Prop :=
  ∀ now last, T now → T last →
    lt (sub now last) (ofRat pathRequestGateTimeout) = true

/-- A node ignores a request, or enters it in the gate. -/
theorem handleInboundPathRequest_ignores_or_enters (hs : s.Clientless) (m : Moment F)
    {data : Bytes} (hparse : parsePathRequest data = some (dest, requestor, tag))
    (interfaceId : ℕ) :
    s.handleInboundPathRequest m data interfaceId = s ∨
      (s.handleInboundPathRequest m data interfaceId).discoveryPrTags.get (dest.1 ++ tag) =
        some m.now := by
  obtain ⟨htag, hlen⟩ := tag_of_parsePathRequest hparse
  unfold handleInboundPathRequest
  rw [hparse]
  dsimp only
  split
  · exact .inl rfl
  · have hclients : Clientless { s with
        discoveryPrTags := s.discoveryPrTags.insert (dest.1 ++ tag) m.now } := hs
    have hadds : Adds dest tag (s.interfaces.size * 1) _ _ :=
      resolvePathRequest_adds hclients m dest requestor htag hlen interfaceId fun _ _ => le_rfl
    rw [hadds.tags]
    exact .inr Table.get_insert_self

/-- The gain that excludes nothing. -/
def anyGain : Gain F :=
  ⟨fun _ _ => True, fun _ _ => True, fun _ _ => True, fun _ _ => True, fun _ _ => True,
    fun _ => True, fun _ _ => True⟩

section

variable (hT : Close T) (hm : T m.now) (hs : s.Clientless)

include hT hm hs

/-- A request that is in the gate is ignored, any other is acted on and enters it. -/
theorem handleInboundPathRequest_contained (data : Bytes) (interfaceId : ℕ) :
    Contained dest tag T 0 s (s.handleInboundPathRequest m data interfaceId) := by
  unfold handleInboundPathRequest
  split
  · exact .refl s
  next requestedDest requestorTransportId tag' hparse =>
    obtain ⟨htag, hlen⟩ := tag_of_parsePathRequest hparse
    dsimp only
    split
    · exact .refl s
    next hopen =>
      have hclients : Clientless { s with
          discoveryPrTags := s.discoveryPrTags.insert (requestedDest.1 ++ tag') m.now } := hs
      by_cases hkey : requestedDest = dest ∧ tag' = tag
      · obtain ⟨rfl, rfl⟩ := hkey
        -- A time within the run would have closed the gate.
        have hnew : ¬ s.Tagged requestedDest tag' T := by
          rintro ⟨last, hlast, hget⟩
          rw [hget] at hopen
          exact hopen (hT m.now last hm hlast)
        have hadds : Adds requestedDest tag' (s.interfaces.size * 1) _ _ :=
          resolvePathRequest_adds hclients m requestedDest requestorTransportId htag hlen
            interfaceId fun _ _ => le_rfl
        have hentered : (resolvePathRequest { s with
            discoveryPrTags := s.discoveryPrTags.insert (requestedDest.1 ++ tag') m.now } m
              requestedDest requestorTransportId tag' interfaceId).discoveryPrTags.get
                (requestedDest.1 ++ tag') = some m.now := by
          rw [hadds.tags]
          exact Table.get_insert_self
        refine ⟨fun last hlast hget => absurd ⟨last, hlast, hget⟩ hnew, hadds.interfaces,
          .inr ⟨hnew, ⟨m.now, hm, hentered⟩, ?_⟩⟩
        exact hadds.copies.trans (by rw [Nat.mul_one]; exact le_rfl)
      · have hother : dest.1 ++ tag ≠ requestedDest.1 ++ tag' := by
          intro hsame
          obtain ⟨hdest, htags⟩ := append_inj hsame (by simp)
          exact hkey ⟨Subtype.ext hdest.symm, htags.symm⟩
        have hadds : Adds dest tag (s.interfaces.size * 0) _ _ :=
          resolvePathRequest_adds hclients m requestedDest requestorTransportId htag hlen
            interfaceId fun hdest htags => absurd ⟨hdest, htags⟩ hkey
        refine ⟨fun last _ hget => ?_, hadds.interfaces, .inl hadds.copies⟩
        rw [hadds.tags]
        exact (Table.get_insert_ne hother).trans hget

theorem routeData_contained (raw : Bytes) (header : PacketHeader) (interfaceId : ℕ)
    (fromLocalClient forLocalClient toLocalClient : Bool) :
    Contained dest tag T 0 s (s.routeData m raw header interfaceId fromLocalClient forLocalClient
      toLocalClient) := by
  have hrelayed : Steady s (s.routeLinkPacketViaLinkTable m raw header interfaceId).2 :=
    (routeLinkPacket_brings (g := anyGain) (fun _ _ => trivial) fun _ _ _ => trivial).steady
  unfold routeData
  split
  next s' h =>
    rw [h] at hrelayed
    exact hrelayed.contained
  next s' h =>
    rw [h] at hrelayed
    refine .of_steady hrelayed ?_
    split
    · split
      · exact .refl s'
      · exact handleInboundPathRequest_contained hT hm (hs.last hrelayed.interfaces) _ interfaceId
    split
    · exact (processTunnelSynthesis_brings (g := anyGain) fun _ _ _ => trivial).steady.contained
    split
    · exact handleCacheRequest_quiet.steady.contained
    split
    · exact (deliver_steady s' _ _).contained
    · exact (forwardData_brings (g := anyGain) (fun _ _ _ _ _ _ => trivial)
        fun _ _ _ => trivial).steady.contained

theorem dispatch_contained (raw : Bytes) (header : PacketHeader) (dataOffset interfaceId : ℕ) :
    Contained dest tag T 0 s (s.dispatch m raw header dataOffset interfaceId) := by
  unfold dispatch
  split
  · exact processAnnounce_brings.steady.contained
  · exact processLinkRequest_brings.steady.contained
  · exact processProof_brings.steady.contained
  · have hshared : Steady s (s.shareBroadcast raw header interfaceId) := shareBroadcast_quiet.steady
    exact .of_steady hshared
      (routeData_contained hT hm (hs.last hshared.interfaces) raw header interfaceId _ _ _)

theorem onInboundInner_contained (origin : InboundOrigin) (raw : Bytes) (interfaceId : ℕ) :
    Contained dest tag T 0 s (s.onInboundInner m origin raw interfaceId) := by
  unfold onInboundInner
  split
  · exact .refl s
  next clear _ =>
    obtain hdrop | ⟨header, dataOffset, packetHashlist, -, -, -, hdispatch⟩ :=
      onClear_cases s m clear interfaceId
    · rw [hdrop]
      exact .refl s
    · rw [hdispatch]
      have hlisted : Steady s { s with packetHashlist } := { Steady.refl s with }
      exact .of_steady hlisted
        (dispatch_contained hT hm (hs.last hlisted.interfaces) clear _ dataOffset interfaceId)

/-! ### Ticks -/

theorem checkHeldAnnounces_contained : Contained dest tag T 0 s (s.checkHeldAnnounces m) := by
  have hheld (s : Actor F) (id : ℕ) (hs : s.Clientless) :
      Contained dest tag T 0 s (s.processHeldAnnounce m id) := by
    unfold processHeldAnnounce
    split
    · exact .refl s
    next announce entry' hrelease =>
      obtain ⟨entry, he, hrelease⟩ := bind_eq_some_iff.mp hrelease
      have hrole : entry'.role = entry.role := by
        unfold Interface.tryReleaseHeld at hrelease
        split at hrelease
        · obtain ⟨e, -, heq⟩ := map_eq_some_iff.mp hrelease
          rw [← (Prod.mk.inj heq).2]
        · cases hrelease
      have hreleased : Steady s { s with interfaces := s.interfaces.insert id entry' } :=
        (Steady.refl s).set_interfaces (.update he Table.get_insert_eq_update hrole)
      exact .of_steady hreleased
        (onInboundInner_contained hT hm (hs.last hreleased.interfaces) _ _ _)
  unfold checkHeldAnnounces
  split
  · have hall := Contained.foldl (P := Clientless) (fun _ _ h h' => h.last h'.interfaces) hheld
      s.interfaces.keys s hs
    exact { hall with }
  · exact .refl s

end

/-- The tags that a tick keeps are more than the cap. -/
def ExceedsTagCap (s : Actor F) (m : Moment F) : Prop :=
  maxDiscoveryPrTags < (((s.tickAnnounces m).checkHeldAnnounces m).discoveryPrTags.retain
    fun _ last => withinGate m last).size

omit [Sha256] [Ed25519] [Hkdf] [DecidableEq F] in
theorem capDiscoveryPrTags_eq_self (h : tags.size ≤ maxDiscoveryPrTags) :
    capDiscoveryPrTags tags = tags := by
  have hnone : tags.size - maxDiscoveryPrTags = 0 := Nat.sub_eq_zero_of_le h
  rw [capDiscoveryPrTags, hnone, take_zero, foldl_nil]

omit [Ed25519] [Hkdf] [DecidableEq F] in
/-- A tick keeps the tags of the run. -/
theorem cullPathRequests_contained (hT : Close T) (hm : T m.now)
    (hcap : (s.discoveryPrTags.retain fun _ last => withinGate m last).size ≤ maxDiscoveryPrTags) :
    Contained dest tag T 0 s (s.cullPathRequests m) := by
  have hculled : Steady s (cullRecursiveDiscovery
      { s with pathRequests := s.pathRequests.retain fun _ last => withinGate m last } m) := by
    refine .trans ?_ (cullRecursiveDiscovery_quiet (Q := fun _ _ => False)).steady
    exact { Steady.refl s with }
  unfold cullPathRequests
  refine .of_tags hculled fun last hlast hget => ?_
  rw [hculled.tags, capDiscoveryPrTags_eq_self hcap, Table.get_retain, hget]
  exact filter_some_pos (hT m.now last hm hlast)

/-- Requests of the node's own are copies if it draws the tag. -/
theorem processPendingDiscoveryPathRequests_adds (s : Actor F) (m : Moment F)
    (hn : (∃ k, (m.randomTag k).1 = tag) → 1 ≤ n) :
    Adds dest tag (s.interfaces.size * n) s (s.processPendingDiscoveryPathRequests m) := by
  have hself : Adds dest tag (s.interfaces.size * n) s s :=
    .refl s
  unfold processPendingDiscoveryPathRequests
  split
  · exact hself
  next destinationHash blocked rest _ =>
    split
    · exact hself
    have htaken (timers : Timers F) : Steady s { s with pendingDiscoveryPrs := rest, timers } :=
      { Steady.refl s with }
    have hdrawn : (if blocked.isSome then none else some (m.randomTag 0).1) ≠ some [] := by
      split
      · exact nofun
      · intro h
        simpa using congrArg List.length (some.inj h)
    refine ((htaken _).adds.trans (forwardPathRequest_adds (n := n) _ m destinationHash blocked hdrawn
      false fun _ id h => hn ?_)).mono (Nat.zero_add _).le
    split at h
    · exact ⟨id, h⟩
    · refine ⟨0, Eq.trans ?_ h⟩
      exact (take_of_length_le (m.randomTag 0).2.le).symm

theorem onTick_contained (hT : Close T) (hm : T m.now) (hs : s.Clientless)
    (hcap : ¬ s.ExceedsTagCap m) (hn : (∃ k, (m.randomTag k).1 = tag) → 1 ≤ n) :
    Contained dest tag T (s.interfaces.size * n) s (s.onTick m) := by
  have hannounces : Steady s (s.tickAnnounces m) :=
    (tickAnnounces_brings (g := { paths := s.Kept }) fun _ _ h => h).steady
  have hheld : Contained dest tag T 0 s ((s.tickAnnounces m).checkHeldAnnounces m) :=
    .of_steady hannounces (checkHeldAnnounces_contained hT hm (hs.last hannounces.interfaces))
  -- Nothing between the held announces and the gate touches the tags.
  have hcaches (s : Actor F) := (sweepAnnounceCache_brings {} s m).steady
  have hgate : Contained dest tag T 0 s
      (((s.tickAnnounces m).checkHeldAnnounces m).tickCaches m) := by
    refine hheld.trans (.of_steady (hcaches _) (cullPathRequests_contained hT hm ?_))
    rw [(hcaches _).tags]
    exact Nat.le_of_not_lt hcap
  have hown : Adds dest tag _ _ _ := processPendingDiscoveryPathRequests_adds
    (((s.tickAnnounces m).checkHeldAnnounces m).tickCaches m) m hn
  have hqueues := (hown.trans (processPendingPathRequestAdmissions_adds _ m)).trans
    ((processAnnounceQueues_quiet (m := m) fun _ _ => False).steady.adds (n := 0))
  refine (hgate.trans hqueues.contained).mono ?_
  simpa using Nat.mul_le_mul_right n hgate.interfaces.size_le

end

end Actor

/-! ### Events -/

/-- What an event reads besides the state. -/
def NodeEvent.moment : NodeEvent F → Moment F
  | .inbound e => e.moment
  | .tick m => m

/-- A node draws the tag for a request of its own. -/
def NodeEvent.Draws (tag : Bytes) : NodeEvent F → Prop
  | .inbound _ => False
  | .tick m => ∃ k, (m.randomTag k).1 = tag

namespace Actor

variable [Sha256] [Ed25519] [Hkdf] [DecidableEq F] [Binary64 F] {dest : Octets 16} {tag : Bytes}
  {T : F → Prop} {s : Actor F}

/-- A tick finds more tags than the cap. -/
def Overflows (s : Actor F) : NodeEvent F → Prop
  | .inbound _ => False
  | .tick m => s.ExceedsTagCap m

/-- The event makes the node act on a request: the request enters the gate at its time, or there are
more copies of it, and not because the node has drawn the tag itself. -/
def ActsOn (dest : Octets 16) (tag : Bytes) (s : Actor F) (e : NodeEvent F) : Prop :=
  s.discoveryPrTags.get (dest.1 ++ tag) ≠ some e.moment.now ∧
      (s.advance e).discoveryPrTags.get (dest.1 ++ tag) = some e.moment.now ∨
    ¬ e.Draws tag ∧ s.copies dest tag < (s.advance e).copies dest tag

theorem advance_contained (hT : Close T) {e : NodeEvent F} (he : T e.moment.now)
    (hs : s.Clientless) (hcap : ¬ s.Overflows e) (hn : e.Draws tag → 1 ≤ n) :
    Contained dest tag T (s.interfaces.size * n) s (s.advance e) := by
  cases e with
  | inbound e =>
    have hreceived : Contained dest tag T 0 s (s.advance (.inbound e)) :=
      onInboundInner_contained hT he hs .wire e.raw e.interfaceId
    exact hreceived.mono (Nat.zero_le _)
  | tick m => exact onTick_contained hT he hs hcap hn

end Actor

/-! ### Networks -/

section Network

variable {ι : Type} [DecidableEq ι] [Sha256] [Ed25519] [Hkdf] [DecidableEq F] [Binary64 F]

/-- An event at a node of a network. Which frames reach which interface, and when, is left open. -/
def networkStep (net : ι → Actor F) (e : ι × NodeEvent F) : ι → Actor F :=
  Function.update net e.1 ((net e.1).advance e.2)

/-- A run that is shorter than the time of the gate by the clock of every node, and in which no node
exceeds its cap on tags. -/
structure WithinGate (net : ι → Actor F) (es : List (ι × NodeEvent F)) : Prop where
  gate : ∀ e ∈ es, ∀ e' ∈ es, e.1 = e'.1 → lt
    (sub e.2.moment.now e'.2.moment.now) (ofRat pathRequestGateTimeout) = true
  cap : ∀ done e, done ++ [e] <+: es → ¬ ((done.foldl networkStep net) e.1).Overflows e.2

/-- The times of a node in a run. -/
def timesAt (es : List (ι × NodeEvent F)) (i : ι) (now : F) : Prop :=
  ∃ e ∈ es, e.1 = i ∧ e.2.moment.now = now

variable {net : ι → Actor F} {es : List (ι × NodeEvent F)} {dest : Octets 16} {tag : Bytes} {i : ι}

theorem WithinGate.close (h : WithinGate net es) (i : ι) : Close (timesAt es i) := by
  rintro _ _ ⟨e, he, rfl, rfl⟩ ⟨e', he', hsame, rfl⟩
  exact h.gate e he e' he' hsame.symm

open scoped Classical in
/-- What a part of a run does at one node. -/
theorem contained_foldl {T : F → Prop} (hT : Close T) (hs : (net i).Clientless)
    (htimes : ∀ e ∈ es, e.1 = i → T e.2.moment.now)
    (hcap : ∀ done e, done ++ [e] <+: es → ¬ ((done.foldl networkStep net) e.1).Overflows e.2) :
    Contained dest tag T
      ((net i).interfaces.size * es.countP fun e => e.1 = i ∧ e.2.Draws tag) (net i)
      ((es.foldl networkStep net) i) := by
  induction es generalizing net with
  | nil => exact .refl _
  | cons e es ih =>
    have hrest (hs : (networkStep net e i).Clientless) : Contained dest tag T
        ((networkStep net e i).interfaces.size * es.countP fun e => e.1 = i ∧ e.2.Draws tag)
        (networkStep net e i) ((es.foldl networkStep (networkStep net e)) i) :=
      ih hs (fun e' he' => htimes e' (mem_cons_of_mem e he')) fun done e' hdone =>
        hcap (e :: done) e' (cons_prefix_cons.mpr ⟨rfl, hdone⟩)
    by_cases hi : e.1 = i
    · have hstep : Contained dest tag T
          ((net i).interfaces.size * if e.2.Draws tag then 1 else 0) (net i)
          (networkStep net e i) := by
        have hevent : networkStep net e i = (net i).advance e.2 := by
          rw [networkStep, ← hi, Function.update_self]
        rw [hevent]
        refine advance_contained hT (htimes e mem_cons_self hi) hs ?_ fun h => by
          rw [if_pos h]
        have hfirst := hcap [] e (cons_prefix_cons.mpr ⟨rfl, nil_prefix⟩)
        rwa [← hi]
      refine (hstep.trans (hrest (hs.last hstep.interfaces))).mono ?_
      have hsize := Nat.mul_le_mul_right (es.countP fun e => e.1 = i ∧ e.2.Draws tag)
        hstep.interfaces.size_le
      rw [countP_cons, Nat.mul_add, Nat.add_comm]
      by_cases hdraws : e.2.Draws tag
      · simpa [hi, hdraws] using hsize
      · simpa [hi, hdraws] using hsize
    · have hother : networkStep net e i = net i := Function.update_of_ne (Ne.symm hi) _ _
      rw [hother] at hrest
      simpa [hi, countP_cons] using hrest hs

variable {done rest : List (ι × NodeEvent F)}

section

variable (h : WithinGate net es) (hclients : ∀ i, (net i).Clientless)

include h hclients

/-- What a node has done after a part of a run. -/
theorem WithinGate.contained (dest : Octets 16) (tag : Bytes) (hes : done <+: es) (i : ι) :
    ∃ n, Contained dest tag (timesAt es i) n (net i) ((done.foldl networkStep net) i) :=
  ⟨_, contained_foldl (h.close i) (hclients i) (fun e he hi => ⟨e, hes.subset he, hi, rfl⟩)
    fun done' e hdone' => h.cap done' e (hdone'.trans hes)⟩

theorem WithinGate.clientless (hes : done <+: es) (i : ι) :
    ((done.foldl networkStep net) i).Clientless := by
  obtain ⟨_, hdone⟩ := h.contained hclients (Octets.replicate 16 0) [] hes i
  exact (hclients i).last hdone.interfaces

/-- What a node does in the rest of a run. -/
theorem WithinGate.contained_append (dest : Octets 16) (tag : Bytes) (hes : done ++ rest <+: es)
    (i : ι) :
    ∃ n, Contained dest tag (timesAt es i) n ((done.foldl networkStep net) i)
      (((done ++ rest).foldl networkStep net) i) := by
  have hdone := (prefix_append _ _).trans hes
  rw [foldl_append]
  refine ⟨_, contained_foldl (h.close i) (h.clientless hclients hdone i)
    (fun e he hi => ⟨e, hes.subset (mem_append_right _ he), hi, rfl⟩) fun done' e hdone' => ?_⟩
  rw [← foldl_append]
  refine h.cap (done ++ done') e ?_
  rw [append_assoc]
  exact ((prefix_append_right_inj _).mpr hdone').trans hes

variable {e : NodeEvent F} (hes : done ++ [(i, e)] <+: es)

include hes

/-- What a node does at an event at which it does not draw the tag. -/
theorem WithinGate.contained_advance (dest : Octets 16) (hdraws : ¬ e.Draws tag) :
    Contained dest tag (timesAt es i) 0 ((done.foldl networkStep net) i)
      (((done.foldl networkStep net) i).advance e) :=
  advance_contained (n := 0) (h.close i) ⟨(i, e), hes.subset (by simp), rfl, rfl⟩
    (h.clientless hclients ((prefix_append _ _).trans hes) i) (h.cap done (i, e) hes)
    fun hdraw => absurd hdraw hdraws

/-- A node that acts on a request has it in its gate then. -/
theorem WithinGate.tagged_of_actsOn (hacts : ((done.foldl networkStep net) i).ActsOn dest tag e) :
    (((done.foldl networkStep net) i).advance e).Tagged dest tag (timesAt es i) := by
  rcases hacts with ⟨-, hentered⟩ | ⟨hdraws, hmore⟩
  · exact ⟨_, ⟨(i, e), hes.subset (by simp), rfl, rfl⟩, hentered⟩
  · rcases (h.contained_advance hclients hes dest hdraws).copies with hfew | ⟨-, htagged, -⟩
    · omega
    · exact htagged

/-- A node does not act on a request that it has in its gate. -/
theorem WithinGate.not_actsOn
    (htagged : ((done.foldl networkStep net) i).Tagged dest tag (timesAt es i)) :
    ¬ ((done.foldl networkStep net) i).ActsOn dest tag e := by
  obtain ⟨last, hlast, hget⟩ := htagged
  rintro (⟨hbefore, hentered⟩ | ⟨hdraws, hmore⟩)
  · obtain ⟨_, hevent⟩ := h.contained_append hclients dest tag hes i
    have hafter := hevent.seen last hlast hget
    rw [foldl_append] at hafter
    change (networkStep (done.foldl networkStep net) (i, e) i).discoveryPrTags.get _ = _ at hafter
    rw [networkStep, Function.update_self, hentered] at hafter
    exact hbefore (hget.trans hafter.symm)
  · rcases (h.contained_advance hclients hes dest hdraws).copies with hfew | ⟨hnew, -⟩
    · omega
    · exact hnew ⟨last, hlast, hget⟩

end

/-- Once a node has acted on a request, it does not act on it again. -/
theorem WithinGate.acts_once (h : WithinGate net es) (hclients : ∀ i, (net i).Clientless)
    {e e' : NodeEvent F} (hes : (done ++ [(i, e)] ++ rest) ++ [(i, e')] <+: es)
    (hacts : ((done.foldl networkStep net) i).ActsOn dest tag e) :
    ¬ (((done ++ [(i, e)] ++ rest).foldl networkStep net) i).ActsOn dest tag e' := by
  have hrest := (prefix_append _ _).trans hes
  obtain ⟨n, hcontained⟩ := h.contained_append hclients dest tag hrest i
  refine h.not_actsOn hclients hes (hcontained.tagged ?_)
  have htagged := h.tagged_of_actsOn hclients ((prefix_append _ _).trans hrest) hacts
  rw [foldl_append]
  change (networkStep (done.foldl networkStep net) (i, e) i).Tagged _ _ _
  rw [networkStep, Function.update_self]
  exact htagged

open scoped Classical in
/-- Floods of path requests end. In a network of nodes without local clients, over every run within
the gate, whatever reaches the nodes: a request that a node sends on reaches the code for requests of
the next node, which reads the same destination and tag, and ignores it or enters it in its gate. No
node acts twice on a destination and a tag. And the copies that are added are no more than the
interfaces, but for requests that nodes make themselves when they draw the very same tag. -/
theorem path_request_flood_ends [Fintype ι] (net : ι → Actor F)
    (hclients : ∀ i, (net i).Clientless) (es : List (ι × NodeEvent F)) (hes : WithinGate net es)
    (dest : Octets 16) (tag : Bytes) (hpos : 1 ≤ tag.length) (hlen : tag.length ≤ 16) :
    (∀ (s next : Actor F) (randomTag : Octets 16) (m : Moment F) (hops : UInt8) (interfaceId : ℕ),
      ∃ raw payload, s.buildPathRequestPacket dest (some tag) randomTag = raw ∧
        unpack raw = .ok (pathRequestHeader, 19) ∧
        next.dispatch m raw { pathRequestHeader with hops } 19 interfaceId =
          next.handleInboundPathRequest m payload interfaceId ∧
        parsePathRequest payload =
          some (dest, if s.isTransportEnabled then s.transportIdentityHash else none, tag) ∧
        (next.Clientless → next.handleInboundPathRequest m payload interfaceId = next ∨
          (next.handleInboundPathRequest m payload interfaceId).discoveryPrTags.get
            (dest.1 ++ tag) = some m.now)) ∧
    (∀ i done rest e e', (done ++ [(i, e)] ++ rest) ++ [(i, e')] <+: es →
      ¬ (((done.foldl networkStep net) i).ActsOn dest tag e ∧
        (((done ++ [(i, e)] ++ rest).foldl networkStep net) i).ActsOn dest tag e')) ∧
    ∑ i, ((es.foldl networkStep net) i).copies dest tag ≤
      ∑ i, (net i).copies dest tag + ∑ i, (net i).interfaces.size +
        ∑ i, (net i).interfaces.size * es.countP fun e => e.1 = i ∧ e.2.Draws tag := by
  refine ⟨fun s next randomTag m hops interfaceId => ?_, fun i done rest e e' hrun => ?_, ?_⟩
  · have hself : ((some tag).map (·.take 16)).getD randomTag.1 = tag :=
      take_of_length_le hlen
    have hparse := parsePathRequest_append dest
      (if s.isTransportEnabled then s.transportIdentityHash else none)
      (length_pos_iff.mp hpos) hlen
    refine ⟨_, _, congrArg (fun tag => pathRequestHeader.pack ++ (dest.1 ++ _ ++ tag)) hself,
      (unpack_pathRequestHeader _).1, dispatch_pathRequest next m 19 interfaceId rfl rfl
        (unpack_pathRequestHeader _).2, hparse, fun hnext =>
      handleInboundPathRequest_ignores_or_enters hnext m hparse interfaceId⟩
  · rintro ⟨hacts, hagain⟩
    exact hes.acts_once hclients hrun hacts hagain
  · rw [← Finset.sum_add_distrib, ← Finset.sum_add_distrib]
    refine Finset.sum_le_sum fun i _ => ?_
    have hnode : Contained dest tag (timesAt es i) _ (net i)
        ((es.foldl networkStep net) i) :=
      contained_foldl (hes.close i) (hclients i) (fun e he hi => ⟨e, he, hi, rfl⟩) hes.cap
    rcases hnode.copies with hcopies | ⟨-, -, hcopies⟩
    · omega
    · omega

end Network

/-! ### A request in a ring of two nodes -/

namespace Session

/-- The tag of the request. -/
def floodTag : Bytes := [1, 2, 3]

/-- The identity of the second node. -/
def otherTransportId : Octets 16 := .ofNat 0x202122232425262728292a2b2c2d2e2f

/-- The address of requests for paths, with the flags of a request. -/
def requestHeader : Bytes :=
  [8, 0, 107, 159, 102, 1, 77, 152, 83, 250, 171, 34, 15, 186, 71, 208, 39, 97, 0]

/-- The request of a leaf, and as the two nodes send it on. -/
def leafRequest : Bytes := requestHeader ++ destination.1 ++ floodTag

def firstCopy : Bytes := requestHeader ++ destination.1 ++ transportId.1 ++ floodTag

def secondCopy : Bytes := requestHeader ++ destination.1 ++ otherTransportId.1 ++ floodTag

/-- SHA-256 on the three requests, and as in the session. -/
@[reducible] def floodSha : Sha256 where
  digest input :=
    if input.length = 37 then
      .ofNat 0x164d9393fc09ca838844cceaf5071e0df1f143c0acd64047ed039f4e21bd3002
    else if input.length = 53 then
      if input.getD 34 0 = 16 then
        .ofNat 0xf36f01b12b0a8fc8627d90d50286b31e3435b20e54e586d27b84d59373bc9afc
      else
        .ofNat 0x4ce8f9183ea9e463e66b8c79cff05ab7f6cf5e92480f4a80b2067db3a4781c1d
    else sha.digest input

/-- Two nodes, of which each has its interface 2 on the medium of interface 1 of the other. -/
def ring (i : Bool) : Actor ℚ :=
  if i then { node with transportIdentityHash := some otherTransportId } else node

/-- The first node hears the leaf, the second hears the first, and the first hears the second. -/
def flood : List (Bool × NodeEvent ℚ) :=
  [(false, .inbound ⟨moment 1700000001, leafRequest, 1⟩),
    (true, .inbound ⟨moment 1700000002, firstCopy, 1⟩),
    (false, .inbound ⟨moment 1700000003, secondCopy, 1⟩)]

theorem ring_clientless (i : Bool) : (ring i).Clientless := by
  intro id entry he
  cases i
  · exact (node_bare.role id entry he).1
  · exact (node_bare.role id entry he).1

end Session

open Transport.Session Classical in
/-- Both nodes send the request on, and the first ignores it when it comes back. -/
theorem path_request_flood_ring :
    letI := floodSha
    ((flood.foldl networkStep ring) false).transmissions = [⟨.pathRequest, 2, firstCopy⟩] ∧
      ((flood.foldl networkStep ring) true).transmissions = [⟨.pathRequest, 2, secondCopy⟩] ∧
      ∑ i, ((flood.foldl networkStep ring) i).copies destination floodTag = 2 ∧
      ∑ i, ((flood.foldl networkStep ring) i).copies destination floodTag ≤ 4 := by
  let _ := floodSha
  have hevents : ∀ e ∈ flood, ¬ e.2.Draws floodTag ∧ ∀ s : Actor ℚ, ¬ s.Overflows e.2 := by
    intro e he
    simp only [flood, mem_cons, not_mem_nil, or_false] at he
    rcases he with rfl | rfl | rfl <;> exact ⟨id, fun _ => id⟩
  have hrun : WithinGate ring flood :=
    ⟨by decide +kernel, fun done e hdone => (hevents e (hdone.subset (by simp))).2 _⟩
  have hends := (path_request_flood_ends ring ring_clientless flood hrun destination floodTag
    (by decide) (by decide)).2.2
  have hcount (i : Bool) : (flood.countP fun e => e.1 = i ∧ e.2.Draws floodTag) = 0 :=
    countP_eq_zero.mpr fun e he h => (hevents e he).1 (decide_eq_true_iff.mp h).2
  refine ⟨by decide +kernel, by decide +kernel, by decide +kernel, ?_⟩
  simp only [hcount, Nat.mul_zero, Finset.sum_const_zero, Nat.add_zero] at hends
  exact hends.trans (by decide +kernel)

end Reticulum.Transport
