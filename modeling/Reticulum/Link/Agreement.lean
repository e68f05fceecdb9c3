import Reticulum.Foundation.Lists
import Reticulum.Foundation.Run
import Reticulum.Link.Basic

/-!
# Agreement of the link handshake

Initiators and the holder of an identity key run the handshake over a network that an adversary
controls: it chooses every request a responder is constructed on and every proof an initiator is
given. The holder of the key also identifies itself on links it initiated, and signs messages of
other kinds.

Two ghost logs carry the ideal assumptions: the messages signed under the identity key and the
inputs hashed to link ids.

## Main definitions

* `World`, `Event`, `World.step` — the parties and what can happen to them.
* `World.CollisionFree` — no two hashed inputs collide.
* `World.SignedFor` — the proof an initiator is given verifies only if its message was signed.

## Main results

* `handshake_agreement` — an initiator that accepts a proof agrees with a responder on link id,
  session keys, mode, MTU and MDU.
-/

namespace Reticulum

open Wire Octets Option

/-- An initiated link with the request data sent for it. -/
structure Initiator where
  requestData : Bytes
  link : Link
  deriving DecidableEq, Repr

/-- A link that the holder of the identity key constructed on a request. -/
structure Responder where
  destinationHash : Octets 16
  requestData : Bytes
  link : Link
  deriving DecidableEq, Repr

/-- The links of the parties, the messages signed under the identity key and the inputs hashed to
link ids. -/
structure World where
  initiators : List Initiator
  responders : List Responder
  signed : List Bytes
  hashed : List Bytes
  deriving DecidableEq, Repr

/-- What can happen. Request data and proof data come from the network. -/
inductive Event
  | newInitiator (destinationHash : Octets 16) (keys : EphemeralKeys)
  | respond (destinationHash : Octets 16) (requestData : Bytes) (keys : EphemeralKeys)
      (signature : Option (Octets 64))
  | validateProof (i : ℕ) (proofData : Bytes) (identityEd25519PubBytes : Octets 32)
      (rttBytes : Bytes) (iv : Octets 16)
  | identify (i : ℕ) (identityPubKey : Octets 64)
  | close (i : ℕ)
  | sign (message : Bytes)

namespace World

/-- The start: no links, nothing signed, nothing hashed. -/
def init : World := ⟨[], [], [], []⟩

section Step

variable [Sha256] [Ed25519] [X25519] [Hkdf] [LinkToken] (key : Octets 32)

/-- One event, with `key` the identity public key. Ephemeral keys are fresh. A message that the
holder of `key` signs outside of links does not have the length of a link proof message. -/
def step (w : World) : Event → Option World
  | .newInitiator destinationHash keys =>
    let (link, requestData) := Link.newInitiator destinationHash keys
    if requestData.take 64 ∈ w.initiators.map (·.requestData.take 64) then none
    else some { w with
      initiators := w.initiators ++ [⟨requestData, link⟩]
      hashed := linkIdInput destinationHash requestData :: w.hashed }
  | .respond destinationHash requestData keys signature =>
    match Link.newResponderInner requestData key destinationHash (fun _ => signature) keys with
    | .error _ => some w
    | .ok (link, signedData, _) => some { w with
        responders := w.responders ++ [⟨destinationHash, requestData, link⟩]
        signed := signedData :: w.signed
        hashed := linkIdInput destinationHash requestData :: w.hashed }
  | .validateProof i proofData identityEd25519PubBytes rttBytes iv => do
    let x ← w.initiators[i]?
    match x.link.validateProof proofData key identityEd25519PubBytes rttBytes iv with
    | .error _ => some w
    | .ok (link, _) => some { w with initiators := w.initiators.set i { x with link } }
  | .identify i identityPubKey => do
    let x ← w.initiators[i]?
    let message ← x.link.identifyMessage identityPubKey
    return { w with signed := message :: w.signed }
  | .close i => do
    let x ← w.initiators[i]?
    return { w with
      initiators := w.initiators.set i { x with link := { x.link with state := .closed } } }
  | .sign message =>
    if message.length = 80 ∨ message.length = 83 then none
    else some { w with signed := message :: w.signed }

end Step

/-- No two inputs hashed to link ids collide. -/
def CollisionFree [Sha256] (w : World) : Prop :=
  ∀ a ∈ w.hashed, ∀ b ∈ w.hashed, truncatedHash a = truncatedHash b → a = b

/-- The signature in `proofData` verifies under `key` for the link only if the holder of `key`
signed that message. -/
def SignedFor [Ed25519] (w : World) (key : Octets 32) (link : Link) (proofData : Bytes)
    (identityEd25519PubBytes : Octets 32) : Prop :=
  let message := Link.proofMessage link.linkId (read 32 (proofData.drop 64))
    identityEd25519PubBytes (proofData.drop 96)
  Ed25519.verify key message (read 64 proofData) = true → message ∈ w.signed

@[simp] theorem length_proofMessage (linkId : Octets 16) (a b : Octets 32) (trailer : Bytes) :
    (Link.proofMessage linkId a b trailer).length = 80 + trailer.length := by
  simp only [Link.proofMessage, List.length_append, length_val]
  omega

/-- A proof message determines its parts. -/
private theorem proofMessage_inj {linkId linkId' : Octets 16} {a a' b b' : Octets 32}
    {trailer trailer' : Bytes}
    (h : Link.proofMessage linkId a b trailer = Link.proofMessage linkId' a' b' trailer') :
    linkId = linkId' ∧ a = a' ∧ trailer = trailer' := by
  obtain ⟨hid, h⟩ := List.append_inj h (by simp)
  obtain ⟨ha, h⟩ := List.append_inj h (by simp)
  exact ⟨Subtype.ext hid, Subtype.ext ha, (List.append_inj h (by simp)).2⟩

/-- A proof whose trailer offers a mode and the base MTU is read as just that. -/
private theorem signal_of_trailer {proofData : Bytes} {signal : LinkSignalling} {mode : ℕ}
    (hsignal : parseProofSignalling proofData = .ok signal) (hmode : mode ≤ 7)
    (htrailer : proofData.drop 96 = SignallingData.pack { mode, mtu := LinkMtu.base.get }) :
    signal.mode = mode ∧ signal.mtu = .base := by
  rcases length_of_parse hsignal with ⟨hlen, -⟩ | ⟨-, s, hs, hsm, hmtu⟩
  · have h := congrArg List.length htrailer
    simp [hlen] at h
  · rw [htrailer, SignallingData.unpack_pack hmode LinkMtu.base.le_max] at hs
    obtain rfl := some.inj hs
    rw [LinkMtu.tryFromSignal_get] at hmtu
    exact ⟨hsm.symm, (Except.ok.inj hmtu).symm⟩

/-- Links with the same id were requested from the same destination with the same keys. -/
private theorem request_eq_of_linkId_eq [Sha256] {w : World} (hcf : w.CollisionFree)
    {d d' : Octets 16} {r r' : Bytes}
    (hr : linkIdInput d r ∈ w.hashed) (hr' : linkIdInput d' r' ∈ w.hashed)
    (h : computeLinkId d r = computeLinkId d' r') : d = d' ∧ r.take 64 = r'.take 64 := by
  rw [computeLinkId_eq, computeLinkId_eq] at h
  exact linkIdInput_inj (hcf _ hr _ hr' h)

/-! ### The invariant -/

variable [Sha256] [Ed25519] [X25519] [Hkdf] [LinkToken] {key : Octets 32} {w w' : World}

/-- An initiated link keeps its id, and its keys while it waits for a proof. -/
structure InitiatorSound (w : World) (x : Initiator) : Prop where
  exists_keys : ∃ keys : EphemeralKeys,
    (∃ trailer, x.requestData = keys.x25519Pub.1 ++ (keys.ed25519Pub.1 ++ trailer)) ∧
    (x.link.state = .pending → x.link.ephemeralKeys = some keys)
  linkId_eq : x.link.linkId = computeLinkId x.link.destinationHash x.requestData
  mem_hashed : linkIdInput x.link.destinationHash x.requestData ∈ w.hashed

/-- Why a message was signed under `key`. -/
inductive Reason (key : Octets 32) (w : World) (message : Bytes) : Prop
  | respond (r : Responder) (hr : r ∈ w.responders)
      (hashed : linkIdInput r.destinationHash r.requestData ∈ w.hashed)
      (signFn : Bytes → Option (Octets 64)) (keys : EphemeralKeys) (proofData : Bytes)
      (hok : Link.newResponderInner r.requestData key r.destinationHash signFn keys =
        .ok (r.link, message, proofData))
  | identify (x : Initiator) (hx : x ∈ w.initiators) (hstate : x.link.state ≠ .pending)
      (identityPubKey : Octets 64) (hm : message = x.link.linkId.1 ++ identityPubKey.1)
  | other (hlen : message.length ≠ 80 ∧ message.length ≠ 83)

/-- What holds in every reachable world. -/
structure Inv (key : Octets 32) (w : World) : Prop where
  initiator : ∀ x ∈ w.initiators, InitiatorSound w x
  fresh : (w.initiators.map (·.requestData.take 64)).Nodup
  reason : ∀ m ∈ w.signed, Reason key w m

omit [Hkdf] [LinkToken] in
/-- More hashed inputs do not unmake an initiated link. -/
theorem InitiatorSound.mono {x : Initiator} (hx : InitiatorSound w x)
    (hhashed : w.hashed ⊆ w'.hashed) : InitiatorSound w' x :=
  ⟨hx.exists_keys, hx.linkId_eq, hhashed hx.mem_hashed⟩

omit [Ed25519] [LinkToken] in
/-- A reason lasts as long as no link goes back to waiting for its proof. -/
theorem Reason.mono {m : Bytes} (hr : Reason key w m) (hresponders : w.responders ⊆ w'.responders)
    (hhashed : w.hashed ⊆ w'.hashed)
    (hinitiators : ∀ x ∈ w.initiators, x.link.state ≠ .pending →
      ∃ x' ∈ w'.initiators, x'.link.state ≠ .pending ∧ x'.link.linkId = x.link.linkId) :
    Reason key w' m := by
  cases hr with
  | respond r hr hashed signFn keys proofData hok =>
    exact .respond r (hresponders hr) (hhashed hashed) signFn keys proofData hok
  | identify x hx hstate identityPubKey hm =>
    obtain ⟨x', hx', hstate', hid⟩ := hinitiators x hx hstate
    exact .identify x' hx' hstate' identityPubKey (hid ▸ hm)
  | other hlen => exact .other hlen

omit [LinkToken] in
/-- A link that is replaced by one with the same id, no longer waiting, keeps the invariant. -/
private theorem inv_set {i : ℕ} {x : Initiator} {link : Link} (hI : Inv key w)
    (hx : w.initiators[i]? = some x) (hid : link.linkId = x.link.linkId)
    (hdest : link.destinationHash = x.link.destinationHash) (hstate : link.state ≠ .pending) :
    Inv key { w with initiators := w.initiators.set i { x with link } } := by
  have hmem : x ∈ w.initiators := List.mem_of_getElem? hx
  obtain ⟨hlt, -⟩ := List.getElem?_eq_some_iff.mp hx
  refine ⟨fun y hy => ?_, ?_, fun m hm => ?_⟩
  · rcases List.mem_or_eq_of_mem_set hy with hy | rfl
    · exact (hI.initiator y hy).mono (fun _ h => h)
    · obtain ⟨⟨keys, hdata, -⟩, hlink, hhashed⟩ := hI.initiator x hmem
      exact ⟨⟨keys, hdata, fun hp => absurd hp hstate⟩, by rw [hid, hdest, hlink],
        by rw [hdest]; exact hhashed⟩
  · have hmap : (w.initiators.set i { x with link }).map (·.requestData.take 64) =
        w.initiators.map (·.requestData.take 64) := by
      rw [List.map_set, set_of_getElem? (by simp [hx])]
    rw [hmap]
    exact hI.fresh
  · refine (hI.reason m hm).mono (fun _ h => h) (fun _ h => h) fun y hy hys => ?_
    obtain ⟨j, hj⟩ := List.getElem?_of_mem hy
    by_cases hij : i = j
    · subst hij
      obtain rfl := some.inj (hx.symm.trans hj)
      exact ⟨_, List.mem_set hlt _, hstate, hid⟩
    · exact ⟨y, List.mem_of_getElem? ((List.getElem?_set_ne hij).trans hj), hys, rfl⟩

/-- The invariant holds along every run. -/
theorem inv_step (w : World) (e : Event) (w' : World) (hI : Inv key w)
    (h : w.step key e = some w') : Inv key w' := by
  cases e with
  | newInitiator destinationHash keys =>
    simp only [step] at h
    split_ifs at h with hfresh
    obtain rfl := some.inj h
    refine ⟨fun x hx => ?_, ?_, fun m hm => ?_⟩
    · rcases List.mem_append.mp hx with hx | hx
      · exact (hI.initiator x hx).mono (List.subset_cons_self _ _)
      · obtain rfl := List.mem_singleton.mp hx
        exact ⟨⟨keys, ⟨_, rfl⟩, fun _ => rfl⟩, rfl, List.mem_cons_self⟩
    · rw [List.map_append, List.nodup_append']
      exact ⟨hI.fresh, List.nodup_singleton _, by simpa using hfresh⟩
    · exact (hI.reason m hm).mono (fun _ h => h) (List.subset_cons_self _ _)
        fun x hx hs => ⟨x, List.mem_append_left _ hx, hs, rfl⟩
  | respond destinationHash requestData keys signature =>
    simp only [step] at h
    cases hr : Link.newResponderInner requestData key destinationHash (fun _ => signature) keys with
    | error e =>
      rw [hr] at h
      exact some.inj h ▸ hI
    | ok result =>
      obtain ⟨link, signedData, proofData⟩ := result
      rw [hr] at h
      obtain rfl := some.inj h
      refine ⟨fun x hx => (hI.initiator x hx).mono (List.subset_cons_self _ _), hI.fresh,
        fun m hm => ?_⟩
      rcases List.mem_cons.mp hm with rfl | hm
      · exact .respond _ (List.mem_append_right _ (List.mem_singleton_self _)) List.mem_cons_self
          _ keys proofData hr
      · exact (hI.reason m hm).mono (List.subset_append_left _ _) (List.subset_cons_self _ _)
          fun x hx hs => ⟨x, hx, hs, rfl⟩
  | validateProof i proofData keyBytes rttBytes iv =>
    obtain ⟨x, hx, h⟩ := bind_eq_some_iff.mp h
    cases hv : x.link.validateProof proofData key keyBytes rttBytes iv with
    | error e =>
      rw [hv] at h
      exact some.inj h ▸ hI
    | ok result =>
      obtain ⟨link, encryptedRtt⟩ := result
      rw [hv] at h
      obtain rfl := some.inj h
      obtain ⟨-, -, -, -, -, -, -, -, -, hid, hdest, -, -, -, hactive⟩ := Link.validateProof_ok hv
      exact inv_set hI hx hid hdest (by simp [hactive])
  | identify i identityPubKey =>
    obtain ⟨x, hx, h⟩ := bind_eq_some_iff.mp h
    obtain ⟨message, hm, h⟩ := bind_eq_some_iff.mp h
    obtain rfl := some.inj h
    simp only [Link.identifyMessage] at hm
    split_ifs at hm with hguard
    obtain rfl := some.inj hm
    refine ⟨fun y hy => (hI.initiator y hy).mono (fun _ h => h), hI.fresh, fun m hm => ?_⟩
    rcases List.mem_cons.mp hm with rfl | hm
    · refine .identify x (List.mem_of_getElem? hx) ?_ identityPubKey rfl
      rw [not_not.mp (not_or.mp hguard).2]
      simp
    · exact (hI.reason m hm).mono (fun _ h => h) (fun _ h => h) fun y hy hs => ⟨y, hy, hs, rfl⟩
  | close i =>
    obtain ⟨x, hx, h⟩ := bind_eq_some_iff.mp h
    obtain rfl := some.inj h
    exact inv_set hI hx rfl rfl (by simp)
  | sign message =>
    simp only [step] at h
    split_ifs at h with hlen
    obtain rfl := some.inj h
    refine ⟨fun y hy => (hI.initiator y hy).mono (fun _ h => h), hI.fresh, fun m hm => ?_⟩
    rcases List.mem_cons.mp hm with rfl | hm
    · exact .other (not_or.mp hlen)
    · exact (hI.reason m hm).mono (fun _ h => h) (fun _ h => h) fun y hy hs => ⟨y, hy, hs, rfl⟩

/-- The invariant holds in every reachable world. -/
theorem inv_run {events : List Event} (h : run (step key) init events = some w) : Inv key w :=
  run_invariant (fun w e w' hI hs => inv_step w e w' hI hs)
    ⟨by simp [init], by simp [init], by simp [init]⟩ h

/-! ### Agreement -/

/-- **Agreement.** Let `key` be an identity key under which signatures are ideal, let the hashes
of link ids not collide and the key exchange commute. In every run, when an initiator accepts a
proof under `key`, the holder of `key` constructed a responder on a request for the same
destination with the same key block, and the two links have the same id, session keys, mode, MTU
and MDU. -/
theorem handshake_agreement
    (hdh : ∀ a b, X25519.exchange a (X25519.publicKey b) = X25519.exchange b (X25519.publicKey a))
    {events : List Event} (hrun : run (step key) init events = some w) (hcf : w.CollisionFree)
    {i : ℕ} {x : Initiator} (hx : w.initiators[i]? = some x) {proofData rttBytes encryptedRtt : Bytes}
    {keyBytes : Octets 32} {iv : Octets 16} {link : Link}
    (hsig : w.SignedFor key x.link proofData keyBytes)
    (hok : x.link.validateProof proofData key keyBytes rttBytes iv = .ok (link, encryptedRtt)) :
    ∃ r ∈ w.responders, (∃ signFn keys signedData proof,
        Link.newResponderInner r.requestData key r.destinationHash signFn keys =
          .ok (r.link, signedData, proof)) ∧
      r.destinationHash = x.link.destinationHash ∧
      r.requestData.take 64 = x.requestData.take 64 ∧
      link.linkId = r.link.linkId ∧ link.sessionKeys = r.link.sessionKeys ∧
      link.sessionKeys.isSome ∧ link.mode = r.link.mode ∧ link.mtu = r.link.mtu ∧
      link.mdu = r.link.mdu := by
  have hI := inv_run hrun
  have hmem : x ∈ w.initiators := List.mem_of_getElem? hx
  obtain ⟨⟨ephemeral, ⟨trailer, hdata⟩, hkeys⟩, hid, hhashed⟩ := hI.initiator x hmem
  obtain ⟨signal, eph, keys, hpending, hsignal, hverify, heph, hderive, hmdu, hlid, -, hsk, hmode,
    hmtu, -⟩ := Link.validateProof_ok hok
  obtain rfl : ephemeral = eph := some.inj ((hkeys hpending).symm.trans heph)
  -- The message of the proof was signed; only a responder can have signed it.
  cases hI.reason _ (hsig hverify) with
  | other hlen =>
    rcases length_of_parse hsignal with ⟨hl, -⟩ | ⟨hl, -⟩ <;> simp [hl] at hlen
  | identify y hy hstate identityPubKey hm =>
    have hyid : y.link.linkId = x.link.linkId :=
      (Subtype.ext (List.append_inj hm (by simp)).1).symm
    obtain ⟨-, hyid', hyhashed⟩ := hI.initiator y hy
    have hblock := (request_eq_of_linkId_eq hcf hyhashed hhashed
      (hyid' ▸ hid ▸ hyid)).2
    obtain rfl := List.inj_on_of_nodup_map hI.fresh hy hmem hblock
    exact absurd hpending hstate
  | respond r hr hrhashed signFn rkeys proof hrok =>
    obtain ⟨rsk, hrlen, hrid, hrmode, hrsigned, hrderive, hrmdu, hrsk, hrmtu, -⟩ :=
      Link.newResponderInner_ok hrok
    obtain ⟨hideq, hpub, htrailer⟩ := proofMessage_inj hrsigned
    obtain ⟨hsmode, hsmtu⟩ := signal_of_trailer hsignal hrmode htrailer
    obtain ⟨hdest, hblock⟩ := request_eq_of_linkId_eq hcf hrhashed hhashed
      (hrid ▸ hid ▸ hideq.symm)
    have hpeer : read 32 r.requestData = ephemeral.x25519Pub := by
      have htake : r.requestData.take 32 = (r.requestData.take 64).take 32 := by
        rw [List.take_take, Nat.min_eq_left (by decide)]
      apply Subtype.ext
      rw [read_val (by omega), htake, hblock, hdata, List.take_take]
      exact take_append _ _
    refine ⟨r, hr, ⟨signFn, rkeys, _, proof, hrok⟩, hdest, hblock, ?_, ?_, ?_, ?_, ?_, ?_⟩
    · rw [hlid, hideq]
    · rw [hpub, hideq, hsmode] at hderive
      rw [hpeer] at hrderive
      have hcomm := LinkKeys.derive_comm hdh ephemeral.x25519Prv rkeys.x25519Prv r.link.linkId
        r.link.mode
      rw [hsk, hrsk, Except.ok.inj (hderive.symm.trans (hcomm.trans hrderive))]
    · rw [hsk]
      rfl
    · rw [hmode, hsmode]
    · rw [hmtu, hsmtu, hrmtu]
    · rw [hsmtu, hrmdu] at hmdu
      exact (Except.ok.inj hmdu).symm

end World

/-! ### One session

The keys with private bytes `01…01` (initiator) and `03…03` (responder), an identity with seed
`04…04` and the destination `aa…aa`. The functions below have the values of the real primitives on
the inputs of that session. -/

/-- The identity key of the session. -/
def sessionIdentity : Octets 32 :=
  .ofNat 0xca93ac1705187071d67b83c7ff0efe8108e8ec4530575d7726879333dbdabe7c

/-- The responder's signature of the session. -/
def sessionSignature : Octets 64 :=
  .ofNat (2 ^ 256 * 0xf491119537a69ead80937e93a40e8b994d51a8f4ed83c101d236cef8a330450c
    + 0xe7ebd4f0e48249918ca4df42c26f388948f2edc094a0c3e08834a75b7a016203)

@[reducible] def sessionSha256 : Sha256 where
  digest _ := .ofNat 0x88d5858c38be8aa763fe38794bc2048055ca024eed1fdc3ff8dabef287e42931

@[reducible] def sessionEd25519 : Ed25519 where
  publicKey _ := .ofNat 0x8139770ea87d175f56a35466c34c7ecccb8d8a91b4ee37a25df60f5b8fc9b394
  sign _ _ := sessionSignature
  verify key message signature := key == sessionIdentity && message.length == 83 &&
    signature == sessionSignature

@[reducible] def sessionX25519 : X25519 where
  publicKey prv := if prv = replicate 32 1 then
      .ofNat 0xa4e09292b651c278b9772c569f5fa9bb13d906b46ab68c9df9dc2b4409f8a209
    else
      .ofNat 0x5dfedd3b6bd47f6fa28ee15d969d5bb0ea53774d488bdaf9df1c6e0124b3ef22
  exchange _ _ := .ofNat 0xb0190541a2abb8bc163b6eef0fae7ba0179004b444326f73809563164d47c521

@[reducible] def sessionHkdf : Hkdf where
  expand _ _ _ length := some (read length
    [152, 239, 96, 240, 116, 156, 103, 112, 191, 228, 182, 66, 98, 216, 127, 254, 152, 171,
    118, 133, 176, 170, 42, 90, 130, 135, 194, 205, 79, 119, 79, 150, 49, 165, 156, 72, 55,
    182, 147, 117, 64, 10, 82, 154, 48, 126, 249, 29, 210, 60, 77, 52, 97, 98, 245, 201,
    251, 164, 233, 92, 19, 66, 170, 214])

/-- The packet with the round-trip time, a quarter of a second, under the keys of the session. -/
def sessionRtt : Bytes :=
  [0, 0, 0, 0, 0, 0, 0, 0, 0, 0, 0, 0, 0, 0, 0, 0, 193, 32, 72, 221, 23, 112, 192, 196,
  146, 12, 220, 17, 246, 136, 123, 86, 222, 24, 18, 101, 125, 227, 97, 246, 170, 69, 133,
  97, 229, 55, 26, 66, 116, 196, 160, 254, 237, 32, 213, 175, 255, 252, 94, 240, 34, 53,
  212, 121]

@[reducible] private def sessionToken : LinkToken where
  encrypt _ _ _ := some sessionRtt

/-- The run of the session: a request, and a responder constructed on it. -/
private def sessionEvents [Sha256] [Ed25519] [X25519] : List Event :=
  let keys : EphemeralKeys := ⟨replicate 32 1, replicate 32 2⟩
  let requestData := (Link.newInitiator (replicate 16 0xaa) keys).2
  [.newInitiator (replicate 16 0xaa) keys,
    .respond (replicate 16 0xaa) requestData
      ⟨replicate 32 3, replicate 32 5⟩ (some sessionSignature)]

/-- The proof data of the session. -/
private def sessionProof [X25519] : Bytes :=
  sessionSignature.1 ++ (X25519.publicKey (replicate 32 3)).1 ++ [0x20, 0x01, 0xf4]

attribute [local instance] sessionSha256 sessionEd25519 sessionX25519 sessionHkdf sessionToken

theorem handshake_agreement_session :
    ∃ w x link encryptedRtt, run (World.step sessionIdentity) World.init sessionEvents = some w ∧
      w.initiators[0]? = some x ∧
      x.link.validateProof sessionProof sessionIdentity sessionIdentity
        [203, 63, 208, 0, 0, 0, 0, 0, 0] (replicate 16 0) = .ok (link, encryptedRtt) ∧
      ∃ r ∈ w.responders, link.linkId = r.link.linkId ∧ link.sessionKeys = r.link.sessionKeys := by
  have hsome : ((run (World.step sessionIdentity) World.init sessionEvents).bind fun w =>
      w.initiators[0]?.bind fun x => (x.link.validateProof sessionProof sessionIdentity
        sessionIdentity [203, 63, 208, 0, 0, 0, 0, 0, 0]
          (replicate 16 0)).toOption).isSome := by
    decide +kernel
  have hideal : (run (World.step sessionIdentity) World.init sessionEvents).all fun w =>
      (∀ a ∈ w.hashed, ∀ b ∈ w.hashed, truncatedHash a = truncatedHash b → a = b) ∧
        ∀ x ∈ w.initiators, Link.proofMessage x.link.linkId
          (read 32 (sessionProof.drop 64)) sessionIdentity (sessionProof.drop 96) ∈
            w.signed := by
    decide +kernel
  obtain ⟨⟨link, encryptedRtt⟩, h⟩ := isSome_iff_exists.mp hsome
  obtain ⟨w, hrun, h⟩ := bind_eq_some_iff.mp h
  obtain ⟨x, hx, h⟩ := bind_eq_some_iff.mp h
  rw [toOption_eq_some] at h
  rw [hrun, all_some, decide_eq_true_iff] at hideal
  obtain ⟨r, hr, -, -, -, hid, hkeys, -⟩ := World.handshake_agreement (fun _ _ => rfl) hrun
    hideal.1 hx (fun _ => hideal.2 x (List.mem_of_getElem? hx)) h
  exact ⟨w, x, link, encryptedRtt, hrun, hx, h, r, hr, hid, hkeys⟩

end Reticulum
