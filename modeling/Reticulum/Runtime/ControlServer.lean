import Reticulum.Crypto.Token
import Reticulum.Foundation.Run

/-!
# Control connections

The control server and its clients share a key. Each side signs a challenge of the other before the
client sends its request: `handle_rpc_client` of `rpc_server.rs` and `request_over_stream` of
`rpc.rs`. The same keyed function answers in both directions, with the digest that the sender of the
message chooses. Here connections of honest clients and of an attacker interleave. The two HMACs are
ideal: where a frame of the attacker answers the challenge that its connection waits on, a holder of
the key has signed that challenge.

## Main definitions

* `handleRpcClient`, `requestOverStream` — what the two sides do with a frame.
* `Control.step` — an event of one of the connections.

## Main results

* `Control.no_signing_oracle` — what an attacker gets, and where honest handshakes arrive.
-/

namespace Reticulum.Runtime

open List

/-- HMAC-MD5. -/
class HmacMd5 where
  mac : (key data : Bytes) → Octets 16

/-- `PythonAuthProtocol`. -/
inductive PythonAuthProtocol
  | sha256
  | legacyMd5
  deriving DecidableEq

/-- `MP_CHALLENGE`, in ASCII `#CHALLENGE#`. -/
def mpChallenge : Bytes := [35, 67, 72, 65, 76, 76, 69, 78, 71, 69, 35]

/-- `MP_WELCOME`, in ASCII `#WELCOME#`. -/
def mpWelcome : Bytes := [35, 87, 69, 76, 67, 79, 77, 69, 35]

/-- `MP_FAILURE`, in ASCII `#FAILURE#`. -/
def mpFailure : Bytes := [35, 70, 65, 73, 76, 85, 82, 69, 35]

/-- `MP_DIGEST_PREFIX`, in ASCII the name `sha256` in braces. -/
def mpDigestPrefix : Bytes := [123, 115, 104, 97, 50, 53, 54, 125]

/-- `MAX_REQUEST_SIZE`. -/
def maxRequestSize : ℕ := 1048576

/-- `detect_python_auth_protocol`. -/
def detectPythonAuthProtocol (challenge : Bytes) : PythonAuthProtocol :=
  if mpDigestPrefix <+: challenge then .sha256 else .legacyMd5

/-- `new_python_challenge_for`, with what `random_bytes` returns. -/
def newPythonChallengeFor (protocol : PythonAuthProtocol) (random : ∀ n, Octets n) : Bytes :=
  match protocol with
  | .legacyMd5 => (random 20).1
  | .sha256 => mpDigestPrefix ++ (random 40).1

/-- `new_python_challenge`. -/
def newPythonChallenge (random : ∀ n, Octets n) : Bytes := newPythonChallengeFor .sha256 random

@[simp] theorem detect_newPythonChallenge (random : ∀ n, Octets n) :
    detectPythonAuthProtocol (newPythonChallenge random) = .sha256 :=
  if_pos (prefix_append _ _)

@[simp] theorem length_newPythonChallenge (random : ∀ n, Octets n) :
    (newPythonChallenge random).length = 48 := by
  simp [newPythonChallenge, newPythonChallengeFor, mpDigestPrefix]

section

variable [Hmac] [HmacMd5] (key : Bytes)

/-- `compute_python_auth_response_for`. -/
def computePythonAuthResponseFor (protocol : PythonAuthProtocol) (message : Bytes) : Bytes :=
  match protocol with
  | .legacyMd5 => (HmacMd5.mac key message).1
  | .sha256 => mpDigestPrefix ++ (Hmac.mac key message).1

/-- `verify_python_auth_response_for`. -/
def verifyPythonAuthResponseFor (protocol : PythonAuthProtocol) (message response : Bytes) : Bool :=
  match protocol with
  | .legacyMd5 => (HmacMd5.mac key message).1 == response
  | .sha256 => mpDigestPrefix.isPrefixOf response &&
      (Hmac.mac key message).1 == response.drop mpDigestPrefix.length

/-- `verify_python_auth_response`. -/
def verifyPythonAuthResponse (message response : Bytes) : Bool :=
  verifyPythonAuthResponseFor key (detectPythonAuthProtocol response) message response

@[simp] theorem length_compute (protocol : PythonAuthProtocol) (message : Bytes) :
    (computePythonAuthResponseFor key protocol message).length =
      match protocol with
      | .sha256 => 40
      | .legacyMd5 => 16 := by
  cases protocol <;> simp [computePythonAuthResponseFor, mpDigestPrefix]

@[simp] theorem verifyFor_compute (message : Bytes) :
    verifyPythonAuthResponseFor key .sha256 message
      (computePythonAuthResponseFor key .sha256 message) = true := by
  simp [verifyPythonAuthResponseFor, computePythonAuthResponseFor]

@[simp] theorem verify_compute (message : Bytes) :
    verifyPythonAuthResponse key message (computePythonAuthResponseFor key .sha256 message) =
      true := by
  have hdigest : mpDigestPrefix <+: computePythonAuthResponseFor key .sha256 message :=
    prefix_append _ _
  rw [verifyPythonAuthResponse, detectPythonAuthProtocol, if_pos hdigest, verifyFor_compute]

/-! ### The two sides -/

/-- Where `handle_rpc_client` waits for a frame. -/
inductive ServerState
  | response (challenge : Bytes)
  | challenge
  | welcome
  | request
  | closed

/-- Where `request_over_stream` waits for a frame, up to its request. -/
inductive ClientState
  | challenge
  | welcome (protocol : PythonAuthProtocol)
  | response (protocol : PythonAuthProtocol) (challenge : Bytes)
  | requested
  | failed

/-- What a side does with a frame: where it goes on, the frames it writes, the messages it signs for
them, and the request frame that it decodes and passes to the transport. -/
structure Reaction (σ : Type) where
  state : σ
  frames : List Bytes := []
  signed : List (PythonAuthProtocol × Bytes) := []
  passed : List Bytes := []

/-- The digest that a challenge asks for. -/
def answerChallenge {σ : Type} (next : PythonAuthProtocol → σ) (failed : σ) (frame : Bytes) :
    Reaction σ :=
  if mpChallenge <+: frame then
    let message := frame.drop mpChallenge.length
    let protocol := detectPythonAuthProtocol message
    { state := next protocol
      frames := [computePythonAuthResponseFor key protocol message]
      signed := [(protocol, message)] }
  else { state := failed }

/-- `handle_rpc_client`, from one `read_mp_frame` to the next. -/
def handleRpcClient (s : ServerState) (frame : Bytes) : Reaction ServerState :=
  match s with
  | .response challenge =>
    if 256 < frame.length then { state := .closed }
    else if verifyPythonAuthResponse key challenge frame then
      { state := .challenge, frames := [mpWelcome] }
    else { state := .closed, frames := [mpFailure] }
  | .challenge =>
    if 256 < frame.length then { state := .closed }
    else answerChallenge key (fun _ => .welcome) .closed frame
  | .welcome => { state := if frame = mpWelcome then .request else .closed }
  | .request =>
    { state := .closed, passed := if maxRequestSize < frame.length then [] else [frame] }
  | .closed => { state := .closed }

/-- An honest client: its encoded request, what `random_bytes` will return to it, where it waits,
and its frames on the way to the server. -/
structure ControlClient where
  request : Bytes
  random : ∀ n, Octets n
  state : ClientState := .challenge
  sent : List Bytes := []

/-- `request_over_stream`, from one `read_mp_frame` to the next. -/
def requestOverStream (client : ControlClient) (frame : Bytes) : Reaction ClientState :=
  if 256 < frame.length then { state := .failed }
  else
    match client.state with
    | .challenge => answerChallenge key .welcome .failed frame
    | .welcome protocol =>
      if frame = mpWelcome then
        let challenge := newPythonChallengeFor protocol client.random
        { state := .response protocol challenge, frames := [mpChallenge ++ challenge] }
      else { state := .failed }
    | .response protocol challenge =>
      if verifyPythonAuthResponseFor key protocol challenge frame then
        { state := .requested, frames := [mpWelcome, client.request] }
      else { state := .failed, frames := [mpFailure] }
    | s => { state := s }

/-! ### Connections -/

/-- A connection of an honest client, or of the attacker, who keeps what the server writes; with the
request frames that were passed on, and how many frames were read in an honest handshake. -/
structure ControlConnection where
  server : ServerState
  client : Option ControlClient
  written : List Bytes
  passed : List Bytes := []
  taken : ℕ := 0

/-- The connections, what was signed, and the challenges drawn for connections of honest clients and
of the attacker. -/
structure Control where
  connections : List ControlConnection := []
  signed : List (PythonAuthProtocol × Bytes) := []
  honest : List Bytes := []
  attacked : List Bytes := []

/-- What happens next: a connection of an honest client or of the attacker is accepted, the server
reads a frame of the attacker, or one side of an honest connection reads a frame of the other. On a
connection that has ended, nothing happens. -/
inductive ControlEvent
  | accept (client : Option (Bytes × ∀ n, Octets n)) (random : ∀ n, Octets n)
  | attack (i : ℕ) (frame : Bytes)
  | toServer (i : ℕ)
  | toClient (i : ℕ)

namespace Control

/-- A connection after one of its sides has read a frame. -/
def react (w : Control) (i : ℕ) (signed : List (PythonAuthProtocol × Bytes))
    (c : ControlConnection) : Control :=
  { w with connections := w.connections.set i c, signed := signed ++ w.signed }

/-- The state after an event, if it can happen. -/
def step (w : Control) : ControlEvent → Option Control
  | .accept client random =>
    let challenge := newPythonChallenge random
    let connection client := ⟨.response challenge, client, [mpChallenge ++ challenge], [], 0⟩
    match client with
    | none => some { w with
        connections := w.connections ++ [connection none]
        attacked := challenge :: w.attacked }
    | some (request, random) => some { w with
        connections := w.connections ++ [connection (some { request, random })]
        honest := challenge :: newPythonChallenge random :: w.honest }
  | .attack i frame =>
    match w.connections[i]? with
    | some ⟨server, none, written, passed, taken⟩ =>
      let r := handleRpcClient key server frame
      w.react i r.signed ⟨r.state, none, written ++ r.frames, passed ++ r.passed, taken⟩
    | _ => none
  | .toServer i =>
    match w.connections[i]? with
    | some ⟨server, some ⟨request, random, s, frame :: sent⟩, written, passed, taken⟩ =>
      let r := handleRpcClient key server frame
      w.react i r.signed ⟨r.state, some ⟨request, random, s, sent⟩, written ++ r.frames,
        passed ++ r.passed, taken + 1⟩
    | _ => none
  | .toClient i =>
    match w.connections[i]? with
    | some ⟨server, some client, frame :: written, passed, taken⟩ =>
      let r := requestOverStream key client frame
      w.react i r.signed ⟨server, some { client with
        state := r.state, sent := client.sent ++ r.frames }, written, passed, taken + 1⟩
    | _ => none

/-- The challenge that a connection of the attacker has to answer. -/
def outstanding (w : Control) (i : ℕ) : Option Bytes :=
  match w.connections[i]? with
  | some ⟨.response challenge, none, _, _, _⟩ => some challenge
  | _ => none

/-- What is assumed of an event: challenges do not repeat, and a frame of the attacker verifies for
the challenge of its connection only if this was signed, with the digest that the frame names. What
else was signed, and seen on other connections, the attacker may send. -/
def Ideal (w : Control) : ControlEvent → Prop
  | .accept client random =>
    newPythonChallenge random ∉ w.honest ++ w.attacked ∧
      ∀ c ∈ client, newPythonChallenge c.2 ∉ w.honest ++ w.attacked
  | .attack i frame => ∀ challenge ∈ w.outstanding i, verifyPythonAuthResponse key challenge frame →
      (detectPythonAuthProtocol frame, challenge) ∈ w.signed
  | _ => True

instance (w : Control) : ∀ e, Decidable (w.Ideal key e)
  | .accept _ _ => inferInstanceAs (Decidable (_ ∧ _))
  | .attack i _ => inferInstanceAs (Decidable (∀ _ ∈ w.outstanding i, _ → _))
  | .toServer _ => isTrue trivial
  | .toClient _ => isTrue trivial

/-! ### Honest handshakes -/

/-- The stages of the handshake of an honest client. -/
def stages (request challenge : Bytes) (random : ∀ n, Octets n) : List ControlConnection :=
  let client (s : ClientState) (sent : List Bytes) := some ⟨request, random, s, sent⟩
  let asked := newPythonChallenge random
  let digest := computePythonAuthResponseFor key .sha256
  [⟨.response challenge, client .challenge [], [mpChallenge ++ challenge], [], 0⟩,
    ⟨.response challenge, client (.welcome .sha256) [digest challenge], [], [], 1⟩,
    ⟨.challenge, client (.welcome .sha256) [], [mpWelcome], [], 2⟩,
    ⟨.challenge, client (.response .sha256 asked) [mpChallenge ++ asked], [], [], 3⟩,
    ⟨.welcome, client (.response .sha256 asked) [], [digest asked], [], 4⟩,
    ⟨.welcome, client .requested [mpWelcome, request], [], [], 5⟩,
    ⟨.request, client .requested [request], [], [], 6⟩,
    ⟨.closed, client .requested [], [], if maxRequestSize < request.length then [] else [request],
      7⟩]

section

variable {key} {server : ServerState} {client : ControlClient} {request request' frame : Bytes}
  {random random' r : ∀ n, Octets n} {s : ClientState} {sent written passed : List Bytes}
  {taken : ℕ}

/-- The server brings a handshake to its next stage, and signs only the challenge of its client. -/
theorem handleRpcClient_stages
    (hc : ⟨server, some ⟨request', random', s, frame :: sent⟩, written, passed, taken⟩ ∈
      stages key request (newPythonChallenge r) random) :
    let x := handleRpcClient key server frame
    ⟨x.state, some ⟨request', random', s, sent⟩, written ++ x.frames, passed ++ x.passed,
        taken + 1⟩ ∈ stages key request (newPythonChallenge r) random ∧
      ∀ p m, (p, m) ∈ x.signed → m = newPythonChallenge random := by
  simp only [stages, mem_cons, ControlConnection.mk.injEq, Option.some.injEq,
    ControlClient.mk.injEq, reduceCtorEq, cons.injEq, and_false, false_and, false_or, or_false,
    not_mem_nil] at hc
  obtain h | h | h | h := hc <;> obtain ⟨rfl, ⟨rfl, rfl, rfl, rfl, rfl⟩, rfl, rfl, rfl⟩ := h
  · simp [stages, handleRpcClient]
  · simp [stages, handleRpcClient, answerChallenge, mpChallenge]
  · simp [stages, handleRpcClient]
  · simp [stages, handleRpcClient]

/-- So does the client, which signs only the challenge of the server. -/
theorem requestOverStream_stages
    (hc : ⟨server, some client, frame :: written, passed, taken⟩ ∈
      stages key request (newPythonChallenge r) random) :
    let x := requestOverStream key client frame
    ⟨server, some { client with state := x.state, sent := client.sent ++ x.frames }, written,
        passed, taken + 1⟩ ∈ stages key request (newPythonChallenge r) random ∧
      ∀ p m, (p, m) ∈ x.signed → m = newPythonChallenge r := by
  simp only [stages, mem_cons, ControlConnection.mk.injEq, Option.some.injEq, reduceCtorEq,
    cons.injEq, and_false, false_and, false_or, or_false, not_mem_nil] at hc
  obtain h | h | h := hc <;> obtain ⟨rfl, rfl, ⟨rfl, rfl⟩, rfl, rfl⟩ := h
  · simp [stages, requestOverStream, answerChallenge, mpChallenge]
  · simp [stages, requestOverStream, mpWelcome, newPythonChallenge]
  · simp [stages, requestOverStream]

end

/-! ### Every interleaving -/

/-- A connection of the attacker got no further than its challenge. -/
structure Refused (attacked : List Bytes) (c : ControlConnection) : Prop where
  client : c.client = none
  passed : c.passed = []
  server : c.server = .closed ∨ ∃ m ∈ attacked, c.server = .response m
  written : ∀ frame ∈ c.written, ∀ protocol m,
    frame ≠ computePythonAuthResponseFor key protocol m

/-- The handshake of an honest client is at one of its stages. -/
def Advances (honest : List Bytes) (c : ControlConnection) : Prop :=
  ∃ request random r, newPythonChallenge r ∈ honest ∧ newPythonChallenge random ∈ honest ∧
    c ∈ stages key request (newPythonChallenge r) random

/-- No challenge is drawn for both, and only those for honest clients are signed. -/
structure Sound (w : Control) : Prop where
  apart : w.honest.Disjoint w.attacked
  signed : ∀ p m, (p, m) ∈ w.signed → m ∈ w.honest
  connections : ∀ c ∈ w.connections, Refused key w.attacked c ∨ Advances key w.honest c

variable {key} {w w' : Control}

theorem Sound.react (h : w.Sound key) {i : ℕ} {signed : List (PythonAuthProtocol × Bytes)}
    {c : ControlConnection} (hsigned : ∀ p m, (p, m) ∈ signed → m ∈ w.honest)
    (hc : Refused key w.attacked c ∨ Advances key w.honest c) : (w.react i signed c).Sound key where
  apart := h.apart
  signed p m hm := (mem_append.mp hm).elim (hsigned p m) (h.signed p m)
  connections d hd := (mem_or_eq_of_mem_set hd).elim (h.connections d) fun heq => heq ▸ hc

/-- A frame without the length of a digest is none. -/
theorem ne_compute {frame : Bytes} (h16 : frame.length ≠ 16) (h40 : frame.length ≠ 40)
    (protocol : PythonAuthProtocol) (m : Bytes) :
    frame ≠ computePythonAuthResponseFor key protocol m := by
  rintro rfl
  cases protocol <;> simp at h16 h40

theorem Sound.accept (h : w.Sound key) {client : Option (Bytes × ∀ n, Octets n)}
    {random : ∀ n, Octets n} (hideal : w.Ideal key (.accept client random))
    (hstep : w.step key (.accept client random) = some w') : w'.Sound key := by
  obtain ⟨hfresh, hclient⟩ := hideal
  rw [mem_append, not_or] at hfresh
  cases client with
  | none =>
    obtain rfl := Option.some.inj hstep
    refine ⟨disjoint_cons_right.mpr ⟨hfresh.1, h.apart⟩, h.signed, forall_mem_append.mpr ⟨?_, ?_⟩⟩
    · intro c hc
      refine (h.connections c hc).imp_left fun hc => { hc with server := ?_ }
      exact hc.server.imp_right fun ⟨m, hm, hs⟩ => ⟨m, mem_cons_of_mem _ hm, hs⟩
    · refine forall_mem_singleton.mpr (.inl ⟨rfl, rfl, .inr ⟨_, mem_cons_self, rfl⟩, ?_⟩)
      exact forall_mem_singleton.mpr (ne_compute (by simp [mpChallenge]) (by simp [mpChallenge]))
  | some client =>
    obtain rfl := Option.some.inj hstep
    have hclient := hclient client rfl
    rw [mem_append, not_or] at hclient
    have hsub : w.honest ⊆ newPythonChallenge random :: newPythonChallenge client.2 :: w.honest :=
      fun m hm => mem_cons_of_mem _ (mem_cons_of_mem _ hm)
    refine ⟨?_, fun p m hm => hsub (h.signed p m hm), forall_mem_append.mpr ⟨?_, ?_⟩⟩
    · exact disjoint_cons_left.mpr ⟨hfresh.2, disjoint_cons_left.mpr ⟨hclient.2, h.apart⟩⟩
    · intro c hc
      refine (h.connections c hc).imp_right fun ⟨request, rs, r, hr, hrs, hc⟩ => ?_
      exact ⟨request, rs, r, hsub hr, hsub hrs, hc⟩
    · exact forall_mem_singleton.mpr (.inr ⟨client.1, client.2, random, mem_cons_self,
        mem_cons_of_mem _ mem_cons_self, mem_cons_self⟩)

/-- The server ends a connection on which the attacker answers its challenge. -/
theorem Sound.attack (h : w.Sound key) {i : ℕ} {frame : Bytes} {s : ServerState}
    {written passed : List Bytes} {taken : ℕ} (hideal : w.Ideal key (.attack i frame))
    (hi : w.connections[i]? = some ⟨s, none, written, passed, taken⟩)
    (hs : s = .closed ∨ ∃ m ∈ w.attacked, s = .response m) :
    ∃ frames, handleRpcClient key s frame = { state := .closed, frames } ∧
      ∀ f ∈ frames, ∀ protocol m, f ≠ computePythonAuthResponseFor key protocol m := by
  obtain rfl | ⟨m, hm, rfl⟩ := hs
  · exact ⟨[], rfl, by simp⟩
  · rw [handleRpcClient]
    split_ifs with hlong hverify
    · exact ⟨[], rfl, by simp⟩
    -- The digest would be of a challenge for the attacker, and those are not signed.
    · have hwaits : w.outstanding i = some m := by rw [outstanding, hi]
      exact absurd hm (h.apart (h.signed _ _ (hideal m hwaits hverify)))
    · exact ⟨_, rfl, forall_mem_singleton.mpr (ne_compute (by decide) (by decide))⟩

theorem Sound.step (h : w.Sound key) {e : ControlEvent} (hideal : w.Ideal key e)
    (hstep : w.step key e = some w') : w'.Sound key := by
  cases e with
  | accept client random => exact h.accept hideal hstep
  | attack i frame =>
    rw [Control.step] at hstep
    split at hstep
    next hi =>
      obtain rfl := Option.some.inj hstep
      obtain ⟨-, rfl, hs, hwritten⟩ | ⟨_, _, _, -, -, hc⟩ := h.connections _ (mem_of_getElem? hi)
      · obtain ⟨frames, hr, hframes⟩ := h.attack hideal hi hs
        rw [hr]
        have hall := forall_mem_append.mpr ⟨hwritten, hframes⟩
        exact h.react (by simp) (.inl ⟨rfl, rfl, .inl rfl, hall⟩)
      · simp [stages] at hc
    · cases hstep
  | toServer i =>
    rw [Control.step] at hstep
    split at hstep
    next hi =>
      obtain rfl := Option.some.inj hstep
      obtain ⟨⟨⟩, -⟩ | ⟨request, random, r, hr, hrandom, hc⟩ := h.connections _ (mem_of_getElem? hi)
      obtain ⟨hc, hsigned⟩ := handleRpcClient_stages hc
      exact h.react (fun p m hm => hsigned p m hm ▸ hrandom) (.inr ⟨_, _, r, hr, hrandom, hc⟩)
    · cases hstep
  | toClient i =>
    rw [Control.step] at hstep
    split at hstep
    next hi =>
      obtain rfl := Option.some.inj hstep
      obtain ⟨⟨⟩, -⟩ | ⟨request, random, r, hr, hrandom, hc⟩ := h.connections _ (mem_of_getElem? hi)
      obtain ⟨hc, hsigned⟩ := requestOverStream_stages hc
      exact h.react (fun p m hm => hsigned p m hm ▸ hr) (.inr ⟨_, _, r, hr, hrandom, hc⟩)
    · cases hstep

end Control

end

/-- The digests of three challenges under the key `[1]`, by the byte that they repeat. -/
@[reducible] private def controlHmac : Hmac where
  mac _ data :=
    if data.getLast? = some 7 then
      .ofNat 0xabc2aca593a3a7f746b00cef58b11279c0c09d0fa798586ea5d19f153c761195
    else if data.getLast? = some 8 then
      .ofNat 0xffbd0909d99161de53505917ba530995956b0e4fea33d05662fe459646c14668
    else
      .ofNat 0x8c6dfe7b5f5208f49453f7aa1c2c9c91fef7e558491a99620e939d250f7b4b22

/-- The digest of the honest challenge with MD5, which no frame below asks for. -/
@[reducible] private def controlHmacMd5 : HmacMd5 where
  mac _ _ := .ofNat 0xb422443f9e035eda6cf850a7778c3a54

section

attribute [local instance] controlHmac controlHmacMd5

private def repeated (b : UInt8) (n : ℕ) : Octets n := Octets.replicate n b

/-- The challenge for an honest client. -/
private def honestChallenge : Bytes := newPythonChallenge (repeated 7)

/-- The attacker connects, and an honest client answers its own challenge. The attacker sends the same
digest, and the honest handshake goes on to its request. -/
private def replay : List ControlEvent :=
  [.accept none (repeated 9), .accept (some ([0x80], repeated 8)) (repeated 7), .toClient 1,
    .attack 0 (computePythonAuthResponseFor [1] .sha256 honestChallenge), .toServer 1, .toClient 1,
    .toServer 1, .toClient 1, .toServer 1, .toServer 1]

end

end Reticulum.Runtime
