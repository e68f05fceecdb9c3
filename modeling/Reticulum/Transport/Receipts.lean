import Reticulum.Crypto.Primitives
import Reticulum.Foundation.Ledger
import Reticulum.Foundation.Run
import Reticulum.Foundation.Table

/-!
# Delivery receipts

A node keeps a receipt for a packet it sent until a proof of delivery arrives, the time is up or
there are too many: `receipt.rs` of the `rns-wire` crate and the parts of `actor/mod.rs`,
`actor/inbound.rs` and `actor/maintenance.rs` of the `rns-transport` crate that use it. Three maps
accompany the receipts: the ids of messages, the channels for their proofs, and the watchers that
are told how a send ended.

What a watcher is told is kept as a log, as are the sends that were answered. Watchers are numbered
in the order of the sends that bring them.

## Main results

* `Receipts.Sound.step` — the invariant of the four maps.
* `Receipts.receipts_truthful` — watchers are told the truth, once.
-/

namespace Reticulum.Transport

open Table Octets Option Bool

/-! ### A receipt -/

/-- `ReceiptStatus`. -/
inductive ReceiptStatus
  | sent
  | delivered
  | failed
  | culled
  | receiving
  deriving DecidableEq, Repr

/-- `ReceiptUpdate`, but for its initial value `Sent`: what a watcher is told at the end. -/
inductive ReceiptUpdate
  | delivered (rtt : ℕ)
  | timedOut
  | failed
  | culled
  deriving DecidableEq, Repr

/-- `PacketReceipt`. Times are in nanoseconds; a node registers no callbacks. -/
structure PacketReceipt where
  hash : Octets 32
  truncatedHash : Octets 16
  destinationHash : Option (Octets 16)
  destinationPublicKey : Option (Octets 64)
  status : ReceiptStatus
  sentAt : ℕ
  concludedAt : Option ℕ
  timeout : Option ℕ
  deriving DecidableEq, Repr

variable {now : ℕ}

namespace PacketReceipt

/-- `PacketReceipt::new`. -/
def new (now : ℕ) (hash : Octets 32) (truncatedHash : Octets 16) (timeout : Option ℕ) :
    PacketReceipt where
  hash
  truncatedHash
  destinationHash := none
  destinationPublicKey := none
  status := .sent
  sentAt := now
  concludedAt := none
  timeout

/-- `PacketReceipt::set_destination_identity`. -/
def setDestinationIdentity (r : PacketReceipt) (destinationHash : Octets 16)
    (publicKey : Option (Octets 64)) : PacketReceipt :=
  let r := if r.destinationHash = none then { r with destinationHash := some destinationHash } else r
  if r.destinationHash = some destinationHash ∧ r.destinationPublicKey = none ∧ publicKey.isSome then
    { r with destinationPublicKey := publicKey }
  else r

/-- `PacketReceipt::fail`. -/
def fail (r : PacketReceipt) (now : ℕ) : PacketReceipt :=
  { r with status := .failed, concludedAt := some now }

/-- `PacketReceipt::get_rtt`. -/
def getRtt (r : PacketReceipt) : Option ℕ := r.concludedAt.map (· - r.sentAt)

/-- `PacketReceipt::is_timed_out`. -/
def isTimedOut (r : PacketReceipt) (now : ℕ) : Bool :=
  match r.timeout with
  | some timeout => decide (timeout < now - r.sentAt)
  | none => false

/-- `EXPL_LENGTH`: a proof with the hash of the packet. -/
def explLength : ℕ := 96

/-- `IMPL_LENGTH`: a proof that is a signature only. -/
def implLength : ℕ := 64

/-- `PacketReceipt::validate_proof`: whether the proof is accepted, and the receipt after it. -/
def validateProof (r : PacketReceipt) (now : ℕ) (proof : Bytes)
    (verify : Octets 64 → Octets 32 → Bool) : Bool × PacketReceipt :=
  let delivered := { r with status := .delivered, concludedAt := some now }
  if proof.length = explLength then
    if proof.take 32 = r.hash.1 ∧ verify (read 64 (proof.drop 32)) r.hash then
      (true, delivered)
    else (false, r)
  else if proof.length = implLength then
    if verify (read 64 proof) r.hash then (true, delivered) else (false, r)
  else (false, r)

/-- `PacketReceipt::validate_proof_from_destination`. -/
def validateProofFromDestination [Ed25519] (r : PacketReceipt) (now : ℕ) (proof : Bytes) :
    Bool × PacketReceipt :=
  match r.destinationPublicKey with
  | none => (false, r)
  | some publicKey =>
    let signingKey := read 32 (publicKey.1.drop 32)
    if Ed25519.validKey signingKey then
      r.validateProof now proof fun signature message =>
        Ed25519.verify signingKey message.1 signature
    else (false, r)

/-- The signature in a proof of either form. -/
def proofSignature (proof : Bytes) : Octets 64 :=
  if proof.length = explLength then read 64 (proof.drop 32) else read 64 proof

variable {r r' : PacketReceipt}

/-- An accepted proof is signed over the hash of the packet under the key of the receipt. -/
theorem of_validateProofFromDestination [Ed25519] {proof : Bytes}
    (h : r.validateProofFromDestination now proof = (true, r')) :
    (∃ publicKey, r.destinationPublicKey = some publicKey ∧
      Ed25519.verify (read 32 (publicKey.1.drop 32)) r.hash.1 (proofSignature proof) = true) ∧
    r'.getRtt = some (now - r.sentAt) := by
  unfold validateProofFromDestination at h
  split at h
  · cases h
  next publicKey hkey =>
    simp only at h
    split_ifs at h with hvalid
    swap
    · cases h
    unfold validateProof at h
    simp only at h
    split_ifs at h with hexpl haccept himpl haccept
    · obtain rfl := (Prod.mk.inj h).2
      exact ⟨⟨publicKey, hkey, by rw [proofSignature, if_pos hexpl]; exact haccept.2⟩, rfl⟩
    · cases h
    · obtain rfl := (Prod.mk.inj h).2
      exact ⟨⟨publicKey, hkey, by rw [proofSignature, if_neg hexpl]; exact haccept⟩, rfl⟩
    · cases h
    · cases h

/-- A proof that is not accepted leaves the receipt as it is. -/
theorem of_validateProofFromDestination_false [Ed25519] {proof : Bytes}
    (h : r.validateProofFromDestination now proof = (false, r')) : r' = r := by
  unfold validateProofFromDestination validateProof at h
  split at h
  · exact (Prod.mk.inj h).2.symm
  · simp only at h
    split_ifs at h <;> first | exact (Prod.mk.inj h).2.symm | cases h

/-- Binding a receipt to an identity does not conclude it. -/
theorem setDestinationIdentity_status (r : PacketReceipt) (destinationHash : Octets 16)
    (publicKey : Option (Octets 64)) :
    (r.setDestinationIdentity destinationHash publicKey).status = r.status ∧
      (r.setDestinationIdentity destinationHash publicKey).concludedAt = r.concludedAt := by
  unfold setDestinationIdentity
  simp only
  split_ifs <;> exact ⟨rfl, rfl⟩

end PacketReceipt

open PacketReceipt

/-! ### The four maps -/

/-- `MAX_RECEIPTS`. -/
def maxReceipts : ℕ := 1024

/-- The receipts of a `TransportActor`, what its watchers were told, and which sends were answered
`Sent` for which watcher and receipt. -/
structure Receipts where
  receiptTable : Table (Octets 16) PacketReceipt
  receiptMsgIds : Table (Octets 16) String
  receiptProofTxs : Table (Octets 16) ℕ
  receiptUpdates : Table (Octets 16) ℕ
  nextWatcher : ℕ
  reports : List (ℕ × ReceiptUpdate)
  tracked : List (ℕ × Octets 16)

/-- `TrackedReceiptRegistration`, and the like fields of the registration messages. -/
structure ReceiptRegistration where
  truncatedHash : Octets 16
  fullHash : Octets 32
  destinationHash : Octets 16
  destinationPublicKey : Octets 64
  timeout : Option ℕ
  deriving DecidableEq, Repr

/-- The receipt of a registration; without a timeout it lasts 180 seconds. -/
def ReceiptRegistration.receipt (reg : ReceiptRegistration) (now : ℕ) : PacketReceipt :=
  (new now reg.fullHash reg.truncatedHash
    (some (reg.timeout.getD (180 * 10 ^ 9)))).setDestinationIdentity reg.destinationHash
      (some reg.destinationPublicKey)

/-- `DestinationEvent::DeliveryProof`: to a channel, or without one to all destinations. -/
structure DeliveryProof where
  msgId : String
  rtt : Option ℕ
  proofTx : Option ℕ
  deriving DecidableEq, Repr

namespace Receipts

/-- A node without receipts. -/
def empty : Receipts := ⟨∅, ∅, ∅, ∅, 0, [], []⟩

variable (r : Receipts)

/-- The end of a receipt that timed out or was culled. -/
def conclude (key : Octets 16) (update : ReceiptUpdate) : Receipts :=
  { r with
    receiptTable := r.receiptTable.erase key
    receiptMsgIds := r.receiptMsgIds.erase key
    receiptProofTxs := r.receiptProofTxs.erase key
    receiptUpdates := r.receiptUpdates.erase key
    reports := r.reports ++ ((r.receiptUpdates.get key).map fun watcher => (watcher, update)).toList }

/-- `SendPacket`. The dispatch may send the packet or not, and may lose the connection to a shared
instance on the way. -/
def sendPacket (now : ℕ) (receipt : Option ReceiptRegistration) (sent reset : Bool) : Receipts :=
  let dispatch (r : Receipts) : Receipts := if reset then { r with receiptProofTxs := ∅ } else r
  match receipt with
  | none => dispatch r
  | some reg =>
    let watcher := r.nextWatcher
    let r := { r with nextWatcher := watcher + 1 }
    if r.receiptTable.contains reg.truncatedHash then r
    else
      let r := dispatch
        { r with
          receiptTable := r.receiptTable.insert reg.truncatedHash (reg.receipt now)
          receiptUpdates := r.receiptUpdates.insert reg.truncatedHash watcher }
      if sent then { r with tracked := r.tracked ++ [(watcher, reg.truncatedHash)] }
      else
        { r with
          receiptTable := r.receiptTable.erase reg.truncatedHash
          receiptUpdates := r.receiptUpdates.erase reg.truncatedHash }

/-- The receipt that `on_outbound_with_receipt_policy` makes or completes for a data packet. -/
def outbound (now : ℕ) (fullHash : Octets 32) (truncatedHash destinationHash : Octets 16)
    (destinationPublicKey : Option (Octets 64)) : Receipts :=
  let receipt := (r.receiptTable.get truncatedHash).getD
    (new now fullHash truncatedHash (some (180 * 10 ^ 9)))
  let receipt := receipt.setDestinationIdentity destinationHash destinationPublicKey
  { r with receiptTable := r.receiptTable.insert truncatedHash receipt }

/-- `RegisterReceipt`, and with a channel `RegisterReceiptWithProof`. -/
def registerReceipt (now : ℕ) (reg : ReceiptRegistration) (msgId : String) (proofTx : Option ℕ) :
    Receipts :=
  { r with
    receiptTable := r.receiptTable.insert reg.truncatedHash (reg.receipt now)
    receiptMsgIds := r.receiptMsgIds.insert reg.truncatedHash msgId
    receiptProofTxs := match proofTx with
      | none => r.receiptProofTxs.erase reg.truncatedHash
      | some tx => r.receiptProofTxs.insert reg.truncatedHash tx }

/-- `SetReceiptTimeout`. -/
def setReceiptTimeout (key : Octets 16) (timeout : ℕ) : Receipts :=
  { r with receiptTable := r.receiptTable.modify key fun receipt =>
      if receipt.status = .sent then { receipt with timeout := some timeout } else receipt }

/-- A stored receipt, with a key recalled from an announce where it had none. -/
def bound (recalled : Octets 16 → Option (Octets 64)) (receipt : PacketReceipt) : PacketReceipt :=
  match receipt.destinationPublicKey, receipt.destinationHash with
  | none, some destinationHash =>
    receipt.setDestinationIdentity destinationHash (recalled destinationHash)
  | _, _ => receipt

/-- The part of `process_proof` about receipts: the maps after a proof for a stored receipt, and
what is delivered because of it. -/
def processProof [Ed25519] (now : ℕ) (recalled : Octets 16 → Option (Octets 64))
    (key : Octets 16) (proof : Bytes) : Receipts × Option DeliveryProof :=
  match r.receiptTable.get key with
  | none => (r, none)
  | some stored =>
    let (validated, receipt) := (bound recalled stored).validateProofFromDestination now proof
    let r := { r with receiptTable := r.receiptTable.insert key receipt }
    if !validated then (r, none)
    else
      let rtt := receipt.getRtt
      let update := rtt.elim ReceiptUpdate.failed .delivered
      let r := { r with
        receiptUpdates := r.receiptUpdates.erase key
        reports := r.reports ++
          ((r.receiptUpdates.get key).map fun watcher => (watcher, update)).toList }
      match r.receiptMsgIds.get key with
      | none => ({ r with receiptTable := r.receiptTable.erase key }, none)
      | some msgId =>
        ({ r with
            receiptMsgIds := r.receiptMsgIds.erase key
            receiptProofTxs := r.receiptProofTxs.erase key
            receiptTable := r.receiptTable.erase key },
          some ⟨msgId, rtt, r.receiptProofTxs.get key⟩)

/-- How a receipt ends at the check at `now`, if it does. -/
def conclusion (now : ℕ) (receipt : PacketReceipt) : Option ReceiptUpdate :=
  let timedOut := receipt.status = .sent ∧ receipt.isTimedOut now
  let receipt := if timedOut then receipt.fail now else receipt
  if receipt.status = .sent then none
  else if timedOut then some .timedOut
  else match receipt.status with
    | .delivered => some (receipt.getRtt.elim .failed .delivered)
    | .culled => some .culled
    | _ => some .failed

/-- The check of the receipts in `on_tick`: first what is concluded leaves, then the oldest beyond
the bound. -/
def tick (now : ℕ) : Receipts :=
  let r := (r.receiptTable.toList.filterMap fun e =>
    (conclusion now e.2).map fun update => (e.1, update)).foldl (fun r e => r.conclude e.1 e.2) r
  let excess := r.receiptTable.size - maxReceipts
  let byAge := r.receiptTable.toList.insertionSort fun a b => a.2.sentAt ≤ b.2.sentAt
  (byAge.take excess).foldl (fun r e => r.conclude e.1 .culled) r

/-- The part of `clear_shared_connection_state` about receipts. -/
def clearSharedConnectionState : Receipts := { r with receiptProofTxs := ∅ }

end Receipts

/-- What happens to the receipts of a node, with the time. -/
inductive ReceiptEvent
  | sendPacket (now : ℕ) (receipt : Option ReceiptRegistration) (sent reset : Bool)
  | outbound (now : ℕ) (fullHash : Octets 32) (truncatedHash destinationHash : Octets 16)
      (destinationPublicKey : Option (Octets 64))
  | registerReceipt (now : ℕ) (registration : ReceiptRegistration) (msgId : String)
      (proofTx : Option ℕ)
  | setReceiptTimeout (key : Octets 16) (timeout : ℕ)
  | proof (now : ℕ) (recalled : Octets 16 → Option (Octets 64)) (key : Octets 16) (proof : Bytes)
  | tick (now : ℕ)
  | clearSharedConnectionState

/-- The receipts after an event. -/
def Receipts.step [Ed25519] (r : Receipts) : ReceiptEvent → Receipts
  | .sendPacket now receipt sent reset => r.sendPacket now receipt sent reset
  | .outbound now fullHash truncatedHash destinationHash publicKey =>
    r.outbound now fullHash truncatedHash destinationHash publicKey
  | .registerReceipt now registration msgId proofTx => r.registerReceipt now registration msgId proofTx
  | .setReceiptTimeout key timeout => r.setReceiptTimeout key timeout
  | .proof now recalled key proof => (r.processProof now recalled key proof).1
  | .tick now => r.tick now
  | .clearSharedConnectionState => r.clearSharedConnectionState

namespace Receipts

/-! ### The invariant -/

/-- A receipt that is still waiting for its end. -/
def Waiting (receipt : PacketReceipt) : Prop := receipt.status = .sent ∧ receipt.concludedAt = none

/-- The four maps agree: only waiting receipts are stored, the companion maps hold no other keys,
and every watcher of an answered send waits at its receipt or has been told once. -/
structure Sound (r : Receipts) : Prop where
  waiting : ∀ key receipt, r.receiptTable.get key = some receipt → Waiting receipt
  msgIds : ∀ key, r.receiptMsgIds.contains key → r.receiptTable.contains key
  proofTxs : ∀ key, r.receiptProofTxs.contains key → r.receiptMsgIds.contains key
  updates : ∀ key, r.receiptUpdates.contains key → r.receiptTable.contains key
  accounted : Accounted (r.tracked.map Prod.fst) r.receiptUpdates.values (r.reports.map Prod.fst)
  numbered : ∀ e ∈ r.tracked, e.1 < r.nextWatcher
  keyed : ∀ watcher key, (watcher, key) ∈ r.tracked →
    r.receiptUpdates.get key = some watcher ∨ watcher ∈ r.reports.map Prod.fst

theorem sound_empty : Sound empty where
  waiting := by simp [empty]
  msgIds := by simp [empty, contains]
  proofTxs := by simp [empty, contains]
  updates := by simp [empty, contains]
  accounted := .nil
  numbered := by simp [empty]
  keyed := by simp [empty]

/-- The log after telling the watcher of a receipt, if it has one. -/
private def told (updates : Table (Octets 16) ℕ) (reports : List (ℕ × ReceiptUpdate))
    (key : Octets 16) (update : ReceiptUpdate) : List (ℕ × ReceiptUpdate) :=
  reports ++ ((updates.get key).map fun watcher => (watcher, update)).toList

section Told

variable {r : Receipts} {key : Octets 16} {update : ReceiptUpdate}

/-- Telling the watcher of a receipt closes its account. -/
private theorem Sound.accounted_told (h : r.Sound) :
    Accounted (r.tracked.map Prod.fst) (r.receiptUpdates.erase key).values
      ((told r.receiptUpdates r.reports key update).map Prod.fst) := by
  cases hw : r.receiptUpdates.get key with
  | none =>
    rw [erase_of_get_eq_none hw]
    simpa [told, hw] using h.accounted
  | some watcher =>
    have hreports : (told r.receiptUpdates r.reports key update).map Prod.fst =
        r.reports.map Prod.fst ++ [watcher] := by
      simp [told, hw]
    rw [hreports]
    exact h.accounted.finish (values_perm_of_get hw)

private theorem Sound.keyed_told (h : r.Sound) (watcher : ℕ) (key' : Octets 16)
    (hw : (watcher, key') ∈ r.tracked) :
    (r.receiptUpdates.erase key).get key' = some watcher ∨
      watcher ∈ (told r.receiptUpdates r.reports key update).map Prod.fst := by
  rcases h.keyed watcher key' hw with hget | hmem
  · by_cases hkey : key' = key
    · subst hkey
      exact .inr (by simp [told, hget])
    · exact .inl (by rw [get_erase, if_neg hkey, hget])
  · refine .inr ?_
    rw [told, List.map_append]
    exact List.mem_append_left _ hmem

end Told

variable {r : Receipts}

/-- The end of a receipt. -/
theorem Sound.conclude (h : r.Sound) (key : Octets 16) (update : ReceiptUpdate) :
    (r.conclude key update).Sound where
  waiting := by
    intro key' receipt hget
    refine h.waiting key' receipt ?_
    simp only [Receipts.conclude, get_erase] at hget
    split_ifs at hget
    exact hget
  msgIds := by
    intro key' hc
    simp only [Receipts.conclude, contains_erase, and_eq_true] at hc ⊢
    exact ⟨hc.1, h.msgIds key' hc.2⟩
  proofTxs := by
    intro key' hc
    simp only [Receipts.conclude, contains_erase, and_eq_true] at hc ⊢
    exact ⟨hc.1, h.proofTxs key' hc.2⟩
  updates := by
    intro key' hc
    simp only [Receipts.conclude, contains_erase, and_eq_true] at hc ⊢
    exact ⟨hc.1, h.updates key' hc.2⟩
  accounted := h.accounted_told
  numbered := h.numbered
  keyed := h.keyed_told

theorem Sound.foldl_conclude {α : Type} (key : α → Octets 16) (update : α → ReceiptUpdate)
    (l : List α) : ∀ {r : Receipts}, r.Sound →
      (l.foldl (fun r e => r.conclude (key e) (update e)) r).Sound := by
  induction l with
  | nil => exact fun h => h
  | cons e l ih => exact fun h => ih (h.conclude (key e) (update e))

theorem waiting_new (now : ℕ) (hash : Octets 32) (truncatedHash : Octets 16) (timeout : Option ℕ) :
    Waiting (.new now hash truncatedHash timeout) := ⟨rfl, rfl⟩

theorem Waiting.setDestinationIdentity (h : Waiting receipt) (destinationHash : Octets 16)
    (publicKey : Option (Octets 64)) :
    Waiting (receipt.setDestinationIdentity destinationHash publicKey) := by
  obtain ⟨hstatus, hconcluded⟩ := receipt.setDestinationIdentity_status destinationHash publicKey
  exact ⟨hstatus.trans h.1, hconcluded.trans h.2⟩

theorem Waiting.bound (h : Waiting receipt)
    (recalled : Octets 16 → Option (Octets 64)) : Waiting (Receipts.bound recalled receipt) := by
  unfold Receipts.bound
  split
  · exact h.setDestinationIdentity _ _
  · exact h

theorem waiting_receipt (reg : ReceiptRegistration) (now : ℕ) : Waiting (reg.receipt now) :=
  (waiting_new _ _ _ _).setDestinationIdentity _ _

section

variable (h : r.Sound)

include h

theorem Sound.tick (now : ℕ) : (r.tick now).Sound :=
  Sound.foldl_conclude Prod.fst (fun _ => .culled) _
    (Sound.foldl_conclude Prod.fst Prod.snd _ h)

/-- Losing the channels for proofs. -/
theorem Sound.clearSharedConnectionState : r.clearSharedConnectionState.Sound where
  waiting := h.waiting
  msgIds := h.msgIds
  proofTxs := by simp [Receipts.clearSharedConnectionState, contains]
  updates := h.updates
  accounted := h.accounted
  numbered := h.numbered
  keyed := h.keyed

variable {receipt : PacketReceipt}

/-- Storing a waiting receipt under a key. -/
theorem Sound.insert (key : Octets 16) (hw : Waiting receipt) :
    Sound { r with receiptTable := r.receiptTable.insert key receipt } where
  waiting := by
    intro key' receipt' hget
    obtain ⟨-, rfl⟩ | hget := of_get_insert hget
    · exact hw
    · exact h.waiting key' receipt' hget
  msgIds := by
    intro key' hc
    simp [contains_insert, h.msgIds key' hc]
  proofTxs := h.proofTxs
  updates := by
    intro key' hc
    simp [contains_insert, h.updates key' hc]
  accounted := h.accounted
  numbered := h.numbered
  keyed := h.keyed

theorem Sound.outbound (now : ℕ) (fullHash : Octets 32)
    (truncatedHash destinationHash : Octets 16) (publicKey : Option (Octets 64)) :
    (r.outbound now fullHash truncatedHash destinationHash publicKey).Sound := by
  refine h.insert truncatedHash (Waiting.setDestinationIdentity ?_ _ _)
  cases hget : r.receiptTable.get truncatedHash with
  | none => exact waiting_new _ _ _ _
  | some receipt => exact h.waiting truncatedHash receipt hget

theorem Sound.registerReceipt (now : ℕ) (reg : ReceiptRegistration) (msgId : String)
    (proofTx : Option ℕ) : (r.registerReceipt now reg msgId proofTx).Sound := by
  have hi := h.insert reg.truncatedHash (waiting_receipt reg now)
  exact
    { waiting := hi.waiting
      msgIds := by
        intro key hc
        simp only [Receipts.registerReceipt, contains_insert, or_eq_true] at hc ⊢
        exact hc.imp_right (h.msgIds key)
      proofTxs := by
        intro key hc
        simp only [Receipts.registerReceipt, contains_insert, or_eq_true] at hc ⊢
        cases proofTx with
        | none =>
          simp only [contains_erase, and_eq_true] at hc
          exact .inr (h.proofTxs key hc.2)
        | some tx =>
          simp only [contains_insert, or_eq_true] at hc
          exact hc.imp_right (h.proofTxs key)
      updates := hi.updates
      accounted := h.accounted
      numbered := h.numbered
      keyed := h.keyed }

theorem Sound.setReceiptTimeout (key : Octets 16) (timeout : ℕ) :
    (r.setReceiptTimeout key timeout).Sound := by
  have hcontains (key' : Octets 16) :
      (r.setReceiptTimeout key timeout).receiptTable.contains key' =
        r.receiptTable.contains key' := by
    simp only [Receipts.setReceiptTimeout, contains, get_modify]
    split_ifs <;> simp
  exact
    { waiting := by
        intro key' receipt hget
        obtain ⟨stored, hstored, rfl, -⟩ | hget := of_get_modify hget
        · have hw := h.waiting key' stored hstored
          rw [if_pos hw.1]
          exact hw
        · exact h.waiting key' receipt hget
      msgIds := fun key' hc => (hcontains key').symm ▸ h.msgIds key' hc
      proofTxs := h.proofTxs
      updates := fun key' hc => (hcontains key').symm ▸ h.updates key' hc
      accounted := h.accounted
      numbered := h.numbered
      keyed := h.keyed }

/-- A send that finds its key taken, or brings no receipt. -/
private theorem Sound.count : Sound { r with nextWatcher := r.nextWatcher + 1 } :=
  { h with numbered := fun e he => (h.numbered e he).trans (Nat.lt_succ_self _) }

end

section Send

variable {key : Octets 16} {receipt : PacketReceipt}

/-- A send that is answered `Sent` makes its watcher wait at a new receipt. -/
private theorem Sound.sent (h : r.Sound) (hkey : r.receiptTable.contains key = false)
    (hw : Waiting receipt) :
    Sound { r with
      receiptTable := r.receiptTable.insert key receipt
      receiptUpdates := r.receiptUpdates.insert key r.nextWatcher
      nextWatcher := r.nextWatcher + 1
      tracked := r.tracked ++ [(r.nextWatcher, key)] } := by
  have hi := h.insert key hw
  have hnone : r.receiptUpdates.get key = none := by
    rw [← not_isSome_iff_eq_none]
    intro hsome
    rw [h.updates key hsome] at hkey
    cases hkey
  have hfresh : r.nextWatcher ∉ r.tracked.map Prod.fst := by
    rw [List.mem_map]
    rintro ⟨e, he, heq⟩
    exact absurd (h.numbered e he) (by omega)
  exact
    { waiting := hi.waiting
      msgIds := hi.msgIds
      proofTxs := h.proofTxs
      updates := by
        intro key' hc
        simp only [contains_insert, or_eq_true] at hc ⊢
        exact hc.imp_right (h.updates key')
      accounted := by
        rw [List.map_append, values_insert_of_get_eq_none hnone]
        exact h.accounted.start hfresh
      numbered := by
        intro e he
        rcases List.mem_append.mp he with he | he
        · exact (h.numbered e he).trans (Nat.lt_succ_self _)
        · rw [List.mem_singleton.mp he]
          exact Nat.lt_succ_self _
      keyed := by
        intro watcher key' he
        rcases List.mem_append.mp he with he | he
        · rcases h.keyed watcher key' he with hget | hmem
          · have hne : key' ≠ key := by
              rintro rfl
              rw [hnone] at hget
              cases hget
            exact .inl (by rw [get_insert_ne hne, hget])
          · exact .inr hmem
        · obtain ⟨rfl, rfl⟩ := Prod.mk.inj (List.mem_singleton.mp he)
          exact .inl get_insert_self }

/-- A send that is not answered `Sent` leaves nothing behind. -/
private theorem Sound.unsent (h : r.Sound) (hkey : r.receiptTable.contains key = false)
    (receipt : PacketReceipt) :
    Sound { r with
      receiptTable := (r.receiptTable.insert key receipt).erase key
      receiptUpdates := (r.receiptUpdates.insert key r.nextWatcher).erase key
      nextWatcher := r.nextWatcher + 1 } := by
  have hnone {V : Type} {t : Table (Octets 16) V} (ht : t.contains key = false) :
      t.get key = none := not_isSome_iff_eq_none.mp (by simpa [contains] using ht)
  have hback {V : Type} {t : Table (Octets 16) V} {v : V} (ht : t.contains key = false)
      (key' : Octets 16) : ((t.insert key v).erase key).get key' = t.get key' := by
    rw [get_erase, get_insert]
    split_ifs with heq
    · rw [heq, hnone ht]
    · rfl
  have hupdates : r.receiptUpdates.contains key = false := by
    cases hc : r.receiptUpdates.contains key with
    | false => rfl
    | true => exact absurd (h.updates key hc) (by simp [hkey])
  have hvalues : ((r.receiptUpdates.insert key r.nextWatcher).erase key).values.Perm
      r.receiptUpdates.values := by
    have hp := values_perm_of_get
      (get_insert_self (t := r.receiptUpdates) (k := key) (v := r.nextWatcher))
    rw [values_insert_of_get_eq_none (hnone hupdates)] at hp
    exact hp.cons_inv.symm
  exact
    { waiting := fun key' receipt' hget => h.waiting key' receipt' (hback hkey key' ▸ hget)
      msgIds := by
        intro key' hc
        rw [contains, hback hkey]
        exact h.msgIds key' hc
      proofTxs := h.proofTxs
      updates := by
        intro key' hc
        rw [contains, hback hupdates] at hc
        rw [contains, hback hkey]
        exact h.updates key' hc
      accounted := h.accounted.of_perm hvalues
      numbered := fun e he => (h.numbered e he).trans (Nat.lt_succ_self _)
      keyed := by
        intro watcher key' he
        rw [hback hupdates]
        exact h.keyed watcher key' he }

end Send

theorem Sound.sendPacket (h : r.Sound) (now : ℕ) (receipt : Option ReceiptRegistration)
    (sent reset : Bool) : (r.sendPacket now receipt sent reset).Sound := by
  -- Losing the shared connection on the way only empties the map of channels.
  have hreset (r' : Receipts) (h' : r'.Sound) :
      Sound (if reset then { r' with receiptProofTxs := ∅ } else r') := by
    cases reset
    · exact h'
    · exact h'.clearSharedConnectionState
  cases receipt with
  | none => exact hreset r h
  | some reg =>
    cases hkey : r.receiptTable.contains reg.truncatedHash with
    | true =>
      simp only [Receipts.sendPacket, hkey, if_true]
      exact h.count
    | false =>
      simp only [Receipts.sendPacket, hkey, false_eq_true, if_false]
      cases sent with
      | true =>
        have hs := hreset _ (h.sent hkey (waiting_receipt reg now))
        cases reset <;> exact hs
      | false =>
        have hs := hreset _ (h.unsent hkey (reg.receipt now))
        cases reset <;> exact hs

/-! ### Proofs -/

section Proof

variable [Ed25519]

/-- What a proof does: nothing without a receipt, at most a binding when it is refused, and when it
is accepted the end of the receipt. -/
theorem Sound.processProof_cases (h : r.Sound) (now : ℕ)
    (recalled : Octets 16 → Option (Octets 64)) (key : Octets 16) (proof : Bytes) :
    (r.processProof now recalled key proof).1 = r ∨
    ∃ stored, r.receiptTable.get key = some stored ∧
      ((r.processProof now recalled key proof).1 =
          { r with receiptTable := r.receiptTable.insert key (bound recalled stored) } ∨
        ∃ publicKey rtt, (bound recalled stored).destinationPublicKey = some publicKey ∧
          Ed25519.verify (read 32 (publicKey.1.drop 32)) (bound recalled stored).hash.1
            (proofSignature proof) = true ∧
          (r.processProof now recalled key proof).1 = r.conclude key (.delivered rtt)) := by
  cases hget : r.receiptTable.get key with
  | none =>
    left
    simp only [Receipts.processProof, hget]
  | some stored =>
    refine .inr ⟨stored, rfl, ?_⟩
    rcases hv : (bound recalled stored).validateProofFromDestination now proof with
      ⟨validated, receipt⟩
    cases validated with
    | false =>
      obtain rfl := of_validateProofFromDestination_false hv
      left
      simp only [Receipts.processProof, hget, hv, Bool.not_false, if_true]
    | true =>
      obtain ⟨⟨publicKey, hpublic, hverify⟩, hrtt⟩ := of_validateProofFromDestination hv
      refine .inr ⟨publicKey, now - (bound recalled stored).sentAt, hpublic, hverify, ?_⟩
      simp only [Receipts.processProof, hget, hv, Bool.not_true, Bool.false_eq_true, if_false, hrtt,
        elim_some, Receipts.conclude, erase_insert]
      cases hmsg : r.receiptMsgIds.get key with
      | some msgId => rfl
      | none =>
        -- Without a message id there is no channel either.
        have hproof : r.receiptProofTxs.get key = none := by
          rw [← not_isSome_iff_eq_none]
          intro hsome
          have hcontains := h.proofTxs key hsome
          rw [contains, hmsg] at hcontains
          cases hcontains
        rw [erase_of_get_eq_none hmsg, erase_of_get_eq_none hproof]

theorem Sound.processProof (h : r.Sound) (now : ℕ) (recalled : Octets 16 → Option (Octets 64))
    (key : Octets 16) (proof : Bytes) : (r.processProof now recalled key proof).1.Sound := by
  rcases h.processProof_cases now recalled key proof with
    heq | ⟨stored, hget, heq | ⟨publicKey, rtt, -, -, heq⟩⟩
  · rw [heq]
    exact h
  · rw [heq]
    exact h.insert key ((h.waiting key stored hget).bound recalled)
  · rw [heq]
    exact h.conclude key _

/-- Every event keeps the invariant. -/
theorem Sound.step (h : r.Sound) (e : ReceiptEvent) : (r.step e).Sound := by
  cases e with
  | sendPacket now receipt sent reset => exact h.sendPacket now receipt sent reset
  | outbound now fullHash truncatedHash destinationHash publicKey =>
    exact h.outbound now fullHash truncatedHash destinationHash publicKey
  | registerReceipt now registration msgId proofTx =>
    exact h.registerReceipt now registration msgId proofTx
  | setReceiptTimeout key timeout => exact h.setReceiptTimeout key timeout
  | proof now recalled key proof => exact h.processProof now recalled key proof
  | tick now => exact h.tick now
  | clearSharedConnectionState => exact h.clearSharedConnectionState

/-- Every run from a node without receipts keeps it. -/
theorem sound_run (events : List ReceiptEvent) : (events.foldl Receipts.step empty).Sound :=
  List.foldlRecOn events _ sound_empty fun _ h e _ => h.step e

end Proof

/-! ### Who is told of a delivery -/

/-- The end of receipts tells of no delivery unless it says so. -/
private theorem delivered_foldl_conclude {α : Type} {key : α → Octets 16}
    {update : α → ReceiptUpdate} {watcher rtt : ℕ} {l : List α}
    (hupdate : ∀ e ∈ l, update e ≠ .delivered rtt) :
    ∀ {r : Receipts}, (watcher, .delivered rtt) ∈
        (l.foldl (fun r e => r.conclude (key e) (update e)) r).reports →
      (watcher, .delivered rtt) ∈ r.reports := by
  induction l with
  | nil => exact fun h => h
  | cons e l ih =>
    intro r h
    have hr := ih (fun e he => hupdate e (List.mem_cons_of_mem _ he)) h
    rcases List.mem_append.mp hr with hr | hr
    · exact hr
    · rw [mem_toList, map_eq_some_iff] at hr
      obtain ⟨w, -, heq⟩ := hr
      exact absurd (Prod.mk.inj heq).2 (hupdate e List.mem_cons_self)

/-- A receipt that waits can only time out at a check. -/
private theorem conclusion_of_waiting {update : ReceiptUpdate} (hw : Waiting receipt)
    (h : conclusion now receipt = some update) : update = .timedOut := by
  by_cases htimeout : receipt.isTimedOut now = true
  · simpa [conclusion, hw.1, htimeout, fail] using h.symm
  · simp [conclusion, hw.1, htimeout] at h

private theorem Sound.delivered_tick (h : r.Sound) {now watcher rtt : ℕ}
    (hmem : (watcher, .delivered rtt) ∈ (r.tick now).reports) :
    (watcher, .delivered rtt) ∈ r.reports := by
  refine delivered_foldl_conclude ?_ (delivered_foldl_conclude (fun _ _ => by simp) hmem)
  intro e he
  obtain ⟨⟨key, receipt⟩, hentry, hconclusion⟩ := List.mem_filterMap.mp he
  obtain ⟨update, hupdate, rfl⟩ := map_eq_some_iff.mp hconclusion
  have hw := h.waiting key receipt (mem_toList.mp hentry)
  simp [conclusion_of_waiting hw hupdate]

/-- A send tells no watcher. -/
private theorem reports_sendPacket (r : Receipts) (now : ℕ) (receipt : Option ReceiptRegistration)
    (sent reset : Bool) : (r.sendPacket now receipt sent reset).reports = r.reports := by
  cases receipt with
  | none => cases reset <;> rfl
  | some reg =>
    cases hkey : r.receiptTable.contains reg.truncatedHash <;>
      cases sent <;> cases reset <;> simp [sendPacket, hkey]

/-- **Receipts are truthful and end once.** In every run, a watcher is told at most one end. The
watcher of a send that was answered `Sent` waits at a stored receipt and has been told nothing, or
has been told exactly once; so it has when its receipt is no longer stored. It is told of a delivery
only in the step of a proof, signed over the hash of the receipt then stored under the key bound to
that receipt. The companion maps hold keys of stored receipts only. -/
theorem receipts_truthful [Ed25519] (events : List ReceiptEvent) :
    let r := events.foldl Receipts.step empty
    (∀ watcher, (r.reports.map Prod.fst).count watcher ≤ 1) ∧
    (∀ watcher key, (watcher, key) ∈ r.tracked →
      (r.receiptUpdates.get key = some watcher ∧ r.receiptTable.contains key ∧
          watcher ∉ r.reports.map Prod.fst ∨
        (r.reports.map Prod.fst).count watcher = 1) ∧
      (r.receiptTable.contains key = false → (r.reports.map Prod.fst).count watcher = 1)) ∧
    (∀ e watcher rtt, (watcher, .delivered rtt) ∈ (r.step e).reports →
      (watcher, .delivered rtt) ∈ r.reports ∨
      ∃ now recalled key proof stored publicKey, e = .proof now recalled key proof ∧
        r.receiptTable.get key = some stored ∧ r.receiptUpdates.get key = some watcher ∧
        (bound recalled stored).destinationPublicKey = some publicKey ∧
        Ed25519.verify (read 32 (publicKey.1.drop 32)) (bound recalled stored).hash.1
          (proofSignature proof) = true) ∧
    ∀ key, r.receiptMsgIds.contains key ∨ r.receiptProofTxs.contains key ∨
      r.receiptUpdates.contains key → r.receiptTable.contains key := by
  intro r
  have h : r.Sound := sound_run events
  clear_value r
  have hended (watcher : ℕ) (key : Octets 16) (ht : (watcher, key) ∈ r.tracked) :
      r.receiptUpdates.get key = some watcher ∧ r.receiptTable.contains key ∧
          watcher ∉ r.reports.map Prod.fst ∨
        (r.reports.map Prod.fst).count watcher = 1 := by
    rcases h.keyed watcher key ht with hget | hmem
    · have hwaits : watcher ∈ r.receiptUpdates.values := mem_values.mpr ⟨key, hget⟩
      refine .inl ⟨hget, h.updates key ?_, h.accounted.notMem_closed hwaits⟩
      exact contains_iff.mpr ⟨watcher, hget⟩
    · exact .inr (List.count_eq_one_of_mem h.accounted.nodup_closed hmem)
  refine ⟨h.accounted.count_le_one, fun watcher key ht => ⟨hended watcher key ht, ?_⟩, ?_, ?_⟩
  · intro hgone
    refine (hended watcher key ht).resolve_left ?_
    rintro ⟨-, hc, -⟩
    rw [hgone] at hc
    cases hc
  · intro e watcher rtt hmem
    cases e with
    | sendPacket now receipt sent reset =>
      change (watcher, ReceiptUpdate.delivered rtt) ∈
        (r.sendPacket now receipt sent reset).reports at hmem
      rw [reports_sendPacket] at hmem
      exact .inl hmem
    | outbound | registerReceipt | setReceiptTimeout | clearSharedConnectionState =>
      exact .inl hmem
    | tick now =>
      simp only [Receipts.step] at hmem
      exact .inl (h.delivered_tick hmem)
    | proof now recalled key proof =>
      change (watcher, ReceiptUpdate.delivered rtt) ∈
        (r.processProof now recalled key proof).1.reports at hmem
      rcases h.processProof_cases now recalled key proof with
        heq | ⟨stored, hget, heq | ⟨publicKey, rtt', hkey, hverify, heq⟩⟩
      · rw [heq] at hmem
        exact .inl hmem
      · rw [heq] at hmem
        exact .inl hmem
      · rw [heq, conclude] at hmem
        rcases List.mem_append.mp hmem with hmem | hmem
        · exact .inl hmem
        · rw [mem_toList, map_eq_some_iff] at hmem
          obtain ⟨w, hw, heq⟩ := hmem
          obtain ⟨rfl, -⟩ := Prod.mk.inj heq
          exact .inr ⟨now, recalled, key, proof, stored, publicKey, rfl, hget, hw, hkey, hverify⟩
  · rintro key (hc | hc | hc)
    · exact h.msgIds key hc
    · exact h.msgIds key (h.proofTxs key hc)
    · exact h.updates key hc

/-- The public key of the seed `01…01`. -/
private def signingKey : Octets 32 :=
  .ofNat 0x8a88e3dd7409f195fd52db2d3cba5d72ca6709bf1d94121bf3748801b40f6f5c

/-- The signature of `07…07` under that seed. -/
private def signature : Octets 64 :=
  .ofNat (2 ^ 256 * 0x0e1bd06c6ab98ef354701a00c55715d1b65a915d898b9f68e8e48b037c345c56
    + 0x75a243feeae3e7c4deca2da6d340854edc5b86655461e74d9d65e02333521f0e)

/-- Ed25519 on that key and message. -/
@[reducible] private def ed25519 : Ed25519 where
  publicKey _ := signingKey
  sign _ _ := signature
  verify key message sig := key = signingKey && message = List.replicate 32 7 && sig = signature

/-- A send, and five nanoseconds later its proof. -/
private def delivery : List ReceiptEvent :=
  [.sendPacket 10
    (some
      { truncatedHash := replicate 16 7
        fullHash := replicate 32 7
        destinationHash := replicate 16 3
        destinationPublicKey := ⟨List.replicate 32 2 ++ signingKey.1, rfl⟩
        timeout := none }) true false,
    .proof 15 (fun _ => none) (replicate 16 7) signature.1]

theorem receipts_truthful_delivery :
    letI := ed25519
    (delivery.foldl step empty).tracked = [(0, replicate 16 7)] ∧
      (delivery.foldl step empty).reports = [(0, .delivered 5)] ∧
      ((delivery.foldl step empty).reports.map Prod.fst).count 0 ≤ 1 := by
  let _ := ed25519
  exact ⟨by decide +kernel, by decide +kernel, (receipts_truthful delivery).1 0⟩

end Receipts

end Reticulum.Transport
