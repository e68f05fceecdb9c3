import Reticulum.Link.Lifecycle

/-!
# What becomes of requests

A link keeps a receipt for every request until it is answered, fails, or is given up. Beside the
session runs a ledger that tells receipts apart by a serial number, knows their callbacks, and logs
when a receipt is put in a terminal state, when a callback runs, and when the receipt leaves the
pending requests. It holds the receipts of the session at all times.

## Main results

* `RequestLedger.Valid.settle`, `RequestLedger.Valid.settled_settle` — what one call does.
* `RequestLedger.Valid.follow`, `RequestLedger.Follows.follow` — every call of the link.
* `RequestTracking.receipts_concluded_iff` — runs.
-/

namespace Reticulum

open Wire MessagePack RequestReceipt LinkSession List

/-! ### Receipts, callbacks and the log -/

/-- A receipt with its serial number, and whether its terminal callbacks are registered. -/
structure TrackedReceipt where
  serial : ℕ
  receipt : RequestReceipt
  onResponse : Bool
  onFailed : Bool
  deriving DecidableEq

/-- A receipt is put in a terminal state, its callback for that state runs, or it is no longer
pending. -/
inductive RequestEvent
  | concluded (serial : ℕ) (state : RequestState)
  | called (serial : ℕ)
  | left (serial : ℕ)
  deriving DecidableEq

/-- The receipt of an event. -/
def RequestEvent.serial : RequestEvent → ℕ
  | .concluded serial _ => serial
  | .called serial => serial
  | .left serial => serial

/-- The event puts a receipt in a terminal state. -/
def RequestEvent.concludes (serial : ℕ) : RequestEvent → Bool
  | .concluded serial' _ => serial' = serial
  | _ => false

/-- What a call does to a receipt: it stays, perhaps changed, or leaves in some form. -/
inductive Fate
  | stays (t : TrackedReceipt)
  | leaves (r : RequestReceipt)

namespace TrackedReceipt

/-- The callback that a terminal state takes. -/
def calls (t : TrackedReceipt) : RequestState → Bool
  | .failed => t.onFailed
  | _ => t.onResponse

/-- A receipt takes the form `r`: a change to a terminal state is logged, and runs a callback. -/
def changes (t : TrackedReceipt) (r : RequestReceipt) : List RequestEvent :=
  if r.state = t.receipt.state ∨ r.concluded = false then []
  else .concluded t.serial r.state :: if t.calls r.state then [.called t.serial] else []

/-- The log of a receipt's fate. -/
def events (t : TrackedReceipt) : Fate → List RequestEvent
  | .stays t' => t.changes t'.receipt
  | .leaves r => t.changes r ++ [.left t.serial]

/-- The fates of receipts where the first one of a request has another fate than those behind it. -/
def fatesByFirst (requestId : Octets 16) (first other : TrackedReceipt → Fate) :
    List TrackedReceipt → List (TrackedReceipt × Fate)
  | [] => []
  | t :: ts =>
    if t.receipt.names requestId then
      (t, first t) :: ts.map fun t =>
        (t, if t.receipt.names requestId then other t else .stays t)
    else (t, .stays t) :: fatesByFirst requestId first other ts

end TrackedReceipt

open TrackedReceipt

/-- What stays. -/
def Fate.kept : Fate → Option TrackedReceipt
  | .stays t => some t
  | .leaves _ => none

@[simp] theorem Fate.kept_stays (t : TrackedReceipt) : (Fate.stays t).kept = some t := rfl

@[simp] theorem Fate.kept_leaves (r : RequestReceipt) : (Fate.leaves r).kept = none := rfl

/-- The pending receipts, the next serial number, and the log. -/
structure RequestLedger where
  pending : List TrackedReceipt
  next : ℕ
  log : List RequestEvent

namespace RequestLedger

/-- Before any request. -/
def empty : RequestLedger := ⟨[], 0, []⟩

/-- Every receipt has its fate. -/
def settle (l : RequestLedger) (fates : List (TrackedReceipt × Fate)) : RequestLedger :=
  { l with
    pending := fates.filterMap fun e => e.2.kept
    log := l.log ++ fates.flatMap fun e => e.1.events e.2 }

/-- A new receipt, without callbacks. -/
def prepare (l : RequestLedger) (receipt : RequestReceipt) : RequestLedger :=
  { l with pending := l.pending ++ [⟨l.next, receipt, false, false⟩], next := l.next + 1 }

/-- The first receipt of a request is changed. -/
def modifyFirst (l : RequestLedger) (requestId : Octets 16) (f : RequestReceipt → RequestReceipt) :
    RequestLedger :=
  l.settle (fatesByFirst requestId
    (fun t => .stays { t with receipt := f t.receipt }) .stays l.pending)

/-- The first receipt of a request is changed, and all receipts of the request leave. -/
def resolveFirst (l : RequestLedger) (requestId : Octets 16) (f : RequestReceipt → RequestReceipt) :
    RequestLedger :=
  l.settle (fatesByFirst requestId
    (fun t => .leaves (f t.receipt)) (fun t => .leaves t.receipt) l.pending)

/-- All receipts of a request leave as they are. -/
def discard (l : RequestLedger) (requestId : Octets 16) : RequestLedger :=
  l.settle (l.pending.map fun t =>
    (t, if t.receipt.names requestId then .leaves t.receipt else .stays t))

/-- Receipts that are timed out fail, and those in a terminal state leave. -/
def checkTimeouts (l : RequestLedger) (now : ℕ) : RequestLedger :=
  l.settle (l.pending.map fun t =>
    (t, if (t.receipt.checkTimeout now).concluded then .leaves (t.receipt.checkTimeout now)
      else .stays { t with receipt := t.receipt.checkTimeout now }))

/-- All receipts fail and leave. -/
def failAll (l : RequestLedger) : RequestLedger :=
  l.settle (l.pending.map fun t => (t, .leaves t.receipt.fail))

/-- The callbacks of a receipt are registered, in addition to those it has. -/
def register (l : RequestLedger) (serial : ℕ) (onResponse onFailed : Bool) : RequestLedger :=
  { l with
    pending := l.pending.map fun t =>
      { t with
        onResponse := t.onResponse || (t.serial = serial && onResponse)
        onFailed := t.onFailed || (t.serial = serial && onFailed) } }

/-! ### What the log says of one receipt -/

/-- The events of one receipt. -/
def logOf (l : RequestLedger) (serial : ℕ) : List RequestEvent :=
  l.log.filter (·.serial = serial)

/-- What left was put in one terminal state. -/
def Settled (l : RequestLedger) : Prop :=
  ∀ serial, .left serial ∈ l.log → l.log.countP (·.concludes serial) = 1

/-- Every receipt is put in a terminal state, has its callback run and leaves at most once, and has
left exactly if it was prepared and is no longer pending. -/
structure Accounted (l : RequestLedger) : Prop where
  concludes : ∀ serial, l.log.countP (·.concludes serial) ≤ 1
  calls : ∀ serial, l.log.count (.called serial) ≤ 1
  leaves : ∀ serial, l.log.count (.left serial) ≤ 1
  left_iff : ∀ serial, .left serial ∈ l.log ↔
    serial < l.next ∧ ∀ t ∈ l.pending, t.serial ≠ serial

/-- Pending receipts are told apart by their serial numbers, are in no terminal state and have not
been logged, everything logged about a receipt was logged when it left, and what is no longer
pending left. -/
structure Valid (l : RequestLedger) : Prop where
  nodup : (l.pending.map (·.serial)).Nodup
  bound : ∀ t ∈ l.pending, t.serial < l.next
  live : ∀ t ∈ l.pending, t.receipt.isPending = true
  quiet : ∀ t ∈ l.pending, l.logOf t.serial = []
  unused : ∀ serial, l.next ≤ serial → l.logOf serial = []
  story : ∀ serial, l.logOf serial = [] ∨ ∃ (t : TrackedReceipt) (r : RequestReceipt),
    t.serial = serial ∧ t.receipt.isPending = true ∧ l.logOf serial = t.events (.leaves r)
  gone : ∀ serial, serial < l.next → (∀ t ∈ l.pending, t.serial ≠ serial) →
    .left serial ∈ l.logOf serial

/-- Fates for the pending receipts: what stays keeps its serial number and is in no terminal
state. -/
structure Fates (l : RequestLedger) (fates : List (TrackedReceipt × Fate)) : Prop where
  pending : fates.map Prod.fst = l.pending
  stays : ∀ t t', (t, .stays t') ∈ fates → t'.serial = t.serial ∧ t'.receipt.isPending = true

end RequestLedger

variable {t' : TrackedReceipt}

section

variable {r : RequestReceipt} {t : TrackedReceipt} {fate : Fate} {e : RequestEvent}

theorem RequestReceipt.concluded_eq_not_isPending (r : RequestReceipt) :
    r.concluded = !r.isPending := by
  cases h : r.state <;> simp [concluded, isPending, h]

theorem TrackedReceipt.serial_of_mem_changes (h : e ∈ t.changes r) : e.serial = t.serial := by
  unfold changes at h
  split_ifs at h
  · cases h
  · simp only [mem_cons, not_mem_nil, or_false] at h
    rcases h with rfl | rfl <;> rfl
  · simp only [mem_cons, not_mem_nil, or_false] at h
    rw [h]
    rfl

theorem TrackedReceipt.serial_of_mem_events (h : e ∈ t.events fate) : e.serial = t.serial := by
  cases fate with
  | stays t' => exact serial_of_mem_changes h
  | leaves r =>
    rcases mem_append.mp h with h | h
    · exact serial_of_mem_changes h
    · rw [mem_singleton.mp h]
      rfl

/-- A receipt that stays pending is not logged. -/
theorem TrackedReceipt.events_stays (h : t'.receipt.isPending = true) :
    t.events (.stays t') = [] := by
  have hopen : t'.receipt.concluded = false := by
    rw [concluded_eq_not_isPending, h]
    rfl
  simp [events, changes, hopen]

/-- A pending receipt that leaves was put in one terminal state exactly if it leaves in one, and
then a callback runs at most once. -/
theorem TrackedReceipt.events_leaves (ht : t.receipt.isPending = true) (r : RequestReceipt) :
    (t.events (.leaves r)).countP (·.concludes t.serial) = r.concluded.toNat ∧
      (t.events (.leaves r)).count (.called t.serial) ≤ 1 ∧
      (t.events (.leaves r)).count (.left t.serial) = 1 := by
  cases hr : r.concluded with
  | false =>
    simp [events, changes, hr, RequestEvent.concludes]
  | true =>
    have hstate : r.state ≠ t.receipt.state := by
      intro hsame
      have hpending : r.isPending = t.receipt.isPending := by
        simp [isPending, hsame]
      rw [concluded_eq_not_isPending, hpending, ht] at hr
      cases hr
    cases hcalls : t.calls r.state <;>
      simp [events, changes, hr, hstate, hcalls, RequestEvent.concludes]

end

namespace RequestLedger

variable {l : RequestLedger} {fates : List (TrackedReceipt × Fate)}

theorem left_mem_logOf (l : RequestLedger) (serial : ℕ) :
    .left serial ∈ l.logOf serial ↔ .left serial ∈ l.log := by
  simp [logOf, RequestEvent.serial]

theorem countP_logOf (l : RequestLedger) (serial : ℕ) :
    l.log.countP (·.concludes serial) = (l.logOf serial).countP (·.concludes serial) := by
  rw [logOf, countP_filter]
  refine countP_congr fun e _ => ?_
  cases e <;> simp +contextual [RequestEvent.concludes, RequestEvent.serial]

theorem settled_iff (l : RequestLedger) :
    l.Settled ↔ ∀ serial, .left serial ∈ l.logOf serial →
      (l.logOf serial).countP (·.concludes serial) = 1 := by
  refine forall_congr' fun serial => ?_
  rw [left_mem_logOf, countP_logOf]

/-- Receipts of other serial numbers account for no event of a number. -/
theorem filter_events_of_ne {serial : ℕ} (h : ∀ e ∈ fates, e.1.serial ≠ serial) :
    (fates.flatMap fun e => e.1.events e.2).filter (·.serial = serial) = [] := by
  rw [filter_eq_nil_iff]
  intro event hevent hserial
  obtain ⟨e, he, hevent⟩ := mem_flatMap.mp hevent
  have hown := serial_of_mem_events hevent
  exact h e he (hown.symm.trans (of_decide_eq_true hserial))

variable {t : TrackedReceipt} {fate : Fate}

/-- Among receipts with different serial numbers, one accounts for the events of a number. -/
theorem filter_events (hmem : (t, fate) ∈ fates) (hnodup : (fates.map (·.1.serial)).Nodup) :
    (fates.flatMap fun e => e.1.events e.2).filter (·.serial = t.serial) = t.events fate := by
  induction fates with
  | nil => cases hmem
  | cons e fates ih =>
    rw [map_cons, nodup_cons] at hnodup
    rw [flatMap_cons, filter_append]
    rcases mem_cons.mp hmem with rfl | hmem
    · have hself : (t.events fate).filter (·.serial = t.serial) = t.events fate :=
        filter_eq_self.mpr fun event hevent =>
          decide_eq_true (serial_of_mem_events hevent)
      have hothers : ∀ e ∈ fates, e.1.serial ≠ t.serial := fun e he hsame =>
        hnodup.1 (mem_map.mpr ⟨e, he, hsame⟩)
      rw [hself, filter_events_of_ne hothers, append_nil]
    · have hother : e.1.serial ≠ t.serial := fun hsame =>
        hnodup.1 (mem_map.mpr ⟨(t, fate), hmem, hsame.symm⟩)
      have hhead : (e.1.events e.2).filter (·.serial = t.serial) = [] := by
        have hsingle : (([e] : List (TrackedReceipt × Fate)).flatMap fun e => e.1.events e.2).filter
            (·.serial = t.serial) = [] := filter_events_of_ne (by simpa using hother)
        rwa [flatMap_singleton] at hsingle
      rw [hhead, nil_append, ih hmem hnodup.2]

theorem logOf_settle (l : RequestLedger) (fates : List (TrackedReceipt × Fate)) (serial : ℕ) :
    (l.settle fates).logOf serial =
      l.logOf serial ++ (fates.flatMap fun e => e.1.events e.2).filter (·.serial = serial) :=
  filter_append ..

section Settle

variable (hl : l.Valid) (hf : l.Fates fates)

include hf in
theorem Fates.map_serial : fates.map (·.1.serial) = l.pending.map (·.serial) := by
  rw [← hf.pending, map_map]
  rfl

include hf in
/-- A number belongs to a pending receipt with its fate, or to none. -/
theorem Fates.cases (serial : ℕ) :
    (∃ t fate, (t, fate) ∈ fates ∧ t.serial = serial) ∨ ∀ t ∈ l.pending, t.serial ≠ serial := by
  by_cases h : ∃ t ∈ l.pending, t.serial = serial
  · obtain ⟨t, ht, hserial⟩ := h
    rw [← hf.pending] at ht
    obtain ⟨⟨t', fate⟩, hmem, rfl⟩ := mem_map.mp ht
    exact .inl ⟨t', fate, hmem, hserial⟩
  · exact .inr fun t ht hserial => h ⟨t, ht, hserial⟩

include hf in
/-- The log of any other number is as it was. -/
theorem Fates.logOf_settle_of_ne {serial : ℕ} (h : ∀ t ∈ l.pending, t.serial ≠ serial) :
    (l.settle fates).logOf serial = l.logOf serial := by
  have hothers : ∀ e ∈ fates, e.1.serial ≠ serial := fun e he =>
    h e.1 (hf.pending ▸ mem_map_of_mem he)
  rw [logOf_settle, filter_events_of_ne hothers, append_nil]

theorem mem_settle : t' ∈ (l.settle fates).pending ↔ ∃ t, (t, .stays t') ∈ fates := by
  simp only [RequestLedger.settle, mem_filterMap, Prod.exists]
  constructor
  · rintro ⟨t, fate, hmem, hkept⟩
    cases fate with
    | stays t'' =>
      obtain rfl := Option.some.inj hkept
      exact ⟨t, hmem⟩
    | leaves r => cases hkept
  · rintro ⟨t, hmem⟩
    exact ⟨t, _, hmem, rfl⟩

include hf in
/-- What stays keeps the order of the receipts. -/
theorem Fates.sublist :
    List.Sublist ((l.settle fates).pending.map (·.serial)) (l.pending.map (·.serial)) := by
  have hstays := hf.stays
  rw [← hf.map_serial]
  change List.Sublist ((fates.filterMap fun e => e.2.kept).map (·.serial)) _
  clear hf
  induction fates with
  | nil => exact .slnil
  | cons e fates ih =>
    obtain ⟨t, fate⟩ := e
    have hrest := ih fun t t' hmem => hstays t t' (mem_cons_of_mem _ hmem)
    cases fate with
    | leaves r => exact hrest.cons _
    | stays t' =>
      have hserial := (hstays t t' mem_cons_self).1
      simp only [filterMap_cons, Fate.kept, map_cons, hserial]
      exact hrest.cons_cons _

include hl hf

/-- After a call, the log of a pending receipt is that of its fate. -/
theorem Valid.logOf_settle_of_mem (hmem : (t, fate) ∈ fates) :
    (l.settle fates).logOf t.serial = t.events fate := by
  have ht : t ∈ l.pending := hf.pending ▸ mem_map_of_mem hmem
  rw [logOf_settle, hl.quiet t ht, filter_events hmem (hf.map_serial ▸ hl.nodup), nil_append]

theorem Valid.settle : (l.settle fates).Valid where
  nodup := hl.nodup.sublist hf.sublist
  bound t' ht' := by
    obtain ⟨t, hmem⟩ := mem_settle.mp ht'
    rw [(hf.stays t t' hmem).1]
    exact hl.bound t (hf.pending ▸ mem_map_of_mem hmem)
  live t' ht' := by
    obtain ⟨t, hmem⟩ := mem_settle.mp ht'
    exact (hf.stays t t' hmem).2
  quiet t' ht' := by
    obtain ⟨t, hmem⟩ := mem_settle.mp ht'
    rw [(hf.stays t t' hmem).1, hl.logOf_settle_of_mem hf hmem]
    exact events_stays (hf.stays t t' hmem).2
  unused serial hserial := by
    have hnone : ∀ t ∈ l.pending, t.serial ≠ serial := fun t ht =>
      (Nat.lt_of_lt_of_le (hl.bound t ht) hserial).ne
    rw [hf.logOf_settle_of_ne hnone]
    exact hl.unused serial hserial
  story serial := by
    obtain ⟨t, fate, hmem, rfl⟩ | hnone := hf.cases serial
    · rw [hl.logOf_settle_of_mem hf hmem]
      cases fate with
      | stays t' => exact .inl (events_stays (hf.stays t t' hmem).2)
      | leaves r => exact .inr ⟨t, r, rfl, hl.live t (hf.pending ▸ mem_map_of_mem hmem), rfl⟩
    · rw [hf.logOf_settle_of_ne hnone]
      exact hl.story serial
  gone serial hserial hleft := by
    obtain ⟨t, fate, hmem, rfl⟩ | hnone := hf.cases serial
    · rw [hl.logOf_settle_of_mem hf hmem]
      cases fate with
      | stays t' => exact absurd (hf.stays t t' hmem).1 (hleft t' (mem_settle.mpr ⟨t, hmem⟩))
      | leaves r => exact mem_append_right _ (mem_singleton_self _)
    · rw [hf.logOf_settle_of_ne hnone]
      exact hl.gone serial hserial hnone

/-- After a call, what left was put in one terminal state exactly if that held before and what the
call made leave is in a terminal state. -/
theorem Valid.settled_settle (hs : l.Settled) :
    (l.settle fates).Settled ↔ ∀ t r, (t, .leaves r) ∈ fates → r.concluded = true := by
  have hlive {t : TrackedReceipt} {fate : Fate} (hmem : (t, fate) ∈ fates) :
      t.receipt.isPending = true := hl.live t (hf.pending ▸ mem_map_of_mem hmem)
  rw [settled_iff] at hs ⊢
  constructor
  · intro hsettled t r hmem
    obtain ⟨hcount, -, hleft⟩ := events_leaves (hlive hmem) r
    have hone := hsettled t.serial
    rw [hl.logOf_settle_of_mem hf hmem, hcount] at hone
    have hleft' : RequestEvent.left t.serial ∈ t.events (.leaves r) :=
      count_pos_iff.mp (by omega)
    cases hr : r.concluded with
    | true => rfl
    | false =>
      have hzero := hone hleft'
      rw [hr] at hzero
      cases hzero
  · intro hconcluded serial hleft
    obtain ⟨t, fate, hmem, rfl⟩ | hnone := hf.cases serial
    · rw [hl.logOf_settle_of_mem hf hmem] at hleft ⊢
      cases fate with
      | stays t' =>
        rw [events_stays (hf.stays t t' hmem).2] at hleft
        cases hleft
      | leaves r =>
        rw [(events_leaves (hlive hmem) r).1, hconcluded t r hmem]
        rfl
    · rw [hf.logOf_settle_of_ne hnone] at hleft ⊢
      exact hs serial hleft

end Settle

/-! ### Operations -/

section Operations

variable {requestId : Octets 16} {f : RequestReceipt → RequestReceipt}

theorem map_fst_fatesByFirst (requestId : Octets 16) (first other : TrackedReceipt → Fate)
    (ts : List TrackedReceipt) :
    (fatesByFirst requestId first other ts).map Prod.fst = ts := by
  induction ts with
  | nil => rfl
  | cons t ts ih =>
    rw [fatesByFirst]
    split
    · rw [map_cons, map_map]
      exact congrArg (t :: ·) (map_id ts)
    · rw [map_cons, ih]

variable {first other : TrackedReceipt → Fate} {ts : List TrackedReceipt}

/-- The fate of a receipt is that of the first one of its request, of another one, or to stay. -/
theorem mem_fatesByFirst (h : (t, fate) ∈ fatesByFirst requestId first other ts) :
    fate = first t ∨ fate = other t ∨ fate = .stays t := by
  induction ts with
  | nil => cases h
  | cons t' ts ih =>
    rw [fatesByFirst] at h
    split at h
    · rcases mem_cons.mp h with h | h
      · obtain ⟨rfl, rfl⟩ := Prod.mk.inj h
        exact .inl rfl
      · obtain ⟨t'', -, h⟩ := mem_map.mp h
        obtain ⟨rfl, rfl⟩ := Prod.mk.inj h
        split
        · exact .inr (.inl rfl)
        · exact .inr (.inr rfl)
    · rcases mem_cons.mp h with h | h
      · obtain ⟨rfl, rfl⟩ := Prod.mk.inj h
        exact .inr (.inr rfl)
      · exact ih h

/-- Fates that are given by what a receipt is. -/
theorem fates_map {g : TrackedReceipt → Fate} (l : RequestLedger)
    (hg : ∀ t ∈ l.pending, ∀ t', g t = .stays t' → t'.serial = t.serial ∧ t'.receipt.isPending = true) :
    l.Fates (l.pending.map fun t => (t, g t)) := by
  refine ⟨by rw [map_map]; exact map_id _, fun t t' hmem => ?_⟩
  obtain ⟨t'', ht, h⟩ := mem_map.mp hmem
  obtain ⟨rfl, hfate⟩ := Prod.mk.inj h
  exact hg _ ht t' hfate

theorem Valid.fates_fatesByFirst (hl : l.Valid)
    (hfirst : ∀ t ∈ l.pending, ∀ t', first t = .stays t' →
      t'.serial = t.serial ∧ t'.receipt.isPending = true)
    (hother : ∀ t ∈ l.pending, ∀ t', other t = .stays t' → t' = t) :
    l.Fates (fatesByFirst requestId first other l.pending) := by
  refine ⟨map_fst_fatesByFirst .., fun t t' hmem => ?_⟩
  have ht : t ∈ l.pending := by
    rw [← map_fst_fatesByFirst requestId first other l.pending]
    exact mem_map_of_mem hmem
  rcases mem_fatesByFirst hmem with h | h | h
  · exact hfirst t ht t' h.symm
  · rw [hother t ht t' h.symm]
    exact ⟨rfl, hl.live t ht⟩
  · obtain rfl := Fate.stays.inj h
    exact ⟨rfl, hl.live _ ht⟩

theorem Valid.modifyFirst (hl : l.Valid)
    (hf : ∀ r : RequestReceipt, r.isPending = true → (f r).isPending = true) :
    (l.modifyFirst requestId f).Valid ∧ (l.Settled → (l.modifyFirst requestId f).Settled) := by
  have hfates : l.Fates (fatesByFirst requestId
      (fun t => .stays { t with receipt := f t.receipt }) .stays l.pending) := by
    refine hl.fates_fatesByFirst (fun t ht t' h => ?_) fun t _ t' h => (Fate.stays.inj h).symm
    obtain rfl := Fate.stays.inj h
    exact ⟨rfl, hf _ (hl.live t ht)⟩
  refine ⟨hl.settle hfates, fun hs => (hl.settled_settle hfates hs).mpr fun t r hmem => ?_⟩
  rcases mem_fatesByFirst hmem with h | h | h <;> cases h

variable {r : RequestReceipt}

theorem RequestReceipt.concluded_eq_false (h : r.isPending = true) : r.concluded = false := by
  rw [concluded_eq_not_isPending, h]
  rfl

/-- Of the receipts of a request, all but the first leave as they are. -/
theorem leaves_concluded_iff (hlive : ∀ t ∈ ts, t.receipt.isPending = true)
    (hf : ∀ r : RequestReceipt, r.isPending = true → (f r).concluded = true) :
    (∀ t r, (t, .leaves r) ∈ fatesByFirst requestId
        (fun t => .leaves (f t.receipt)) (fun t => .leaves t.receipt) ts → r.concluded = true) ↔
      (ts.map (·.receipt)).countP (·.names requestId) ≤ 1 := by
  induction ts with
  | nil => simp [fatesByFirst]
  | cons t ts ih =>
    have htail := fun t' ht' => hlive t' (mem_cons_of_mem t ht')
    rw [fatesByFirst, map_cons, countP_cons]
    split
    next hnames =>
      have hnone : (ts.map (·.receipt)).countP (·.names requestId) + 1 ≤ 1 ↔
          ∀ t' ∈ ts, t'.receipt.names requestId = false := by
        rw [show ∀ n, n + 1 ≤ 1 ↔ n = 0 by omega, countP_eq_zero]
        simp
      rw [hnone]
      constructor
      · intro h t' ht'
        cases hother : t'.receipt.names requestId with
        | false => rfl
        | true =>
          have hopen := RequestReceipt.concluded_eq_false (htail t' ht')
          have hclosed := h t' t'.receipt (mem_cons_of_mem _
            (mem_map.mpr ⟨t', ht', by rw [if_pos hother]⟩))
          cases hopen.symm.trans hclosed
      · intro h t' r hmem
        rcases mem_cons.mp hmem with hmem | hmem
        · obtain ⟨rfl, hr⟩ := Prod.mk.inj hmem
          obtain rfl := Fate.leaves.inj hr
          exact hf _ (hlive _ mem_cons_self)
        · obtain ⟨t'', ht'', heq⟩ := mem_map.mp hmem
          have hfate := (Prod.mk.inj heq).2
          rw [h t'' ht''] at hfate
          cases hfate
    next hnames =>
      rw [Nat.add_zero, ← ih htail]
      constructor
      · exact fun h t' r hmem => h t' r (mem_cons_of_mem _ hmem)
      · intro h t' r hmem
        rcases mem_cons.mp hmem with hmem | hmem
        · cases (Prod.mk.inj hmem).2
        · exact h t' r hmem

/-- A request is resolved: what left is concluded exactly if one receipt at most had its id. -/
theorem Valid.resolveFirst (hl : l.Valid)
    (hf : ∀ r : RequestReceipt, r.isPending = true → (f r).concluded = true) :
    (l.resolveFirst requestId f).Valid ∧ (l.Settled → ((l.resolveFirst requestId f).Settled ↔
      (l.pending.map (·.receipt)).countP (·.names requestId) ≤ 1)) := by
  have hfates : l.Fates (fatesByFirst requestId
      (fun t => .leaves (f t.receipt)) (fun t => .leaves t.receipt) l.pending) :=
    hl.fates_fatesByFirst (fun t _ t' h => nomatch h) fun t _ t' h => nomatch h
  exact ⟨hl.settle hfates, fun hs =>
    (hl.settled_settle hfates hs).trans (leaves_concluded_iff hl.live hf)⟩

/-- A request is given up: what left is concluded exactly if no receipt had its id. -/
theorem Valid.discard (hl : l.Valid) :
    (l.discard requestId).Valid ∧ (l.Settled → ((l.discard requestId).Settled ↔
      ∀ t ∈ l.pending, t.receipt.names requestId = false)) := by
  have hfates : l.Fates (l.pending.map fun t =>
      (t, if t.receipt.names requestId then .leaves t.receipt else .stays t)) := by
    refine l.fates_map fun t ht t' h => ?_
    split at h
    · cases h
    · obtain rfl := Fate.stays.inj h
      exact ⟨rfl, hl.live _ ht⟩
  refine ⟨hl.settle hfates, fun hs => (hl.settled_settle hfates hs).trans ?_⟩
  constructor
  · intro h t ht
    cases hnames : t.receipt.names requestId with
    | false => rfl
    | true =>
      have hclosed := h t t.receipt (mem_map.mpr ⟨t, ht, by rw [if_pos hnames]⟩)
      cases (RequestReceipt.concluded_eq_false (hl.live t ht)).symm.trans hclosed
  · intro h t r hmem
    obtain ⟨t', ht', heq⟩ := mem_map.mp hmem
    have hfate := (Prod.mk.inj heq).2
    rw [h t' ht'] at hfate
    cases hfate

theorem RequestReceipt.concluded_fail (h : r.isPending = true) : r.fail.concluded = true := by
  simp [fail, h, concluded]

theorem RequestReceipt.concluded_receiveResponse (data : Bytes) (now : ℕ)
    (h : r.isPending = true) : (r.receiveResponse data now).concluded = true := by
  simp [receiveResponse, h, concluded]

/-- Timeouts conclude what they make leave. -/
theorem Valid.checkTimeouts (hl : l.Valid) (now : ℕ) :
    (l.checkTimeouts now).Valid ∧ (l.Settled → (l.checkTimeouts now).Settled) := by
  have hfates : l.Fates (l.pending.map fun t =>
      (t, if (t.receipt.checkTimeout now).concluded then .leaves (t.receipt.checkTimeout now)
        else .stays { t with receipt := t.receipt.checkTimeout now })) := by
    refine l.fates_map fun t ht t' h => ?_
    split at h
    · cases h
    next hopen =>
      obtain rfl := Fate.stays.inj h
      rw [concluded_eq_not_isPending] at hopen
      exact ⟨rfl, by simpa using hopen⟩
  refine ⟨hl.settle hfates, fun hs => (hl.settled_settle hfates hs).mpr fun t r hmem => ?_⟩
  obtain ⟨t', -, heq⟩ := mem_map.mp hmem
  have hfate := (Prod.mk.inj heq).2
  split at hfate
  next hclosed =>
    rw [← Fate.leaves.inj hfate]
    exact hclosed
  · cases hfate

/-- A link that closes concludes all receipts. -/
theorem Valid.failAll (hl : l.Valid) :
    l.failAll.Valid ∧ (l.Settled → l.failAll.Settled) := by
  have hfates : l.Fates (l.pending.map fun t => (t, .leaves t.receipt.fail)) :=
    l.fates_map fun t _ t' h => nomatch h
  refine ⟨hl.settle hfates, fun hs => (hl.settled_settle hfates hs).mpr fun t r hmem => ?_⟩
  obtain ⟨t', ht', heq⟩ := mem_map.mp hmem
  rw [← Fate.leaves.inj (Prod.mk.inj heq).2]
  exact RequestReceipt.concluded_fail (hl.live t' ht')

theorem Valid.prepare (hl : l.Valid) {receipt : RequestReceipt} (hr : receipt.isPending = true) :
    (l.prepare receipt).Valid where
  nodup := by
    simp only [RequestLedger.prepare, map_append, map_cons, map_nil]
    refine nodup_append.mpr ⟨hl.nodup, nodup_singleton _, ?_⟩
    rintro serial hserial serial' hserial' rfl
    obtain ⟨t, ht, rfl⟩ := mem_map.mp hserial
    exact (hl.bound t ht).ne (mem_singleton.mp hserial')
  bound t ht := by
    rcases mem_append.mp ht with ht | ht
    · exact Nat.lt_succ_of_lt (hl.bound t ht)
    · rw [mem_singleton.mp ht]
      exact Nat.lt_succ_self _
  live t ht := by
    rcases mem_append.mp ht with ht | ht
    · exact hl.live t ht
    · rw [mem_singleton.mp ht]
      exact hr
  quiet t ht := by
    rcases mem_append.mp ht with ht | ht
    · exact hl.quiet t ht
    · rw [mem_singleton.mp ht]
      exact hl.unused l.next le_rfl
  unused serial hserial := hl.unused serial (Nat.le_of_succ_le hserial)
  story := hl.story
  gone serial hserial hleft := by
    rcases Nat.lt_succ_iff_lt_or_eq.mp hserial with hold | rfl
    · exact hl.gone serial hold fun t ht => hleft t (mem_append_left _ ht)
    · exact absurd rfl (hleft _ (mem_append_right _ (mem_singleton_self _)))

/-- Registering callbacks changes no receipt. -/
theorem Valid.register (hl : l.Valid) (serial : ℕ) (onResponse onFailed : Bool) :
    (l.register serial onResponse onFailed).Valid := by
  refine ⟨?_, fun t' ht' => ?_, fun t' ht' => ?_, fun t' ht' => ?_, hl.unused, hl.story,
    fun serial' hserial hleft => hl.gone serial' hserial fun t ht => ?_⟩
  · simp only [RequestLedger.register, map_map]
    exact hl.nodup
  · obtain ⟨t, ht, rfl⟩ := mem_map.mp ht'
    exact hl.bound t ht
  · obtain ⟨t, ht, rfl⟩ := mem_map.mp ht'
    exact hl.live t ht
  · obtain ⟨t, ht, rfl⟩ := mem_map.mp ht'
    exact hl.quiet t ht
  · have hother := hleft _ (mem_map.mpr ⟨t, ht, rfl⟩)
    exact hother

end Operations

/-! ### Beside the session -/

section Follow

variable {F : Type}

/-- A request was prepared, or refused. -/
def prepared (l : RequestLedger) (s : LinkSession F) (timeout now : ℕ)
    (result : Except LinkCryptoError (Bytes × Octets 16)) : RequestLedger :=
  match result with
  | .error _ => l
  | .ok (_, requestId) => l.prepare (.new (receiptId requestId) s.linkId timeout now)

/-- A response was read, or not. -/
def responded (l : RequestLedger) (response : Except LinkCryptoError (Octets 16 × Bytes))
    (now : ℕ) : RequestLedger :=
  match response with
  | .error _ => l
  | .ok (requestId, data) => l.resolveFirst requestId (·.receiveResponse data now)

/-- A tick closes the link. -/
def closes : LinkAction → Bool
  | .closed _ | .sendTeardownAndClose _ => true
  | _ => false

variable [AesCbc] [Hmac]

/-- A prepared request is encrypted, and given up where that fails. -/
def encrypted (l : RequestLedger) (s : LinkSession F)
    (result : Except LinkCryptoError (Bytes × Octets 16)) (iv : Octets 16) : RequestLedger :=
  match result with
  | .error _ => l
  | .ok (packed, requestId) =>
    match s.encrypt iv packed with
    | .ok _ => l
    | .error _ => l.discard requestId

variable [Binary64Bits F] [Sha256]

/-- The ledger beside a call of the link. -/
def follow (l : RequestLedger) (s : LinkSession F) : LinkCall F → RequestLedger
  | .request path data timeout timestamp now iv =>
    let (s', result) := s.prepareRequest path data timeout timestamp now
    (l.prepared s timeout now result).encrypted s' result iv
  | .prepareRequest path data timeout timestamp now =>
    l.prepared s timeout now (s.prepareRequest path data timeout timestamp now).2
  | .requestStr path data timeout timestamp now iv =>
    let (s', result) := s.prepareRequestValue path (.string data) timeout timestamp now
    (l.prepared s timeout now result).encrypted s' result iv
  | .markRequestResourceSending requestId => l.modifyFirst requestId (·.markResourceSending)
  | .markRequestResourceSent requestId now => l.modifyFirst requestId (·.markResourceSent now)
  | .failPendingRequest requestId => l.resolveFirst requestId (·.fail)
  | .updatePendingRequestId oldRequestId newRequestId =>
    l.modifyFirst oldRequestId fun r => { r with requestId := receiptId newRequestId }
  | .handleResponse encryptedData now =>
    l.responded ((s.decrypt encryptedData).bind parseResponsePlaintext) now
  | .handleResponsePlaintext plaintext now =>
    l.responded (parseResponsePlaintext plaintext) now
  | .deliverResponseData requestId responseData now =>
    l.resolveFirst requestId (·.receiveResponse responseData now)
  | .tick now iv =>
    if closes (s.tick now iv).2 then (l.checkTimeouts now).failAll else l.checkTimeouts now
  | .teardown _ _ | .markClosed _ => if s.state = .closed then l else l.failAll
  | .receiveTeardown encryptedData => if (s.receiveTeardown encryptedData).2 then l.failAll else l
  | _ => l

/-! #### The receipts of the ledger are those of the session -/

end Follow

/-- The receipts that are pending. -/
def receipts (l : RequestLedger) : List RequestReceipt := l.pending.map (·.receipt)

section Receipts

variable (l : RequestLedger) (requestId : Octets 16)

theorem receipts_prepare (receipt : RequestReceipt) :
    (l.prepare receipt).receipts = l.receipts ++ [receipt] := by
  simp [receipts, prepare]

theorem receipts_register (serial : ℕ) (onResponse onFailed : Bool) :
    (l.register serial onResponse onFailed).receipts = l.receipts := by
  simp [receipts, register, Function.comp_def]

theorem receipts_settle (fates : List (TrackedReceipt × Fate)) :
    (l.settle fates).receipts = fates.filterMap fun e => e.2.kept.map (·.receipt) := by
  simp [receipts, settle, map_filterMap]

theorem receipts_settle_map (g : TrackedReceipt → Fate) :
    (l.settle (l.pending.map fun t => (t, g t))).receipts =
      l.pending.filterMap fun t => (g t).kept.map (·.receipt) := by
  rw [receipts_settle, filterMap_map]
  rfl

theorem receipts_failAll : l.failAll.receipts = [] := by
  rw [failAll, receipts_settle_map]
  simp

theorem receipts_discard :
    (l.discard requestId).receipts = l.receipts.filter (!·.names requestId) := by
  rw [discard, receipts_settle_map, receipts]
  induction l.pending with
  | nil => rfl
  | cons t ts ih =>
    cases h : t.receipt.names requestId <;> simpa [h] using ih

theorem receipts_checkTimeouts (now : ℕ) :
    (l.checkTimeouts now).receipts =
      (l.receipts.map (checkTimeout · now)).filter (!concluded ·) := by
  rw [checkTimeouts, receipts_settle_map, receipts]
  induction l.pending with
  | nil => rfl
  | cons t ts ih =>
    cases h : (t.receipt.checkTimeout now).concluded <;> simpa [h] using ih

variable (f : RequestReceipt → RequestReceipt)

theorem receipts_resolveFirst :
    (l.resolveFirst requestId f).receipts = l.receipts.filter (!·.names requestId) := by
  have hbehind (ts : List TrackedReceipt) :
      (ts.map fun t => (t, if t.receipt.names requestId then Fate.leaves t.receipt
        else .stays t)).filterMap (fun e => e.2.kept.map (·.receipt)) =
      (ts.map (·.receipt)).filter (!·.names requestId) := by
    rw [← receipts_settle ⟨ts, 0, []⟩]
    exact receipts_discard ⟨ts, 0, []⟩ requestId
  rw [resolveFirst, receipts_settle, receipts]
  induction l.pending with
  | nil => rfl
  | cons t ts ih =>
    cases h : t.receipt.names requestId with
    | true => simpa [fatesByFirst, h, filterMap_cons] using hbehind ts
    | false => simpa [fatesByFirst, h] using ih

theorem receipts_modifyFirst :
    (l.modifyFirst requestId f).receipts =
      l.receipts.modify (l.receipts.findIdx (·.names requestId)) f := by
  have hbehind (ts : List TrackedReceipt) :
      (ts.map fun t => (t, if t.receipt.names requestId then Fate.stays t
        else .stays t)).filterMap (fun e => e.2.kept.map (·.receipt)) = ts.map (·.receipt) := by
    simp [filterMap_map, Function.comp_def]
  rw [modifyFirst, receipts_settle, receipts]
  induction l.pending with
  | nil => rfl
  | cons t ts ih =>
    cases h : t.receipt.names requestId with
    | true => simpa [fatesByFirst, h, findIdx_cons] using hbehind ts
    | false => simpa [fatesByFirst, h, findIdx_cons] using ih

end Receipts

/-- The ledger holds the receipts of the session. -/
def Follows (l : RequestLedger) {F : Type} (s : LinkSession F) : Prop :=
  l.receipts = s.pendingRequests

end RequestLedger

variable {f : RequestReceipt → RequestReceipt}

namespace LinkSession

variable {F : Type} (s : LinkSession F) (requestId : Octets 16)

/-- Changing the first receipt of a request and then dropping all of them is dropping them. -/
theorem filter_modify_findIdx (hf : ∀ r, (f r).names requestId = r.names requestId)
    (rs : List RequestReceipt) :
    (rs.modify (rs.findIdx (·.names requestId)) f).filter (!·.names requestId) =
      rs.filter (!·.names requestId) := by
  induction rs with
  | nil => rfl
  | cons r rs ih => cases h : r.names requestId <;> simp [h, hf, findIdx_cons, ih]

theorem pendingRequests_resolve (hf : ∀ r, (f r).names requestId = r.names requestId) :
    (if s.pendingRequests.any (·.names requestId) then
        ((s.modifyReceipt requestId f).1.discardPendingRequest requestId).pendingRequests
      else (s.modifyReceipt requestId f).1.pendingRequests) =
      s.pendingRequests.filter (!·.names requestId) := by
  split
  next => exact filter_modify_findIdx requestId hf _
  next hnone =>
    have hnames : ∀ r ∈ s.pendingRequests, r.names requestId = false := by simpa using hnone
    have hlast : s.pendingRequests.findIdx (·.names requestId) = s.pendingRequests.length :=
      findIdx_eq_length_of_false hnames
    have hall : s.pendingRequests.filter (!·.names requestId) = s.pendingRequests :=
      filter_eq_self.mpr fun r hr => by simp [hnames r hr]
    rw [hall]
    exact modify_eq_self hlast.ge

theorem pendingRequests_failPendingRequest :
    (s.failPendingRequest requestId).1.pendingRequests =
      s.pendingRequests.filter (!·.names requestId) := by
  rw [← s.pendingRequests_resolve requestId (f := (·.fail)) fun r => by
    unfold fail; split <;> rfl]
  unfold failPendingRequest
  dsimp only [modifyReceipt]
  split <;> rfl

theorem pendingRequests_deliverResponseData (data : Bytes) (now : ℕ) :
    (s.deliverResponseData requestId data now).1.pendingRequests =
      s.pendingRequests.filter (!·.names requestId) := by
  rw [← s.pendingRequests_resolve requestId (f := (·.receiveResponse data now)) fun r => by
    unfold receiveResponse; split <;> rfl]
  unfold deliverResponseData
  dsimp only [modifyReceipt]
  split <;> rfl

section Messages

variable [Binary64Bits F]

theorem pendingRequests_tryExtendEstablishmentTimeout (secs : F) :
    (s.tryExtendEstablishmentTimeout secs).1.pendingRequests = s.pendingRequests := by
  unfold tryExtendEstablishmentTimeout
  repeat' split
  all_goals rfl

variable [AesCbc] [Hmac] (encryptedData : Bytes)

theorem pendingRequests_receiveRttPacket (now : ℕ) (jitter : F) :
    (s.receiveRttPacket encryptedData now jitter).1.pendingRequests = s.pendingRequests := by
  unfold receiveRttPacket
  dsimp only
  repeat' split
  all_goals rfl

theorem pendingRequests_updateRttFromPacket (jitter : F) :
    (s.updateRttFromPacket encryptedData jitter).1.pendingRequests = s.pendingRequests := by
  unfold updateRttFromPacket
  dsimp only
  repeat' split
  all_goals rfl

omit [Binary64Bits F] in
theorem receiveTeardown_cases :
    s.receiveTeardown encryptedData = (s.close .destinationClosed, true) ∨
      s.receiveTeardown encryptedData = (s, false) := by
  unfold receiveTeardown
  split
  · split
    · exact .inl rfl
    · exact .inr rfl
  · exact .inr rfl

variable [Ed25519]

theorem pendingRequests_validateProof [X25519] [Hkdf] (proofData : Bytes) (key keyBytes : Octets 32)
    (now : ℕ) (jitter : F) (iv : Octets 16) :
    (s.validateProof proofData key keyBytes now jitter iv).1.pendingRequests =
      s.pendingRequests := by
  unfold validateProof
  dsimp only
  split <;> rfl

omit [Binary64Bits F] in
theorem pendingRequests_handleIdentification :
    (s.handleIdentification encryptedData).1.pendingRequests = s.pendingRequests := by
  unfold handleIdentification
  dsimp only
  repeat' split
  all_goals rfl

end Messages

end LinkSession

namespace RequestLedger

variable {F : Type} {l : RequestLedger} {s : LinkSession F}

theorem Follows.handleResponsePlaintext (h : l.Follows s) (plaintext : Bytes) (now : ℕ) :
    (l.responded (parseResponsePlaintext plaintext) now).Follows
      (s.handleResponsePlaintext plaintext now).1 := by
  unfold responded LinkSession.handleResponsePlaintext
  rcases parseResponsePlaintext plaintext with e | ⟨requestId, data⟩
  · exact h
  · refine (l.receipts_resolveFirst requestId _).trans ?_
    rw [h]
    exact (s.pendingRequests_deliverResponseData requestId data now).symm

variable [AesCbc] [Hmac]

theorem Follows.encrypted (h : l.Follows s) (result : Except LinkCryptoError (Bytes × Octets 16))
    (iv : Octets 16) : (l.encrypted s result iv).Follows (s.encryptRequest result iv).1 := by
  rcases result with e | ⟨packed, requestId⟩
  · exact h
  unfold RequestLedger.encrypted encryptRequest
  dsimp only
  cases s.encrypt iv packed with
  | ok encrypted => exact h
  | error e => exact (l.receipts_discard _).trans (by rw [h]; rfl)

theorem Follows.tick (h : l.Follows s) (now : ℕ) (iv : Octets 16) :
    (if closes (s.tick now iv).2 then (l.checkTimeouts now).failAll else l.checkTimeouts now).Follows
      (s.tick now iv).1 := by
  have hchecked : (l.checkTimeouts now).receipts =
      (s.pendingRequests.map (checkTimeout · now)).filter
        (!concluded ·) := by
    rw [receipts_checkTimeouts, h]
  have hclosed : (l.checkTimeouts now).failAll.receipts = [] := receipts_failAll _
  unfold LinkSession.tick
  dsimp only
  split
  all_goals
    repeat' split
  all_goals
    first
      | exact hchecked
      | exact hclosed
      | simp_all [closes]

variable [Binary64Bits F] [Sha256]

omit [AesCbc] [Hmac] in
theorem Follows.prepared (h : l.Follows s) (path : Bytes) (dataValue : Value) (timeout : ℕ)
    (timestamp : F) (now : ℕ) :
    (l.prepared s timeout now (s.prepareRequestValue path dataValue timeout timestamp now).2).Follows
      (s.prepareRequestValue path dataValue timeout timestamp now).1 := by
  unfold prepareRequestValue
  split
  · exact h
  · exact (l.receipts_prepare _).trans (by rw [h])

variable [Ed25519] [X25519] [Hkdf]

/-- After every call the ledger holds the receipts of the session. -/
theorem Follows.follow (h : l.Follows s) (c : LinkCall F) : (l.follow s c).Follows (s.call c) := by
  have hclosed (reason : CloseReason) : l.failAll.Follows (s.close reason) := l.receipts_failAll
  cases c with
  | request path data timeout timestamp now iv =>
    exact (h.prepared path _ timeout timestamp now).encrypted _ iv
  | prepareRequest path data timeout timestamp now => exact h.prepared path _ timeout timestamp now
  | requestStr path data timeout timestamp now iv =>
    exact (h.prepared path _ timeout timestamp now).encrypted _ iv
  | markRequestResourceSending requestId =>
    exact (l.receipts_modifyFirst requestId _).trans (by rw [h]; rfl)
  | markRequestResourceSent requestId now =>
    exact (l.receipts_modifyFirst requestId _).trans (by rw [h]; rfl)
  | updatePendingRequestId oldRequestId newRequestId =>
    exact (l.receipts_modifyFirst oldRequestId _).trans (by rw [h]; rfl)
  | failPendingRequest requestId =>
    refine (l.receipts_resolveFirst requestId _).trans ?_
    rw [h]
    exact (s.pendingRequests_failPendingRequest requestId).symm
  | handleResponse encryptedData now =>
    change (l.responded ((s.decrypt encryptedData).bind _) now).Follows
      (s.handleResponse encryptedData now).1
    unfold handleResponse
    cases s.decrypt encryptedData with
    | error e => exact h
    | ok plaintext => exact h.handleResponsePlaintext plaintext now
  | handleResponsePlaintext plaintext now => exact h.handleResponsePlaintext plaintext now
  | deliverResponseData requestId responseData now =>
    refine (l.receipts_resolveFirst requestId _).trans ?_
    rw [h]
    exact (s.pendingRequests_deliverResponseData requestId responseData now).symm
  | tick now iv => exact h.tick now iv
  | teardown reason iv =>
    simp only [RequestLedger.follow, call, teardown]
    split
    · exact h
    · exact hclosed reason
  | receiveTeardown encryptedData =>
    simp only [RequestLedger.follow, call]
    rcases s.receiveTeardown_cases encryptedData with hteardown | hteardown
    · rw [hteardown]
      exact hclosed _
    · rw [hteardown]
      exact h
  | markClosed reason =>
    simp only [RequestLedger.follow, call, markClosed]
    split
    next hstate => simpa [hstate] using h
    next hstate => simpa [hstate] using hclosed reason
  | tryExtendEstablishmentTimeout secs =>
    exact h.trans (s.pendingRequests_tryExtendEstablishmentTimeout secs).symm
  | validateProof proofData key keyBytes now jitter iv =>
    exact h.trans (s.pendingRequests_validateProof proofData key keyBytes now jitter iv).symm
  | receiveRttPacket encryptedData now jitter =>
    exact h.trans (s.pendingRequests_receiveRttPacket encryptedData now jitter).symm
  | handleIdentification encryptedData =>
    exact h.trans (s.pendingRequests_handleIdentification encryptedData).symm
  | updateRttFromPacket encryptedData jitter =>
    exact h.trans (s.pendingRequests_updateRttFromPacket encryptedData jitter).symm
  | updatePhyStats rssi snr q =>
    simp only [RequestLedger.follow, call, updatePhyStats]
    split <;> exact h
  | recordInbound now =>
    simp only [RequestLedger.follow, call, recordInbound]
    split <;> exact h
  | setSigningKey key =>
    simp only [RequestLedger.follow, call, setSigningKey]
    split <;> exact h
  | resourceConcluded size duration isIncoming =>
    simp only [RequestLedger.follow, call, resourceConcluded]
    split <;> exact h
  -- The others account for traffic and resources.
  | _ => exact h

end RequestLedger

/-! ### When receipts are concluded -/

namespace LinkSession

variable {F : Type} [AesCbc] [Hmac]

/-- One pending receipt at most has the identifier. -/
def Unambiguous (s : LinkSession F) (requestId : Octets 16) : Prop :=
  s.pendingRequests.countP (·.names requestId) ≤ 1

/-- A prepared request can be encrypted. -/
def Encrypts (s : LinkSession F) (result : Except LinkCryptoError (Bytes × Octets 16))
    (iv : Octets 16) : Prop :=
  ∀ packed requestId, result = .ok (packed, requestId) →
    ∃ encrypted, s.encrypt iv packed = .ok encrypted

variable [Binary64Bits F] [Sha256]

/-- A call that concludes the receipts it drops: requests it prepares can be encrypted, and
responses and failures are for one receipt. -/
def Conclusive (s : LinkSession F) : LinkCall F → Prop
  | .request path data timeout timestamp now iv =>
    (s.prepareRequest path data timeout timestamp now).1.Encrypts
      (s.prepareRequest path data timeout timestamp now).2 iv
  | .requestStr path data timeout timestamp now iv =>
    (s.prepareRequestValue path (.string data) timeout timestamp now).1.Encrypts
      (s.prepareRequestValue path (.string data) timeout timestamp now).2 iv
  | .failPendingRequest requestId => s.Unambiguous requestId
  | .deliverResponseData requestId _ _ => s.Unambiguous requestId
  | .handleResponse encryptedData _ => ∀ requestId data,
    (s.decrypt encryptedData).bind parseResponsePlaintext = .ok (requestId, data) →
      s.Unambiguous requestId
  | .handleResponsePlaintext plaintext _ => ∀ requestId data,
    parseResponsePlaintext plaintext = .ok (requestId, data) → s.Unambiguous requestId
  | _ => True

end LinkSession

section

variable {r : RequestReceipt}

theorem RequestReceipt.isPending_markResourceSending (h : r.isPending = true) :
    r.markResourceSending.isPending = true := by
  unfold markResourceSending
  split
  · rfl
  · exact h

theorem RequestReceipt.isPending_markResourceSent (now : ℕ) (h : r.isPending = true) :
    (r.markResourceSent now).isPending = true := by
  unfold markResourceSent
  split
  · rfl
  · exact h

end

theorem RequestReceipt.names_new (requestId linkId : Octets 16) (timeout now : ℕ) :
    (new (receiptId requestId) linkId timeout now).names requestId = true := by
  simp [names, new, receiptId]

namespace RequestLedger

variable {F : Type} {l : RequestLedger} {s : LinkSession F}

theorem Valid.prepared (hl : l.Valid) (timeout now : ℕ)
    (result : Except LinkCryptoError (Bytes × Octets 16)) :
    (l.prepared s timeout now result).Valid ∧
      ((l.prepared s timeout now result).Settled ↔ l.Settled) := by
  rcases result with e | ⟨packed, requestId⟩
  · exact ⟨hl, .rfl⟩
  · exact ⟨hl.prepare rfl, .rfl⟩

theorem Valid.resolved (hl : l.Valid) (h : l.Follows s) (requestId : Octets 16)
    (hf : ∀ r : RequestReceipt, r.isPending = true → (f r).concluded = true) :
    (l.resolveFirst requestId f).Valid ∧
      (l.Settled → ((l.resolveFirst requestId f).Settled ↔ s.Unambiguous requestId)) := by
  unfold Unambiguous
  rw [← h]
  exact hl.resolveFirst hf

theorem Valid.responded (hl : l.Valid) (h : l.Follows s)
    (response : Except LinkCryptoError (Octets 16 × Bytes)) (now : ℕ) :
    (l.responded response now).Valid ∧ (l.Settled → ((l.responded response now).Settled ↔
      ∀ requestId data, response = .ok (requestId, data) → s.Unambiguous requestId)) := by
  rcases response with e | ⟨requestId, data⟩
  · exact ⟨hl, fun hs => ⟨fun _ => nofun, fun _ => hs⟩⟩
  · obtain ⟨hvalid, hsettled⟩ := hl.resolved h requestId (f := (·.receiveResponse data now))
      fun r => RequestReceipt.concluded_receiveResponse data now
    refine ⟨hvalid, fun hs => (hsettled hs).trans ⟨?_, fun hone => hone requestId data rfl⟩⟩
    rintro hone _ _ ⟨⟩
    exact hone

variable [AesCbc] [Hmac]

/-- A request that cannot be encrypted is dropped in no terminal state. -/
theorem Valid.encrypted (hl : l.Valid) {result : Except LinkCryptoError (Bytes × Octets 16)}
    (hpending : ∀ packed requestId, result = .ok (packed, requestId) →
      ∃ t ∈ l.pending, t.receipt.names requestId = true) (iv : Octets 16) :
    (l.encrypted s result iv).Valid ∧
      (l.Settled → ((l.encrypted s result iv).Settled ↔ s.Encrypts result iv)) := by
  rcases result with e | ⟨packed, requestId⟩
  · exact ⟨hl, fun hs => ⟨fun _ => nofun, fun _ => hs⟩⟩
  have hencrypts : s.Encrypts (.ok (packed, requestId)) iv ↔
      ∃ encrypted, s.encrypt iv packed = .ok encrypted := by
    refine ⟨fun h => h packed requestId rfl, ?_⟩
    rintro h _ _ ⟨⟩
    exact h
  rw [hencrypts]
  unfold RequestLedger.encrypted
  dsimp only
  cases s.encrypt iv packed with
  | ok encrypted => exact ⟨hl, fun hs => ⟨fun _ => ⟨encrypted, rfl⟩, fun _ => hs⟩⟩
  | error e =>
    refine ⟨hl.discard.1, fun hs => (hl.discard.2 hs).trans ⟨fun hnone => ?_, nofun⟩⟩
    obtain ⟨t, ht, hnames⟩ := hpending packed requestId rfl
    cases (hnone t ht).symm.trans hnames

variable [Binary64Bits F] [Sha256]

/-- A request is prepared and encrypted. -/
theorem Valid.requested (hl : l.Valid) (path : Bytes) (dataValue : Value) (timeout : ℕ)
    (timestamp : F) (now : ℕ) (iv : Octets 16) :
    let prepared := s.prepareRequestValue path dataValue timeout timestamp now
    ((l.prepared s timeout now prepared.2).encrypted prepared.1 prepared.2 iv).Valid ∧
      (l.Settled → (((l.prepared s timeout now prepared.2).encrypted prepared.1 prepared.2 iv).Settled ↔
        prepared.1.Encrypts prepared.2 iv)) := by
  intro prepared
  obtain ⟨hvalid, hsettled⟩ := hl.prepared (s := s) timeout now prepared.2
  have hpending : ∀ packed requestId, prepared.2 = .ok (packed, requestId) →
      ∃ t ∈ (l.prepared s timeout now prepared.2).pending, t.receipt.names requestId = true := by
    intro packed requestId hresult
    rw [hresult]
    exact ⟨_, mem_append_right _ (mem_singleton_self _), names_new ..⟩
  obtain ⟨hvalid', hsettled'⟩ := hvalid.encrypted (s := prepared.1) hpending iv
  exact ⟨hvalid', fun hs => hsettled' (hsettled.mpr hs)⟩

/-- One call: the ledger stays valid, and what left is concluded exactly if the call is
conclusive. -/
theorem Valid.follow (hl : l.Valid) (h : l.Follows s) (c : LinkCall F) :
    (l.follow s c).Valid ∧ (l.Settled → ((l.follow s c).Settled ↔ s.Conclusive c)) := by
  -- Calls that never drop a receipt in no terminal state.
  have hkeeps {l' : RequestLedger} (hl' : l'.Valid ∧ (l.Settled → l'.Settled)) :
      l'.Valid ∧ (l.Settled → (l'.Settled ↔ True)) :=
    ⟨hl'.1, fun hs => iff_true_intro (hl'.2 hs)⟩
  have hsame : l.Valid ∧ (l.Settled → (l.Settled ↔ True)) := hkeeps ⟨hl, id⟩
  cases c with
  | request path data timeout timestamp now iv => exact hl.requested path _ timeout timestamp now iv
  | prepareRequest path data timeout timestamp now =>
    obtain ⟨hvalid, hsettled⟩ := hl.prepared (s := s) timeout now
      (s.prepareRequest path data timeout timestamp now).2
    exact hkeeps ⟨hvalid, hsettled.mpr⟩
  | requestStr path data timeout timestamp now iv =>
    exact hl.requested path _ timeout timestamp now iv
  | markRequestResourceSending requestId =>
    exact hkeeps (hl.modifyFirst fun r => isPending_markResourceSending)
  | markRequestResourceSent requestId now =>
    exact hkeeps (hl.modifyFirst fun r => isPending_markResourceSent now)
  | updatePendingRequestId oldRequestId newRequestId =>
    exact hkeeps (hl.modifyFirst (f := fun r => { r with requestId := receiptId newRequestId })
      fun r hr => hr)
  | failPendingRequest requestId =>
    exact hl.resolved h requestId fun r => RequestReceipt.concluded_fail
  | handleResponse encryptedData now => exact hl.responded h _ now
  | handleResponsePlaintext plaintext now => exact hl.responded h _ now
  | deliverResponseData requestId responseData now =>
    exact hl.resolved h requestId fun r => RequestReceipt.concluded_receiveResponse responseData now
  | tick now iv =>
    obtain ⟨hvalid, hsettled⟩ := hl.checkTimeouts now
    simp only [RequestLedger.follow]
    split
    · exact hkeeps ⟨hvalid.failAll.1, fun hs => hvalid.failAll.2 (hsettled hs)⟩
    · exact hkeeps ⟨hvalid, hsettled⟩
  | teardown reason iv =>
    simp only [RequestLedger.follow]
    split
    · exact hsame
    · exact hkeeps hl.failAll
  | receiveTeardown encryptedData =>
    simp only [RequestLedger.follow]
    split
    · exact hkeeps hl.failAll
    · exact hsame
  | markClosed reason =>
    simp only [RequestLedger.follow]
    split
    · exact hsame
    · exact hkeeps hl.failAll
  | _ => exact hsame

end RequestLedger

/-! ### Runs -/

/-- A link, with the ledger of its requests. -/
structure RequestTracking (F : Type) where
  session : LinkSession F
  ledger : RequestLedger

/-- A call of the link, or callbacks that are registered on a receipt. -/
inductive RequestCall (F : Type)
  | link (call : LinkCall F)
  | register (serial : ℕ) (onResponse onFailed : Bool)

namespace RequestTracking

variable {F : Type}

/-- A link before its first request. -/
def start (s : LinkSession F) : RequestTracking F := ⟨s, .empty⟩

section Step

variable [Binary64Bits F] [Sha256] [AesCbc] [Hmac]

/-- The call concludes the receipts it drops. -/
def Conclusive (t : RequestTracking F) : RequestCall F → Prop
  | .link c => t.session.Conclusive c
  | .register _ _ _ => True

variable [Ed25519] [X25519] [Hkdf]

/-- The link and its ledger after a call. -/
def step (t : RequestTracking F) : RequestCall F → RequestTracking F
  | .link c => ⟨t.session.call c, t.ledger.follow t.session c⟩
  | .register serial onResponse onFailed =>
    { t with ledger := t.ledger.register serial onResponse onFailed }

end Step

/-- The ledger holds the receipts of the link, and is valid. -/
structure Valid (t : RequestTracking F) : Prop where
  follows : t.ledger.Follows t.session
  valid : t.ledger.Valid

theorem Valid.start {s : LinkSession F} (hs : s.pendingRequests = []) : (start s).Valid where
  follows := hs.symm
  valid := by
    refine ⟨.nil, ?_, ?_, ?_, fun _ _ => rfl, fun _ => .inl rfl,
      fun _ h => absurd h (Nat.not_lt_zero _)⟩
    all_goals exact fun t ht => absurd ht not_mem_nil

variable {t : RequestTracking F}

/-- A valid ledger accounts for every receipt. -/
theorem Valid.accounted (h : t.Valid) : t.ledger.Accounted := by
  have hcount (e : RequestEvent) : t.ledger.log.count e = (t.ledger.logOf e.serial).count e :=
    (count_filter (p := fun e' : RequestEvent => e'.serial = e.serial) (by simp)).symm
  have hbounds (serial : ℕ) : (t.ledger.logOf serial).countP (·.concludes serial) ≤ 1 ∧
      (t.ledger.logOf serial).count (.called serial) ≤ 1 ∧
      (t.ledger.logOf serial).count (.left serial) ≤ 1 := by
    rcases h.valid.story serial with hnone | ⟨r, r', rfl, hpending, hlog⟩
    · simp [hnone]
    · obtain ⟨hconcludes, hcalls, hleaves⟩ := events_leaves hpending r'
      rw [hlog]
      exact ⟨hconcludes.trans_le (Bool.toNat_le _), hcalls, hleaves.le⟩
  refine ⟨fun serial => ?_, fun serial => (hcount _).trans_le (hbounds serial).2.1,
    fun serial => (hcount _).trans_le (hbounds serial).2.2, fun serial => ?_⟩
  · rw [RequestLedger.countP_logOf]
    exact (hbounds serial).1
  · rw [← RequestLedger.left_mem_logOf]
    refine ⟨fun hleft => ⟨?_, fun r hr heq => ?_⟩, fun hgone => h.valid.gone serial hgone.1 hgone.2⟩
    · by_contra hserial
      rw [h.valid.unused serial (Nat.le_of_not_lt hserial)] at hleft
      cases hleft
    · rw [← heq, h.valid.quiet r hr] at hleft
      cases hleft

section Runs

variable [Binary64Bits F] [Sha256] [AesCbc] [Hmac] [Ed25519] [X25519] [Hkdf]

theorem Valid.step (h : t.Valid) (c : RequestCall F) :
    (t.step c).Valid ∧ (t.ledger.Settled → ((t.step c).ledger.Settled ↔ t.Conclusive c)) := by
  cases c with
  | link c =>
    obtain ⟨hvalid, hsettled⟩ := h.valid.follow h.follows c
    exact ⟨⟨h.follows.follow c, hvalid⟩, hsettled⟩
  | register serial onResponse onFailed =>
    have hfollows := (t.ledger.receipts_register serial onResponse onFailed).trans h.follows
    exact ⟨⟨hfollows, h.valid.register serial onResponse onFailed⟩, fun hs => iff_true_intro hs⟩

/-- Every pending request reaches one terminal state. In all calls of a link the ledger holds the
pending receipts, each of which is put in a terminal state, has its callback run and leaves at most
once. And none leaves without having been put in a terminal state exactly if all calls are
conclusive: a response or a failure is for one receipt, and prepared requests can be encrypted. -/
theorem receipts_concluded_iff (s : LinkSession F) (hs : s.pendingRequests = [])
    (calls : List (RequestCall F)) :
    (∀ done, done <+: calls →
        (done.foldl step (start s)).ledger.Follows (done.foldl step (start s)).session ∧
          (done.foldl step (start s)).ledger.Accounted) ∧
      ((∀ done, done <+: calls → (done.foldl step (start s)).ledger.Settled) ↔
        ∀ done c, done ++ [c] <+: calls → (done.foldl step (start s)).Conclusive c) := by
  have hvalid (done : List (RequestCall F)) : (done.foldl step (start s)).Valid :=
    List.foldlRecOn done step (Valid.start hs) fun t ht c _ => (ht.step c).1
  refine ⟨fun done _ => ⟨(hvalid done).follows, (hvalid done).accounted⟩, ?_⟩
  have hiff := forall_prefix_iff (f := step) (I := fun t : RequestTracking F =>
      t.Valid ∧ t.ledger.Settled) (G := fun _ _ => True) (C := Conclusive)
    (fun t c ht => ⟨fun hc => ((ht.1.step c).2 ht.2).mp hc.1.2,
      fun hc => ⟨⟨(ht.1.step c).1, ((ht.1.step c).2 ht.2).mpr hc⟩, trivial⟩⟩)
    ⟨.start hs, fun _ h => nomatch h⟩ calls
  rw [← hiff]
  exact ⟨fun h => ⟨fun done hdone => ⟨hvalid done, h done hdone⟩, fun _ _ _ => trivial⟩,
    fun h done hdone => (h.1 done hdone).2⟩

end Runs

/-! A responder becomes active with the first packet it decrypts, and makes the same request twice at
the same time of the clock. -/

/-- The responder becomes active, and prepares a request. -/
def trackedRequest : List (RequestCall ℚ) :=
  [.link (.receiveRttPacket sessionRtt 0 0),
    .link (.prepareRequest [47, 112, 97, 103, 101] none (10 * 10 ^ 9) 0 0), .register 0 true true]

/-- A response to that request. -/
def trackedResponse : RequestCall ℚ :=
  .link (.handleResponsePlaintext
    ([0x92, 0xc4, 16] ++ ((sessionSha256).digest []).1.take 16 ++ [0xc0]) 1)

attribute [local instance] sessionBinary64 sessionSha256 sessionEd25519 sessionX25519 sessionHkdf
  sessionAesCbc sessionHmac

/-- The request is made twice, and answered once: the second receipt leaves in no terminal state. -/
theorem repeated_request_dropped :
    ∃ s : LinkSession ℚ, s.Created ∧ s.pendingRequests = [] ∧
      ((trackedRequest ++ [.link (.prepareRequest [47, 112, 97, 103, 101] none (10 * 10 ^ 9) 0 0),
        .register 1 true true, trackedResponse]).foldl step (start s)).ledger.log =
          [.concluded 0 .responseReceived, .called 0, .left 0, .left 1] ∧
      ¬ ((trackedRequest ++ [.link (.prepareRequest [47, 112, 97, 103, 101] none (10 * 10 ^ 9) 0 0),
        .register 1 true true, trackedResponse]).foldl step (start s)).ledger.Settled := by
  obtain ⟨s, proofData, h, hcheck⟩ := exists_ok_of_any (x := sessionResponder) (p := fun s =>
      s.pendingRequests = [] ∧ ((trackedRequest ++ [.link (.prepareRequest [47, 112, 97, 103, 101]
        none (10 * 10 ^ 9) 0 0), .register 1 true true, trackedResponse]).foldl step
          (start s)).ledger.log = [.concluded 0 .responseReceived, .called 0, .left 0, .left 1])
    (by decide +kernel)
  refine ⟨s, .newResponderWith h, hcheck.1, hcheck.2, fun hsettled => ?_⟩
  have hone := hsettled 1
  rw [hcheck.2] at hone
  exact absurd (hone (by decide)) (by decide)

/-- The request is made once, and answered. -/
theorem receipts_concluded_single :
    ∃ s : LinkSession ℚ, s.Created ∧
      ((trackedRequest ++ [trackedResponse]).foldl step (start s)).ledger.log =
        [.concluded 0 .responseReceived, .called 0, .left 0] ∧
      ((trackedRequest ++ [trackedResponse]).foldl step (start s)).ledger.Accounted := by
  obtain ⟨s, proofData, h, hcheck⟩ := exists_ok_of_any (x := sessionResponder) (p := fun s =>
      s.pendingRequests = [] ∧ ((trackedRequest ++ [trackedResponse]).foldl step
        (start s)).ledger.log = [.concluded 0 .responseReceived, .called 0, .left 0])
    (by decide +kernel)
  exact ⟨s, .newResponderWith h, hcheck.2,
    ((receipts_concluded_iff s hcheck.1 _).1 _ (prefix_refl _)).2⟩

end RequestTracking

end Reticulum
