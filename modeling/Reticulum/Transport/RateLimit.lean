import Reticulum.Foundation.Binary64
import Reticulum.Foundation.Octets
import Reticulum.Foundation.Table

/-!
# Announce rates

The accounting of announces per destination, `rate_limit.rs`. An interface may ask for a target
interval between the announces of a destination; shorter intervals are violations, more violations
than its grace suppress announces until a deadline, and longer intervals work violations off.

## Main definitions

* `RateEntry`, `RateTable` with `checkInterfaceRate` and `record`.
* `RateTable.checkAll` — a run of checks for any destinations.
* `RateEntry.Regular` — what the checks of a destination keep true of its entry.

## Main results

* `RateEntry.Regular.check`, `RateTable.regular_checkAll` — one check, and a run.
* `RateTable.interface_rate_limit` — the bound on violations and the way out of suppression.
-/

namespace Reticulum.Transport

open Binary64 Octets List

/-- `MAX_RATE_TIMESTAMPS`. -/
def maxRateTimestamps : ℕ := 16

/-- `RateEntry`. -/
structure RateEntry (F : Type) where
  timestamps : List F
  rate : F
  last : F
  violations : UInt32
  blockedUntil : F
  deriving DecidableEq

/-- What an interface asks of the announces of a destination. -/
structure AnnounceRate (F : Type) where
  target : F
  grace : UInt32
  penalty : F
  deriving DecidableEq

/-- Destinations and their announces. -/
abbrev RateTable (F : Type) : Type := Table (Octets 16) (RateEntry F)

variable {F : Type} [Binary64 F]

namespace RateEntry

/-- The entry of a destination without announces, given the fields that differ. -/
def fresh (timestamps : List F) (last : F) : RateEntry F where
  timestamps := timestamps
  rate := ofRat 0
  last := last
  violations := 0
  blockedUntil := ofRat 0

/-- A timestamp more; the oldest are dropped. -/
def stamp (e : RateEntry F) (now : F) : List F :=
  let timestamps := e.timestamps ++ [now]
  timestamps.drop (timestamps.length - maxRateTimestamps)

/-- `violations` after an interval that is as long as asked, or is not. -/
def recount (e : RateEntry F) (short : Bool) : UInt32 :=
  if short then e.violations + 1 else if e.violations = 0 then 0 else e.violations - 1

/-- The check of an announce of a known destination: whether it is suppressed. -/
def check (e : RateEntry F) (r : AnnounceRate F) (now : F) : Bool × RateEntry F :=
  if le now e.blockedUntil then (true, e)
  else
    let violations := e.recount (lt (sub now e.last) r.target)
    let counted := { e with timestamps := e.stamp now, violations }
    if r.grace < violations then
      (true, { counted with blockedUntil := add (add e.last r.target) r.penalty })
    else (false, { counted with last := now })

/-- The rate over the timestamps, when they span some time. -/
def rateOver (e : RateEntry F) (timestamps : List F) : F :=
  match timestamps.head?, timestamps.getLast? with
  | some first, some last =>
    let span := sub last first
    if 2 ≤ timestamps.length ∧ lt (ofRat 0) span then div (ofRat (timestamps.length - 1 : ℕ)) span
    else e.rate
  | _, _ => e.rate

/-- The exponent of the back-off, converted to `i32`. -/
def backoff (violations : UInt32) : ℤ :=
  let k := (violations - 3).toNat
  if k < 2 ^ 31 then k else k - 2 ^ 32

/-- `RateTable::record` on the entry of a destination. -/
def record (e : RateEntry F) (now : F) : F × RateEntry F :=
  if lt now e.blockedUntil then (ofRat ((2 ^ 53 - 1) * 2 ^ 971), e)
  else
    let timestamps := e.stamp now
    let rate := e.rateOver timestamps
    let e := { e with timestamps, last := now, rate }
    if lt (ofRat 1) rate then
      let e := { e with violations := e.violations + 1 }
      if 3 ≤ e.violations then
        let penalty := Binary64.min (mul (ofRat 60) (ofRat ((2 : ℚ) ^ backoff e.violations)))
          (ofRat 3600)
        (rate, { e with blockedUntil := add now penalty })
      else (rate, e)
    else (rate, e)

end RateEntry

namespace RateTable

/-- `RateTable::new`. -/
def new : RateTable F := ∅

/-- `RateTable::check_interface_rate` at time `now`. -/
def checkInterfaceRate (t : RateTable F) (destHash : Octets 16) (r : AnnounceRate F) (now : F) :
    Bool × RateTable F :=
  match t.get destHash with
  | none => (false, t.insert destHash (.fresh [now] now))
  | some e => ((e.check r now).1, t.insert destHash (e.check r now).2)

/-- `RateTable::record` at time `now`. -/
def record (t : RateTable F) (destHash : Octets 16) (now : F) : F × RateTable F :=
  let e := ((t.get destHash).getD (.fresh [] (ofRat 0))).record now
  (e.1, t.insert destHash e.2)

/-- The accounting of an announce in `process_announce`: what passes the check is recorded. -/
def checkAndRecord (t : RateTable F) (destHash : Octets 16) (r : AnnounceRate F) (now : F) :
    Bool × RateTable F :=
  let (blocked, t) := t.checkInterfaceRate destHash r now
  if blocked then (true, t) else (false, (t.record destHash now).2)

/-- An announce that is checked. -/
structure Check (F : Type) where
  destHash : Octets 16
  rate : AnnounceRate F
  now : F

/-- The table after a run of checks. -/
def checkAll (t : RateTable F) (checks : List (Check F)) : RateTable F :=
  checks.foldl (fun t c => (t.checkInterfaceRate c.destHash c.rate c.now).2) t

end RateTable

/-! ### One check -/

namespace RateEntry

variable {e : RateEntry ℚ} {r : AnnounceRate ℚ} {now upTo : ℚ}

/-- Kept true of an entry by the checks under one target, grace and penalty: at most one violation
over the grace, and then the deadline belongs to the last accepted announce; an older deadline is
not later than that. The last accepted announce is not in the future. -/
structure Regular (r : AnnounceRate ℚ) (upTo : ℚ) (e : RateEntry ℚ) : Prop where
  violations : e.violations.toNat ≤ r.grace.toNat + 1
  deadline : r.grace < e.violations → e.blockedUntil = e.last + r.target + r.penalty
  blockedUntil : e.blockedUntil = 0 ∨ e.blockedUntil ≤ e.last + r.target + r.penalty
  last : e.last ≤ upTo

theorem regular_fresh (r : AnnounceRate ℚ) (timestamps : List ℚ) (now : ℚ) :
    (fresh timestamps now).Regular r now where
  violations := Nat.zero_le _
  deadline h := absurd h (UInt32.not_lt.mpr UInt32.zero_le)
  blockedUntil := .inl rfl
  last := le_refl now

variable (e)

/-- A long enough interval works one violation off. -/
theorem toNat_recount_long : (e.recount false).toNat = e.violations.toNat - 1 := by
  by_cases h : e.violations = 0
  · simp [recount, h]
  · have hpos : 1 ≤ e.violations.toNat := Nat.one_le_iff_ne_zero.mpr fun h0 =>
      h (UInt32.toNat_inj.mp h0)
    simp only [recount, Bool.false_eq_true, if_false, if_neg h]
    rw [UInt32.toNat_sub_of_le]
    · rfl
    · exact UInt32.le_iff_toNat_le.mpr hpos

/-- A violation counts one more, unless the counter starts again. -/
theorem toNat_recount_short_le : (e.recount true).toNat ≤ e.violations.toNat + 1 := by
  simp only [recount, if_true, UInt32.toNat_add]
  exact Nat.mod_le _ _

theorem toNat_recount_le (short : Bool) : (e.recount short).toNat ≤ e.violations.toNat + 1 := by
  cases short with
  | false =>
    rw [toNat_recount_long]
    omega
  | true => exact toNat_recount_short_le e

variable {e}

/-- Past the deadline of the last accepted announce the interval is long enough. -/
theorem check_of_late (hr : 0 ≤ r.penalty) (hv : e.violations.toNat ≤ r.grace.toNat + 1)
    (hopen : e.blockedUntil < now) (hlate : e.last + r.target + r.penalty < now) :
    e.check r now = (false, { e with
      timestamps := e.stamp now, violations := e.recount false, last := now }) := by
  have hblock : le now e.blockedUntil = false := decide_eq_false (not_le.mpr hopen)
  have hlong : lt (sub now e.last) r.target = false := by
    refine decide_eq_false (not_lt.mpr ?_)
    show r.target ≤ now - e.last
    linarith
  have hgrace : ¬ r.grace < e.recount false := by
    rw [UInt32.lt_iff_toNat_lt, toNat_recount_long]
    omega
  rw [check, hblock, hlong]
  simp only [Bool.false_eq_true, if_false, if_neg hgrace]

/-- What a check answers is whether it moved the time of the last accepted announce; a deadline is
only ever set from that time. -/
theorem check_last (e : RateEntry ℚ) (r : AnnounceRate ℚ) (now : ℚ) :
    ((e.check r now).1 = false → (e.check r now).2.last = now ∧
      (e.check r now).2.blockedUntil = e.blockedUntil) ∧
    ((e.check r now).1 = true → (e.check r now).2.last = e.last ∧
      ((e.check r now).2.blockedUntil = e.blockedUntil ∨
        (e.check r now).2.blockedUntil = e.last + r.target + r.penalty)) := by
  simp only [check]
  split_ifs with hblock hgrace
  · exact ⟨nofun, fun _ => ⟨rfl, .inl rfl⟩⟩
  · exact ⟨nofun, fun _ => ⟨rfl, .inr rfl⟩⟩
  · exact ⟨fun _ => ⟨rfl, rfl⟩, nofun⟩

/-- A check keeps an entry regular. -/
theorem Regular.check (h : e.Regular r upTo) (hr : 0 ≤ r.penalty) (hnow : upTo ≤ now) :
    (e.check r now).2.Regular r now := by
  by_cases hblock : now ≤ e.blockedUntil
  · have hle : le now e.blockedUntil = true := decide_eq_true hblock
    rw [RateEntry.check, hle]
    exact ⟨h.violations, h.deadline, h.blockedUntil, h.last.trans hnow⟩
  · have hopen : e.blockedUntil < now := not_le.mp hblock
    have hlast : e.last ≤ now := h.last.trans hnow
    by_cases hover : r.grace < e.violations
    · -- the deadline of the last accepted announce has passed
      have hlate : e.last + r.target + r.penalty < now := h.deadline hover ▸ hopen
      rw [check_of_late hr h.violations hopen hlate]
      have hv : (e.recount false).toNat ≤ r.grace.toNat := by
        have hle := h.violations
        rw [toNat_recount_long]
        omega
      refine ⟨hv.trans (Nat.le_succ _), fun hlt => ?_, ?_, le_refl now⟩
      · exact absurd (UInt32.lt_iff_toNat_lt.mp hlt) (Nat.not_lt.mpr hv)
      · refine h.blockedUntil.imp_right fun hle => ?_
        show e.blockedUntil ≤ now + r.target + r.penalty
        linarith
    · have hle : le now e.blockedUntil = false := decide_eq_false hblock
      have hv : (e.recount (lt (sub now e.last) r.target)).toNat ≤ r.grace.toNat + 1 := by
        have hrecount := toNat_recount_le e (lt (sub now e.last) r.target)
        have hgrace : e.violations.toNat ≤ r.grace.toNat :=
          Nat.not_lt.mp fun hlt => hover (UInt32.lt_iff_toNat_lt.mpr hlt)
        omega
      rw [RateEntry.check, hle]
      simp only [Bool.false_eq_true, if_false]
      split_ifs with hgrace
      · exact ⟨hv, fun _ => rfl, .inr le_rfl, hlast⟩
      · refine ⟨hv, fun hlt => absurd hlt hgrace, h.blockedUntil.imp_right fun hle => ?_, le_refl now⟩
        show e.blockedUntil ≤ now + r.target + r.penalty
        linarith

end RateEntry

/-! ### Runs of checks -/

namespace RateTable

variable {t : RateTable ℚ} {destHash : Octets 16} {r : AnnounceRate ℚ}

/-- The entry of the destination, if it has one, is regular. -/
def RegularAt (t : RateTable ℚ) (destHash : Octets 16) (r : AnnounceRate ℚ) (upTo : ℚ) : Prop :=
  ∀ e, t.get destHash = some e → e.Regular r upTo

/-- Checks of other destinations do not touch the entry. -/
theorem get_checkInterfaceRate_of_ne {other : Octets 16} (r' : AnnounceRate ℚ) (now : ℚ)
    (h : destHash ≠ other) :
    (t.checkInterfaceRate other r' now).2.get destHash = t.get destHash := by
  rw [checkInterfaceRate]
  split
  · exact Table.get_insert_ne h
  · exact Table.get_insert_ne h

/-- A check, of whatever destination, keeps the entry of this one regular. -/
theorem RegularAt.check {upTo : ℚ} (h : t.RegularAt destHash r upTo) (hr : 0 ≤ r.penalty)
    (c : Check ℚ) (hc : c.destHash = destHash → c.rate = r) (hnow : upTo ≤ c.now) :
    (t.checkInterfaceRate c.destHash c.rate c.now).2.RegularAt destHash r c.now := by
  intro e he
  by_cases hdest : destHash = c.destHash
  · have hget (e' : RateEntry ℚ) : (t.insert c.destHash e').get destHash = some e' := by
      rw [Table.get_insert, if_pos hdest]
    rw [checkInterfaceRate] at he
    cases ht : t.get c.destHash with
    | none =>
      rw [ht] at he
      obtain rfl := Option.some.inj ((hget _).symm.trans he)
      exact RateEntry.regular_fresh r _ c.now
    | some e' =>
      rw [ht] at he
      obtain rfl := Option.some.inj ((hget _).symm.trans he)
      rw [hc hdest.symm]
      exact (h e' (hdest ▸ ht)).check hr hnow
  · rw [get_checkInterfaceRate_of_ne c.rate c.now hdest] at he
    obtain ⟨hv, hdeadline, hblocked, hlast⟩ := h e he
    exact ⟨hv, hdeadline, hblocked, hlast.trans hnow⟩

/-- After a run of checks in the order of time the entry of the destination is regular. -/
theorem regular_checkAll {upTo : ℚ} (h : t.RegularAt destHash r upTo) (hr : 0 ≤ r.penalty)
    {checks : List (Check ℚ)} (hrate : ∀ c ∈ checks, c.destHash = destHash → c.rate = r)
    (horder : (checks.map Check.now).IsChain (· ≤ ·)) (hfirst : ∀ c ∈ checks, upTo ≤ c.now)
    {now : ℚ} (hlast : ∀ c ∈ checks, c.now ≤ now) (hnow : upTo ≤ now) :
    (t.checkAll checks).RegularAt destHash r now := by
  induction checks generalizing t upTo with
  | nil =>
    intro e he
    obtain ⟨hv, hdeadline, hblocked, hle⟩ := h e he
    exact ⟨hv, hdeadline, hblocked, hle.trans hnow⟩
  | cons c checks ih =>
    have hsorted : (c.now :: checks.map Check.now).Pairwise (· ≤ ·) :=
      isChain_iff_pairwise.mp horder
    obtain ⟨hhead, htail⟩ := pairwise_cons.mp hsorted
    have hstep := h.check hr c (hrate c mem_cons_self) (hfirst c mem_cons_self)
    refine ih hstep (fun c' hc' => hrate c' (mem_cons_of_mem _ hc'))
      (isChain_iff_pairwise.mpr htail) ?_ (fun c' hc' => hlast c' (mem_cons_of_mem _ hc'))
      (hlast c mem_cons_self)
    intro c' hc'
    exact hhead c'.now (mem_map_of_mem hc')

/-- Under a fixed target, grace and penalty, from an empty table and in the order of time: the
violations of a destination never exceed the grace by more than one; a suppressed announce leaves
the time of the last accepted one, and a deadline is never later than that time with target and
penalty added; and every announce after that moment is accepted and works one violation off. -/
theorem interface_rate_limit (destHash : Octets 16) (r : AnnounceRate ℚ) (hr : 0 ≤ r.penalty)
    (checks : List (Check ℚ)) (hrate : ∀ c ∈ checks, c.destHash = destHash → c.rate = r)
    (horder : (checks.map Check.now).IsChain (· ≤ ·)) {e : RateEntry ℚ}
    (he : (new.checkAll checks).get destHash = some e) :
    e.violations.toNat ≤ r.grace.toNat + 1 ∧
    ∀ now : ℚ, (∀ c ∈ checks, c.now ≤ now) →
      ((e.check r now).1 = true → (e.check r now).2.last = e.last ∧
        ((e.check r now).2.blockedUntil = e.blockedUntil ∨
          (e.check r now).2.blockedUntil = e.last + r.target + r.penalty)) ∧
      ((e.check r now).1 = false → (e.check r now).2.last = now) ∧
      (0 < now → e.last + r.target + r.penalty < now →
        (e.check r now).1 = false ∧
          (e.check r now).2.violations.toNat = e.violations.toNat - 1) := by
  have hregular (now : ℚ) (hlast : ∀ c ∈ checks, c.now ≤ now) : e.Regular r now := by
    cases checks with
    | nil => exact nomatch he
    | cons c checks =>
      have hempty : (new : RateTable ℚ).RegularAt destHash r c.now := fun e he => nomatch he
      have hfirst : ∀ c' ∈ c :: checks, c.now ≤ c'.now := by
        have hsorted : (c.now :: checks.map Check.now).Pairwise (· ≤ ·) :=
          isChain_iff_pairwise.mp horder
        refine forall_mem_cons.mpr ⟨le_rfl, fun c' hc' => ?_⟩
        exact (pairwise_cons.mp hsorted).1 c'.now (mem_map_of_mem hc')
      exact regular_checkAll hempty hr hrate horder hfirst hlast (hlast c mem_cons_self) e he
  have hviolations : e.violations.toNat ≤ r.grace.toNat + 1 := by
    obtain ⟨now, hnow⟩ := (checks.map Check.now).toFinset.exists_le
    refine (hregular now fun c hc => hnow c.now ?_).violations
    exact mem_toFinset.mpr (mem_map_of_mem hc)
  refine ⟨hviolations, fun now hlast => ⟨(e.check_last r now).2, ?_, fun hpos hlate => ?_⟩⟩
  · exact fun h => ((e.check_last r now).1 h).1
  · have hopen : e.blockedUntil < now := by
      rcases (hregular now hlast).blockedUntil with hzero | hle
      · rw [hzero]
        exact hpos
      · exact hle.trans_lt hlate
    rw [RateEntry.check_of_late hr hviolations hopen hlate]
    exact ⟨rfl, e.toNat_recount_long⟩

/-- Two checks of one destination, one second apart. -/
def twoChecks (r : AnnounceRate ℚ) : List (Check ℚ) :=
  [⟨replicate 16 0, r, 1⟩, ⟨replicate 16 0, r, 2⟩]

/-- The second announce is suppressed, the one after the deadline is accepted. -/
theorem interface_rate_limit_two :
    ∃ e, (new.checkAll (twoChecks ⟨10, 0, 5⟩)).get (replicate 16 0) = some e ∧
      e.violations = 1 ∧ (e.check ⟨10, 0, 5⟩ 17).1 = false := by
  refine ⟨⟨[1, 2], 0, 1, 1, 16⟩, by decide +kernel, rfl, ?_⟩
  have h := interface_rate_limit (replicate 16 0) ⟨10, 0, 5⟩ (by decide)
    (twoChecks ⟨10, 0, 5⟩) (e := ⟨[1, 2], 0, 1, 1, 16⟩) (by decide +kernel) (by decide +kernel)
    (by decide +kernel)
  exact ((h.2 17 (by decide +kernel)).2.2 (by decide +kernel) (by decide +kernel)).1

/-- `record` counts violations in the same entry. Where every accepted check is recorded, the
counter gets two above the grace. -/
example :
    ((([10, 11, 12, 25 / 2] : List ℚ).foldl
      (fun t now => (t.checkAndRecord (replicate 16 0) ⟨1, 0, 0⟩ now).2) new).get
        (replicate 16 0)).map RateEntry.violations = some 2 := by
  decide +kernel

/-- A negative penalty puts the deadline before the announce that set it, so that violations are
counted on. -/
theorem negative_penalty_counted :
    let checks := twoChecks ⟨10, 0, -10⟩ ++ [⟨replicate 16 0, ⟨10, 0, -10⟩, 3⟩]
    (checks.map Check.now).IsChain (· ≤ ·) ∧
      ∃ e, (new.checkAll checks).get (replicate 16 0) = some e ∧ e.violations = 2 := by
  exact ⟨by decide +kernel, ⟨[1, 2, 3], 0, 1, 2, 1⟩, by decide +kernel, rfl⟩

end RateTable

end Reticulum.Transport
