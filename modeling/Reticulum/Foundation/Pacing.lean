import Mathlib

/-!
# Pacing

A sender that may spend a share `rate` of the time waits, after something of cost `c`, for the time
`c / rate` before it sends again. However the waits come about, what is sent in an interval costs at
most the rate times the length of the interval, and once more the cost of the last thing sent.
-/

namespace Reticulum

open List

variable {K : Type*} [Field K] [LinearOrder K]

/-- Each thing sent, with its time and cost, is far enough after those before it. -/
def Paced (rate : K) (sent : List (K × K)) : Prop :=
  sent.Pairwise fun e e' => e.1 + e.2 / rate ≤ e'.1

/-- What was sent is paced, and from `allowedAt` on one may send again. -/
structure Pacing (rate : K) (sent : List (K × K)) (allowedAt : K) : Prop where
  paced : Paced rate sent
  waits : ∀ e ∈ sent, e.1 + e.2 / rate ≤ allowedAt

variable {rate now cost allowedAt allowedAt' : K} {sent : List (K × K)}

theorem Pacing.nil (rate allowedAt : K) : Pacing rate [] allowedAt := ⟨List.Pairwise.nil, nofun⟩

theorem Pacing.later (h : Pacing rate sent allowedAt) (hle : allowedAt ≤ allowedAt') :
    Pacing rate sent allowedAt' :=
  ⟨h.paced, fun e he => (h.waits e he).trans hle⟩

variable [IsStrictOrderedRing K]

/-- Sending when one may, and waiting for the cost of it. -/
theorem Pacing.send (h : Pacing rate sent allowedAt) (hnow : allowedAt ≤ now) (hrate : 0 < rate)
    (hcost : 0 ≤ cost) : Pacing rate (sent ++ [(now, cost)]) (now + cost / rate) := by
  have hwait : 0 ≤ cost / rate := div_nonneg hcost hrate.le
  refine ⟨pairwise_append.mpr ⟨h.paced, pairwise_singleton _ _, fun e he e' he' => ?_⟩,
    fun e he => ?_⟩
  · rw [mem_singleton.mp he']
    exact (h.waits e he).trans hnow
  · rcases mem_append.mp he with he | he
    · exact (h.waits e he).trans (hnow.trans (le_add_of_nonneg_right hwait))
    · rw [mem_singleton.mp he]

/-- What is sent until `last` costs at most the rate times the time since the first of it, and the
cost of the last. -/
private theorem Paced.sum_cons_le (hrate : 0 < rate) {e : K × K} {last : K}
    (h : Paced rate (e :: sent)) (hlast : ∀ e' ∈ e :: sent, e'.1 ≤ last) :
    ((e :: sent).map Prod.snd).sum ≤
      rate * (last - e.1) + ((e :: sent).getLast (cons_ne_nil _ _)).2 := by
  induction sent generalizing e with
  | nil =>
    have hspan : 0 ≤ rate * (last - e.1) :=
      mul_nonneg hrate.le (sub_nonneg.mpr (hlast e mem_cons_self))
    simpa using hspan
  | cons e' sent ih =>
    obtain ⟨he, hsent⟩ := pairwise_cons.mp h
    have hrest := ih hsent fun x hx => hlast x (mem_cons_of_mem _ hx)
    -- The wait after the first pays for it.
    have hpaid : e.2 ≤ rate * (e'.1 - e.1) := by
      have hwait := he e' mem_cons_self
      rw [mul_comm, ← div_le_iff₀ hrate]
      linarith
    rw [map_cons, sum_cons, getLast_cons (cons_ne_nil _ _)]
    linarith

/-- The cost of what is sent in an interval. -/
theorem Paced.sum_le (hrate : 0 < rate) (h : Paced rate sent) (first last : K) :
    sent.filter (fun e => first ≤ e.1 ∧ e.1 ≤ last) = [] ∨
      ∃ e ∈ sent.filter (fun e => first ≤ e.1 ∧ e.1 ≤ last),
        ((sent.filter fun e => first ≤ e.1 ∧ e.1 ≤ last).map Prod.snd).sum ≤
          rate * (last - first) + e.2 := by
  have hin : ∀ e ∈ sent.filter (fun e => first ≤ e.1 ∧ e.1 ≤ last), first ≤ e.1 ∧ e.1 ≤ last :=
    fun e he => of_decide_eq_true (mem_filter.mp he).2
  have hfilter : Paced rate (sent.filter fun e => first ≤ e.1 ∧ e.1 ≤ last) :=
    List.Pairwise.filter _ h
  cases hsent : sent.filter fun e => first ≤ e.1 ∧ e.1 ≤ last with
  | nil => exact .inl rfl
  | cons e rest =>
    rw [hsent] at hin hfilter
    refine .inr ⟨_, getLast_mem (cons_ne_nil e rest), ?_⟩
    refine (hfilter.sum_cons_le hrate fun e' he' => (hin e' he').2).trans ?_
    have hfirst : rate * (last - e.1) ≤ rate * (last - first) :=
      mul_le_mul_of_nonneg_left (sub_le_sub_left (hin e mem_cons_self).1 last) hrate.le
    exact add_le_add_left hfirst _

end Reticulum
