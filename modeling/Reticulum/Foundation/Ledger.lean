import Mathlib

/-!
# Exactly-once accounts

Tokens are opened, wait, and are closed. The account of them is exact when everything opened either
waits or has been closed, and nothing more than once. The lists are those of a system under
verification: what its tables still hold, and what its log shows.

## Main definitions

* `Accounted` — an exact account.

## Main results

* `Accounted.start`, `Accounted.finish` — opening and closing a token keep an account exact.
* `Accounted.count_le_one` — a token is closed at most once.
-/

namespace Reticulum

open List

variable {α : Type*} {opened pending pending' closed : List α} {a : α}

/-- What was opened waits or has been closed, and nothing more than once. -/
structure Accounted (opened pending closed : List α) : Prop where
  nodup : opened.Nodup
  perm : (pending ++ closed).Perm opened

namespace Accounted

theorem nil : Accounted ([] : List α) [] [] := ⟨nodup_nil, .refl _⟩

section

variable (h : Accounted opened pending closed)

include h

/-- The order in which tokens wait does not matter. -/
theorem of_perm (hp : pending'.Perm pending) : Accounted opened pending' closed :=
  ⟨h.nodup, (hp.append_right closed).trans h.perm⟩

/-- Opening a new token. -/
theorem start (ha : a ∉ opened) : Accounted (opened ++ [a]) (a :: pending) closed where
  nodup := nodup_append.mpr ⟨h.nodup, nodup_singleton a, by
    rintro b hb c hc rfl
    exact ha (mem_singleton.mp hc ▸ hb)⟩
  perm := (h.perm.cons a).trans (perm_append_singleton a opened).symm

/-- Closing a token that waits. -/
theorem finish (hp : pending.Perm (a :: pending')) : Accounted opened pending' (closed ++ [a]) where
  nodup := h.nodup
  perm := by
    have hmove : (pending' ++ (closed ++ [a])).Perm (a :: (pending' ++ closed)) := by
      rw [← append_assoc]
      exact perm_append_singleton a _
    exact hmove.trans ((hp.append_right closed).symm.trans h.perm)

theorem nodup_closed : closed.Nodup :=
  (nodup_append.mp (h.perm.nodup_iff.mpr h.nodup)).2.1

theorem notMem_closed (ha : a ∈ pending) : a ∉ closed :=
  fun hc => (nodup_append.mp (h.perm.nodup_iff.mpr h.nodup)).2.2 a ha a hc rfl

end

variable [DecidableEq α]

theorem count_le_one (h : Accounted opened pending closed) (a : α) : closed.count a ≤ 1 :=
  nodup_iff_count_le_one.mp h.nodup_closed a

end Accounted

end Reticulum
