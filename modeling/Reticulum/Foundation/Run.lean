import Mathlib

/-!
# Runs of a partial step function

A machine is a function `step : σ → ε → Option σ`; an event that is not enabled in a state has no
successor. A run folds the step function over a list of events.

## Main definitions

* `run` — the state after a list of events.
* `Along` — every step of a run meets a condition on the state it starts from and its event.

## Main results

* `run_invariant` — what every step keeps, every run keeps.
* `run_invariant_along`, `foldl_invariant_along` — the same for steps that meet a condition.
* `foldl_state_eq_iff` — which sequences of calls keep an absorbing state.
* `forall_prefix_iff` — when a property holds after every call, from when one call keeps it.
-/

namespace Reticulum

variable {σ ε : Type*} {step : σ → ε → Option σ} {s s' s'' : σ} {e : ε} {es fs : List ε}

/-- The state after a list of events, if each of them was enabled. -/
def run (step : σ → ε → Option σ) (s : σ) (es : List ε) : Option σ :=
  es.foldlM step s

@[simp] theorem run_nil : run step s [] = some s := rfl

theorem run_cons : run step s (e :: es) = (step s e).bind fun s' => run step s' es := rfl

theorem run_cons_eq_some :
    run step s (e :: es) = some s'' ↔ ∃ s', step s e = some s' ∧ run step s' es = some s'' := by
  rw [run_cons, Option.bind_eq_some_iff]

theorem run_append : run step s (es ++ fs) = (run step s es).bind fun s' => run step s' fs :=
  List.foldlM_append

variable {I : σ → Prop}

/-- What every step keeps, every run keeps. -/
theorem run_invariant (hstep : ∀ s e s', I s → step s e = some s' → I s') (hI : I s)
    (hrun : run step s es = some s') : I s' := by
  induction es generalizing s with
  | nil => exact Option.some.inj hrun ▸ hI
  | cons e es ih =>
    obtain ⟨t, hst, hrun⟩ := run_cons_eq_some.mp hrun
    exact ih (hstep s e t hI hst) hrun

/-- Every step of the run from `s` on `es` meets `C`. -/
def Along (step : σ → ε → Option σ) (C : σ → ε → Prop) : σ → List ε → Prop
  | _, [] => True
  | s, e :: es => C s e ∧ ∀ s', step s e = some s' → Along step C s' es

instance decidableAlong {C : σ → ε → Prop} [∀ s e, Decidable (C s e)] :
    ∀ s es, Decidable (Along step C s es)
  | _, [] => isTrue trivial
  | s, e :: es =>
    match h : step s e with
    | none => decidable_of_iff (C s e) (by simp [Along, h])
    | some s' =>
      have : Decidable (Along step C s' es) := decidableAlong s' es
      decidable_of_iff (C s e ∧ Along step C s' es) (by simp [Along, h])

variable {C : σ → ε → Prop}

/-- What every step that meets `C` keeps, every run of such steps keeps. -/
theorem run_invariant_along (hstep : ∀ s e s', I s → C s e → step s e = some s' → I s') (hI : I s)
    (hC : Along step C s es) (hrun : run step s es = some s') : I s' := by
  induction es generalizing s with
  | nil => exact Option.some.inj hrun ▸ hI
  | cons e es ih =>
    obtain ⟨t, hst, hrun⟩ := run_cons_eq_some.mp hrun
    exact ih (hstep s e t hI hC.1 hst) (hC.2 t hst) hrun

/-- The same for a step function that is total. -/
theorem foldl_invariant_along {f : σ → ε → σ} (hstep : ∀ s e, I s → C s e → I (f s e)) (hI : I s)
    (hC : Along (fun s e => some (f s e)) C s es) : I (es.foldl f s) := by
  induction es generalizing s with
  | nil => exact hI
  | cons e es ih => exact ih (hstep s e hI hC.1) (hC.2 _ rfl)

/-! ### Absorbing states -/

section Absorbing

variable {κ ρ : Type*} {call : σ → κ → σ} (state : σ → ρ) (terminal : ρ → Prop) (reset : κ → Prop)
  {sink : ρ}

/-- When calls other than resets keep terminal states, and resets lead to the sink, a sequence of
calls keeps a terminal state exactly when that is the sink or no call is a reset. -/
theorem foldl_state_eq_iff (hsink : terminal sink)
    (hkeep : ∀ s c, terminal (state s) → ¬ reset c → state (call s c) = state s)
    (hreset : ∀ s c, reset c → state (call s c) = sink) {s : σ} (hs : terminal (state s))
    (calls : List κ) :
    state (calls.foldl call s) = state s ↔ state s = sink ∨ ∀ c ∈ calls, ¬ reset c := by
  induction calls generalizing s with
  | nil => simp
  | cons c calls ih =>
    rw [List.foldl_cons, List.forall_mem_cons]
    by_cases hc : reset c
    · have hcall := hreset s c hc
      have hstay := (ih (s := call s c) (hcall ▸ hsink)).mpr (.inl hcall)
      rw [hstay, hcall]
      exact ⟨fun h => .inl h.symm, fun h => h.elim Eq.symm fun h => absurd hc h.1⟩
    · have hcall := hkeep s c hs hc
      rw [← hcall, ih (hcall ▸ hs)]
      simp [hc]

end Absorbing

/-! ### Every state of a sequence of calls -/

/-- When a call from a state with `I` leads to a state with `I`, in a way that meets `G`, exactly
under the condition `C`, then so does a sequence of calls exactly when each of them meets `C`. -/
theorem forall_prefix_iff {κ : Type*} {f : σ → κ → σ} {G C : σ → κ → Prop}
    (hstep : ∀ s c, I s → (I (f s c) ∧ G s c ↔ C s c)) (hs : I s) (calls : List κ) :
    ((∀ done, done <+: calls → I (done.foldl f s)) ∧
        ∀ done c, done ++ [c] <+: calls → G (done.foldl f s) c) ↔
      ∀ done c, done ++ [c] <+: calls → C (done.foldl f s) c := by
  constructor
  · rintro ⟨hI, hG⟩ done c hdone
    refine (hstep _ c (hI done ((List.prefix_append _ _).trans hdone))).mp ⟨?_, hG done c hdone⟩
    simpa using hI _ hdone
  · intro hC
    have hI : ∀ done, done <+: calls → I (done.foldl f s) := by
      intro done
      induction done using List.reverseRecOn with
      | nil => exact fun _ => hs
      | append_singleton done c ih =>
        intro hdone
        rw [List.foldl_append]
        exact ((hstep _ c (ih ((List.prefix_append _ _).trans hdone))).mpr (hC done c hdone)).1
    exact ⟨hI, fun done c hdone =>
      ((hstep _ c (hI done ((List.prefix_append _ _).trans hdone))).mpr (hC done c hdone)).2⟩

end Reticulum
