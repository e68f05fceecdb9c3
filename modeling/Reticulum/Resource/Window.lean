import Reticulum.Resource.Basic

/-!
# The request window of a resource transfer

`WindowState` of `resource.rs`: how many parts a receiver requests at once. The window grows with
every completed round up to a ceiling that depends on the measured rate, and shrinks after a
timeout.
-/

namespace Reticulum.Resource

/-- `WindowState`. -/
structure WindowState where
  window : ℕ
  windowMin : ℕ
  windowMax : ℕ
  fastRateRounds : ℕ
  verySlowRateRounds : ℕ
  deriving DecidableEq, Repr

namespace WindowState

/-- `WindowState::new`. -/
def new : WindowState := ⟨windowInitial, Resource.windowMin, windowMaxSlow, 0, 0⟩

/-- One more part at a time, with the minimum following the window. -/
def widen (w : WindowState) : WindowState :=
  if w.window < w.windowMax then
    { w with
      window := w.window + 1
      windowMin := if windowFlexibility - 1 < w.window + 1 - w.windowMin then w.windowMin + 1
        else w.windowMin }
  else w

/-- `WindowState::grow`. -/
def grow (w : WindowState) (rate : ℕ) : WindowState :=
  let w := w.widen
  if rateFast < rate then
    { w with
      fastRateRounds := w.fastRateRounds + 1
      verySlowRateRounds := 0
      windowMax := if fastRateThreshold ≤ w.fastRateRounds + 1 then windowMaxFast
        else w.windowMax }
  else if rate < rateVerySlow then
    let w := { w with verySlowRateRounds := w.verySlowRateRounds + 1, fastRateRounds := 0 }
    if verySlowRateThreshold ≤ w.verySlowRateRounds then
      { w with windowMax := windowMaxVerySlow, window := min w.window windowMaxVerySlow }
    else w
  else { w with fastRateRounds := 0, verySlowRateRounds := 0 }

/-- `WindowState::shrink`. -/
def shrink (w : WindowState) : WindowState :=
  let w := if w.windowMin < w.window then { w with window := w.window - 1 } else w
  let w := if w.windowMin < w.windowMax then { w with windowMax := w.windowMax - 1 } else w
  if windowFlexibility - 1 < w.windowMax - w.window then { w with windowMax := w.windowMax - 1 }
  else w

/-- The window is at most `WINDOW_MAX` and can grow only up to it. -/
structure Bounded (w : WindowState) : Prop where
  window : w.window ≤ Resource.windowMax
  windowMax : w.windowMax ≤ Resource.windowMax

theorem bounded_new : new.Bounded := ⟨by decide, by decide⟩

variable {w : WindowState}

theorem Bounded.widen (h : w.Bounded) : w.widen.Bounded := by
  by_cases hlt : w.window < w.windowMax
  · rw [WindowState.widen, if_pos hlt]
    exact ⟨hlt.trans_le h.windowMax, h.windowMax⟩
  · rwa [WindowState.widen, if_neg hlt]

theorem Bounded.grow (h : w.Bounded) (rate : ℕ) : (w.grow rate).Bounded := by
  have hw := h.widen
  simp only [WindowState.grow]
  split_ifs
  · exact ⟨hw.window, le_rfl⟩
  · exact ⟨hw.window, hw.windowMax⟩
  · exact ⟨(min_le_left _ _).trans hw.window, show 4 ≤ 75 by decide⟩
  · exact ⟨hw.window, hw.windowMax⟩
  · exact ⟨hw.window, hw.windowMax⟩

/-- What shrinking does to window and ceiling. -/
theorem shrink_eq (w : WindowState) :
    w.shrink =
      let window := if w.windowMin < w.window then w.window - 1 else w.window
      let windowMax := if w.windowMin < w.windowMax then w.windowMax - 1 else w.windowMax
      { w with
        window
        windowMax := if windowFlexibility - 1 < windowMax - window then windowMax - 1
          else windowMax } := by
  unfold shrink
  split <;> dsimp only <;> split <;> split_ifs <;> rfl

theorem Bounded.shrink (h : w.Bounded) : w.shrink.Bounded := by
  obtain ⟨hwindow, hmax⟩ := h
  rw [shrink_eq]
  constructor <;> dsimp only <;> split_ifs <;> omega

/-! ### Runs -/

/-- One is subtracted on a condition, and the result is none where that underflows. -/
def decrementIf (c : Prop) [Decidable c] (a : ℕ) : Option ℕ := if c then a.psub 1 else some a

/-- `WindowState::shrink`, with checked subtractions. -/
def checkedShrink (w : WindowState) : Option WindowState := do
  let window ← decrementIf (w.windowMin < w.window) w.window
  let windowMax ← decrementIf (w.windowMin < w.windowMax) w.windowMax
  let windowMax ← decrementIf (windowFlexibility - 1 < windowMax - window) windowMax
  some { w with window, windowMax }

theorem decrementIf_eq {c : Prop} [Decidable c] {a : ℕ} (h : c → 1 ≤ a) :
    decrementIf c a = some (if c then a - 1 else a) := by
  unfold decrementIf
  split_ifs with hc
  · exact Nat.psub_eq_sub (h hc)
  · rfl

/-- Every subtraction stands behind a comparison. -/
theorem checkedShrink_eq (w : WindowState) : w.checkedShrink = some w.shrink := by
  rw [checkedShrink, shrink_eq, decrementIf_eq (by omega), decrementIf_eq (by omega)]
  simp only [Option.bind_eq_bind, Option.bind_some]
  rw [decrementIf_eq (by omega)]
  rfl

/-- The window lies between two and its ceiling. -/
structure InRange (w : WindowState) : Prop extends w.Bounded where
  two_le_windowMin : 2 ≤ w.windowMin
  two_le_window : 2 ≤ w.window
  window_le : w.window ≤ w.windowMax

theorem InRange.grow (h : w.InRange) (rate : ℕ) : (w.grow rate).InRange := by
  obtain ⟨hb, hmin, hwindow, hle⟩ : w.widen.InRange := by
    obtain ⟨hb, hmin, hwindow, hle⟩ := h
    refine ⟨hb.widen, ?_, ?_, ?_⟩ <;> unfold WindowState.widen <;> split_ifs <;>
      first | omega | (dsimp only; omega)
  have hgrown := h.toBounded.grow rate
  simp only [WindowState.grow] at hgrown ⊢
  split_ifs at hgrown ⊢
  · exact ⟨hgrown, hmin, hwindow, hb.window⟩
  · exact ⟨hgrown, hmin, hwindow, hle⟩
  · exact ⟨hgrown, hmin, le_min hwindow (by decide), min_le_right _ _⟩
  · exact ⟨hgrown, hmin, hwindow, hle⟩
  · exact ⟨hgrown, hmin, hwindow, hle⟩

theorem InRange.shrink (h : w.InRange) : w.shrink.InRange := by
  obtain ⟨hb, hmin, hwindow, hle⟩ := h
  have hbounded := hb.shrink
  rw [shrink_eq] at hbounded ⊢
  refine ⟨hbounded, hmin, ?_, ?_⟩ <;> dsimp only <;> split_ifs <;> omega

/-- A call of `grow` with a measured rate, or of `shrink`. -/
inductive WindowCall
  | grow (rate : ℕ)
  | shrink

/-- The window after a call. -/
def call (w : WindowState) : WindowCall → WindowState
  | .grow rate => w.grow rate
  | .shrink => w.shrink

/-- After any calls the window is at least two and at most its ceiling, which is at most 75, and no
subtraction of the next call underflows: `grow` subtracts with saturation only. -/
theorem window_in_range (calls : List WindowCall) :
    let w := calls.foldl call new
    2 ≤ w.window ∧ w.window ≤ w.windowMax ∧ w.windowMax ≤ 75 ∧ w.checkedShrink = some w.shrink := by
  have h : (calls.foldl call new).InRange := by
    refine List.foldlRecOn calls call ⟨bounded_new, by decide, by decide, by decide⟩ fun w hw c _ => ?_
    cases c with
    | grow rate => exact hw.grow rate
    | shrink => exact hw.shrink
  exact ⟨h.two_le_window, h.window_le, h.windowMax, checkedShrink_eq _⟩

end WindowState

end Reticulum.Resource
