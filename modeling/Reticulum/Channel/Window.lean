import Reticulum.Foundation.Binary64

/-!
# The flow-control window of a channel

The window counters of `channel.rs` of the `rns-protocol` crate.
-/

namespace Reticulum

open Binary64

/-- `WINDOW_INITIAL`. -/
def windowInitial : ℕ := 2

/-- `WINDOW_MIN`. -/
def windowMin : ℕ := 2

/-- `WINDOW_MIN_LIMIT_MEDIUM`. -/
def windowMinLimitMedium : ℕ := 5

/-- `WINDOW_MIN_LIMIT_FAST`. -/
def windowMinLimitFast : ℕ := 16

/-- `WINDOW_MAX_SLOW`. -/
def windowMaxSlow : ℕ := 5

/-- `WINDOW_MAX_MEDIUM`. -/
def windowMaxMedium : ℕ := 12

/-- `WINDOW_MAX_FAST`. -/
def windowMaxFast : ℕ := 48

/-- `WINDOW_MAX`. -/
def windowMax : ℕ := windowMaxFast

/-- `FAST_RATE_THRESHOLD`. -/
def fastRateThreshold : ℕ := 10

/-- `WINDOW_FLEXIBILITY`. -/
def windowFlexibility : ℕ := 4

section Rtt

variable (F : Type) [Binary64 F]

/-- `RTT_FAST`. -/
def rttFast : F := ofRat (18 / 100)

/-- `RTT_MEDIUM`. -/
def rttMedium : F := ofRat (75 / 100)

/-- `RTT_SLOW`. -/
def rttSlow : F := ofRat (145 / 100)

/-- `RTT_MAX`. -/
def rttMax : F := ofRat 720

end Rtt

variable {F : Type} [Binary64 F]

/-- `initial_rtt`. -/
def initialRtt (rtt : F) : F :=
  if isFinite rtt && le (ofRat 0) rtt then min rtt (rttMax F)
  else ofRat 1

/-- `ChannelWindow`. -/
structure ChannelWindow where
  window : ℕ
  windowMin : ℕ
  windowMax : ℕ
  windowFlexibility : ℕ
  fastRateRounds : ℕ
  mediumRateRounds : ℕ
  deriving DecidableEq, Repr

namespace ChannelWindow

/-- `ChannelWindow::new`. -/
def new (rtt : F) : ChannelWindow :=
  if lt (rttSlow F) (initialRtt rtt) then
    { window := 1, windowMin := 1, windowMax := 1, windowFlexibility := 1
      fastRateRounds := 0, mediumRateRounds := 0 }
  else
    { window := windowInitial, windowMin := Reticulum.windowMin, windowMax := windowMaxSlow
      windowFlexibility := Reticulum.windowFlexibility
      fastRateRounds := 0, mediumRateRounds := 0 }

/-- `ChannelWindow::clamp_window`. -/
def clampWindow (w : ChannelWindow) : ChannelWindow :=
  { w with
    window := min w.window Reticulum.windowMax
    windowMin := min w.windowMin Reticulum.windowMax
    windowMax := min w.windowMax Reticulum.windowMax
    windowFlexibility := min w.windowFlexibility Reticulum.windowMax }

/-- The largest `usize`. -/
def usizeMax : ℕ := 2 ^ 64 - 1

/-- The rate counters after a round trip of `rtt`, with the ceiling they promote. -/
def countRound (w : ChannelWindow) (rtt : F) : ChannelWindow :=
  if lt (rttFast F) rtt then
    if lt (rttMedium F) rtt then { w with fastRateRounds := 0, mediumRateRounds := 0 }
    else
      let rounds := min (w.mediumRateRounds + 1) usizeMax
      if w.windowMax < windowMaxMedium ∧ rounds = fastRateThreshold then
        { w with
          fastRateRounds := 0
          mediumRateRounds := rounds
          windowMax := windowMaxMedium
          windowMin := windowMinLimitMedium }
      else { w with fastRateRounds := 0, mediumRateRounds := rounds }
  else
    let rounds := min (w.fastRateRounds + 1) usizeMax
    if w.windowMax < windowMaxFast ∧ rounds = fastRateThreshold then
      { w with
        fastRateRounds := rounds
        windowMax := windowMaxFast
        windowMin := windowMinLimitFast }
    else { w with fastRateRounds := rounds }

/-- One more slot, up to the ceiling. -/
def openSlot (w : ChannelWindow) : ChannelWindow :=
  if w.window < w.windowMax then { w with window := w.window + 1 } else w

/-- `ChannelWindow::grow`. -/
def grow (w : ChannelWindow) (rtt : F) : ChannelWindow :=
  let w := w.clampWindow
  if !isFinite rtt || lt rtt (ofRat 0) then w
  else
    let rtt := min rtt (rttMax F)
    let w := w.openSlot
    if eq rtt (ofRat 0) then w else w.countRound rtt

/-- `ChannelWindow::shrink`. -/
def shrink (w : ChannelWindow) : ChannelWindow :=
  let w := w.clampWindow
  if w.windowMin < w.window then
    let w := { w with window := w.window - 1 }
    if w.windowMin + w.windowFlexibility < w.windowMax then
      { w with windowMax := w.windowMax - 1 }
    else w
  else w

/-- Window, floor and ceiling lie between one and `WINDOW_MAX`. -/
structure Bounded (w : ChannelWindow) : Prop where
  window_le : w.window ≤ Reticulum.windowMax
  windowMin_le : w.windowMin ≤ Reticulum.windowMax
  windowMax_le : w.windowMax ≤ Reticulum.windowMax
  one_le_window : 1 ≤ w.window
  one_le_windowMin : 1 ≤ w.windowMin

/-- The window is also at most its ceiling. -/
structure InRange (w : ChannelWindow) : Prop extends w.Bounded where
  window_le_windowMax : w.window ≤ w.windowMax

theorem inRange_new (rtt : F) : (new rtt).InRange := by
  unfold new
  split_ifs <;>
    exact ⟨⟨by decide, by decide, by decide, by decide, by decide⟩, by decide⟩

variable {w : ChannelWindow} (hw : w.InRange)

include hw

/-- Clamping does not change a window within its bounds, up to its flexibility. -/
private theorem InRange.clampWindow : w.clampWindow.InRange := by
  obtain ⟨⟨h1, h2, h3, h4, h5⟩, h6⟩ := hw
  refine ⟨⟨?_, ?_, ?_, ?_, ?_⟩, ?_⟩ <;> simp only [ChannelWindow.clampWindow] <;> omega

private theorem InRange.countRound (rtt : F) : (w.countRound rtt).InRange := by
  obtain ⟨⟨h1, h2, h3, h4, h5⟩, h6⟩ := hw
  simp only [ChannelWindow.countRound]
  split_ifs with _ _ hmedium hfast
  · exact ⟨⟨h1, h2, h3, h4, h5⟩, h6⟩
  · exact ⟨⟨h1, show 5 ≤ 48 by decide, show 12 ≤ 48 by decide, h4, show 1 ≤ 5 by decide⟩,
      h6.trans hmedium.1.le⟩
  · exact ⟨⟨h1, h2, h3, h4, h5⟩, h6⟩
  · exact ⟨⟨h1, show 16 ≤ 48 by decide, show 48 ≤ 48 by decide, h4, show 1 ≤ 16 by decide⟩,
      h6.trans hfast.1.le⟩
  · exact ⟨⟨h1, h2, h3, h4, h5⟩, h6⟩

private theorem InRange.openSlot : w.openSlot.InRange := by
  unfold ChannelWindow.openSlot
  split_ifs with hlt
  · exact ⟨⟨Nat.lt_of_lt_of_le hlt hw.windowMax_le, hw.windowMin_le, hw.windowMax_le,
      Nat.le_add_left 1 _, hw.one_le_windowMin⟩, hlt⟩
  · exact hw

/-- Growing keeps the bounds. -/
theorem InRange.grow (rtt : F) : (w.grow rtt).InRange := by
  simp only [ChannelWindow.grow]
  split_ifs
  · exact hw.clampWindow
  · exact hw.clampWindow.openSlot
  · exact hw.clampWindow.openSlot.countRound _

/-- Shrinking keeps the bounds. -/
theorem InRange.shrink : w.shrink.InRange := by
  obtain ⟨⟨h1, h2, h3, h4, h5⟩, h6⟩ := hw.clampWindow
  simp only [ChannelWindow.shrink]
  split_ifs with hlt hflex
  · exact ⟨⟨(Nat.sub_le _ _).trans h1, h2, (Nat.sub_le _ _).trans h3,
      h5.trans (Nat.le_sub_one_of_lt hlt), h5⟩, Nat.sub_le_sub_right h6 1⟩
  · exact ⟨⟨(Nat.sub_le _ _).trans h1, h2, h3, h5.trans (Nat.le_sub_one_of_lt hlt), h5⟩,
      (Nat.sub_le _ _).trans h6⟩
  · exact ⟨⟨h1, h2, h3, h4, h5⟩, h6⟩

end ChannelWindow

end Reticulum
