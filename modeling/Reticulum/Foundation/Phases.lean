import Reticulum.Foundation.Run

/-!
# Logs of things that open and close

A log speaks about many things at once; an entry may open a thing, note something about it, or
close it. Read for one thing, the log is in order when the thing is opened only while it is closed,
closed only while it is open, and noted at most once in between.

## Main definitions

* `Mark`, `Phase`, `Phase.next` — what an entry says, and the automaton it drives.
* `phase` — the phase of a thing after a log, if the log is in order for it.
* `Stands` — a log that is in order, and shows a thing open exactly when it should be.

## Main results

* `Stands.append`, `Stands.opens`, `Stands.closes` — how entries change the standing of a thing.
-/

namespace Reticulum

/-- What an entry says about a thing. -/
inductive Mark
  | opened
  | noted
  | closed
  deriving DecidableEq, Repr

/-- The phases of a thing. -/
inductive Phase
  | closed
  | opened
  | noted
  deriving DecidableEq, Repr

/-- A thing alternates between open and closed, and is noted at most once while it is open. -/
def Phase.next : Phase → Mark → Option Phase
  | .closed, .opened => some .opened
  | .opened, .noted => some .noted
  | .opened, .closed => some .closed
  | .noted, .closed => some .closed
  | _, _ => none

section

variable {κ ε : Type*} {mark : κ → ε → Option Mark} {k : κ} {log log' es : List ε} {e : ε}
  {o o' : Prop}

/-- The phase of a thing after a log, if the log is in order for it. -/
def phase (mark : κ → ε → Option Mark) (k : κ) (log : List ε) : Option Phase :=
  run Phase.next .closed (log.filterMap (mark k))

theorem phase_append : phase mark k (log ++ es) =
    (phase mark k log).bind fun p => run Phase.next p (es.filterMap (mark k)) := by
  rw [phase, List.filterMap_append, run_append, phase]

/-- Entries about other things do not matter. -/
theorem phase_append_of_unmarked (h : ∀ e ∈ es, mark k e = none) :
    phase mark k (log ++ es) = phase mark k log := by
  rw [phase, List.filterMap_append, List.filterMap_eq_nil_iff.mpr h, List.append_nil, phase]

/-- The log is in order for the thing, which is open exactly when `o` holds. -/
structure Stands (mark : κ → ε → Option Mark) (k : κ) (log : List ε) (o : Prop) : Prop where
  opened : o → phase mark k log = some .opened
  closed : ¬ o → phase mark k log = some .closed

namespace Stands

section

variable (h : Stands mark k log o)

include h

theorem congr (ho : o' ↔ o)
    (hphase : phase mark k log' = phase mark k log) : Stands mark k log' o' where
  opened h' := hphase.trans (h.opened (ho.mp h'))
  closed h' := hphase.trans (h.closed fun hn => h' (ho.mpr hn))

theorem exists_phase : ∃ p, phase mark k log = some p := by
  by_cases ho : o
  · exact ⟨_, h.opened ho⟩
  · exact ⟨_, h.closed ho⟩

theorem iff_opened : o ↔ phase mark k log = some .opened := by
  refine ⟨h.opened, fun hopened => ?_⟩
  by_contra ho
  rw [h.closed ho] at hopened
  cases hopened

/-- The standing of a thing that the new entries do not speak about. -/
theorem append (ho : o' ↔ o) (hes : ∀ e ∈ es, mark k e = none) : Stands mark k (log ++ es) o' :=
  h.congr ho (phase_append_of_unmarked hes)

/-- Opening a closed thing. -/
theorem opens (ho : ¬ o) (ho' : o') (he : mark k e = some .opened) :
    Stands mark k (log ++ [e]) o' := by
  refine ⟨fun _ => ?_, fun hn => absurd ho' hn⟩
  rw [phase_append, h.closed ho]
  simp [he, Phase.next, run]

/-- Closing an open thing. -/
theorem closes (ho : o) (ho' : ¬ o') (he : mark k e = some .closed) :
    Stands mark k (log ++ [e]) o' := by
  refine ⟨fun hn => absurd hn ho', fun _ => ?_⟩
  rw [phase_append, h.opened ho]
  simp [he, Phase.next, run]

/-- Noting something about an open thing that is closed next. -/
theorem noted_closes {note : ε} (ho : o) (ho' : ¬ o') (hnote : mark k note = some .noted)
    (he : mark k e = some .closed) : Stands mark k (log ++ [note, e]) o' := by
  refine ⟨fun hn => absurd hn ho', fun _ => ?_⟩
  rw [phase_append, h.opened ho]
  simp [hnote, he, Phase.next, run]

end

end Stands

end

end Reticulum
