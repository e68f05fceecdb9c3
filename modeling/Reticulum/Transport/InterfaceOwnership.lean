import Reticulum.Foundation.Run

/-!
# Owners of an interface

The producers of an interface hold owners, which share the cells of one registration. An owner is
current while the registration is not retired and has the owner's revision. An operation of an owner
is a sequence of atomic loads and updates of the cells: another owner, or a clone of this one, may
act between looking whether the owner is current and acting on the answer.

## Main definitions

* `RegistrationState` — the shared cells.
* `Ownership.step` — an atomic step of one of the operations in progress.

## Main results

* `Ownership.step_later` — what a step does to the cells.
* `Ownership.currency_linear` — the current and the registered revision, in every interleaving.
-/

namespace Reticulum.Transport

/-- The value of the registered revision that stands for none. -/
def neverRegistered : ℕ := 2 ^ 64 - 1

/-- The cells that the owners of an interface share. -/
structure RegistrationState where
  retired : Bool := false
  revision : ℕ := 0
  registeredRevision : ℕ := neverRegistered

/-- The operations of an owner that look whether it is current. -/
inductive OwnerOperation
  | nextRevision
  | markRegistered
  | isRegistered

/-- Where an operation stands: before one of the two loads of `is_current`, or after both. -/
inductive OwnerStage
  | loadRetired
  | loadRevision
  | act

/-- An operation in progress on an owner of the given revision. -/
structure OwnerCall where
  operation : OwnerOperation
  revision : ℕ
  stage : OwnerStage := .loadRetired

/-- The cells, the revisions of which there are owners, the operations in progress, and a log of
the revisions that were acknowledged and of those that reported themselves registered. -/
structure Ownership where
  validity : RegistrationState := {}
  owners : List ℕ := [0]
  calls : List OwnerCall := []
  acknowledged : List ℕ := []
  reported : List ℕ := []

/-- What happens next: a clone of some owner begins an operation, an operation in progress takes its
next atomic step, or an owner is retired. -/
inductive OwnerEvent
  | call (operation : OwnerOperation) (revision : ℕ)
  | advance (i : ℕ)
  | retire

namespace Ownership

/-- The revision is the current one. -/
def IsCurrent (s : Ownership) (revision : ℕ) : Prop :=
  s.validity.retired = false ∧ s.validity.revision = revision

/-- What an operation does once its owner was seen to be current. -/
def act (s : Ownership) (revision : ℕ) : OwnerOperation → Ownership
  | .nextRevision =>
    -- the compare and exchange fails when another owner was faster
    if revision + 1 < 2 ^ 64 ∧ s.validity.revision = revision then
      { s with validity.revision := revision + 1, owners := (revision + 1) :: s.owners }
    else s
  | .markRegistered =>
    let s : Ownership :=
      if s.validity.registeredRevision = neverRegistered ∨
          s.validity.registeredRevision < revision then
        { s with
          validity.registeredRevision := revision
          acknowledged := revision :: s.acknowledged }
      else s
    { s with calls := { operation := .isRegistered, revision } :: s.calls }
  | .isRegistered =>
    if s.validity.registeredRevision = revision then
      { s with reported := revision :: s.reported }
    else s

/-- The next atomic step of an operation. -/
def advance (s : Ownership) (c : OwnerCall) : Ownership :=
  match c.stage with
  | .loadRetired =>
    if s.validity.retired then s
    else { s with calls := { c with stage := .loadRevision } :: s.calls }
  | .loadRevision =>
    if s.validity.revision = c.revision then
      { s with calls := { c with stage := .act } :: s.calls }
    else s
  | .act => s.act c.revision c.operation

/-- The state after an event, if it can happen. -/
def step (s : Ownership) : OwnerEvent → Option Ownership
  | .call operation revision =>
    if revision ∈ s.owners then
      some { s with calls := { operation, revision } :: s.calls }
    else none
  | .advance i => s.calls[i]?.map fun c => { s with calls := s.calls.eraseIdx i }.advance c
  | .retire => some { s with validity.retired := true }

/-- Every revision in use is at most the shared one; what is registered was acknowledged, and what
was reported, too, as long as no revision is taken for none. -/
structure Sound (s : Ownership) : Prop where
  owners : ∀ r ∈ s.owners, r ≤ s.validity.revision
  calls : ∀ c ∈ s.calls, c.revision ≤ s.validity.revision
  registered : s.validity.registeredRevision = neverRegistered ∨
    s.validity.registeredRevision ∈ s.acknowledged
  reported : s.validity.revision < neverRegistered → ∀ r ∈ s.reported, r ∈ s.acknowledged

/-- What steps do to the registration: it stays retired, its revision grows, and so does the
registered one, once there is one. -/
structure Later (s s' : Ownership) : Prop where
  retired : s.validity.retired = true → s'.validity.retired = true
  revision : s.validity.revision ≤ s'.validity.revision
  registered : s'.validity.revision < neverRegistered →
    s.validity.registeredRevision ≠ neverRegistered →
      s.validity.registeredRevision ≤ s'.validity.registeredRevision ∧
        s'.validity.registeredRevision ≠ neverRegistered

variable {s s' s'' : Ownership}

theorem Later.refl (s : Ownership) : Later s s := ⟨id, le_rfl, fun _ h => ⟨le_rfl, h⟩⟩

theorem Later.trans (h : Later s s') (h' : Later s' s'') : Later s s'' where
  retired := h'.retired ∘ h.retired
  revision := h.revision.trans h'.revision
  registered hbound hne := by
    obtain ⟨hle, hne'⟩ := h.registered (h'.revision.trans_lt hbound) hne
    obtain ⟨hle', hne''⟩ := h'.registered hbound hne'
    exact ⟨hle.trans hle', hne''⟩

theorem Sound.call (h : s.Sound) {c : OwnerCall} (hc : c.revision ≤ s.validity.revision) :
    Sound { s with calls := c :: s.calls } :=
  { h with calls := List.forall_mem_cons.mpr ⟨hc, h.calls⟩ }

theorem act_later (h : s.Sound) {r : ℕ} (hr : r ≤ s.validity.revision)
    (operation : OwnerOperation) : (s.act r operation).Sound ∧ Later s (s.act r operation) := by
  cases operation with
  | nextRevision =>
    rw [act]
    split_ifs with hfirst
    · obtain ⟨-, rfl⟩ := hfirst
      have hle : s.validity.revision ≤ s.validity.revision + 1 := Nat.le_succ _
      refine ⟨⟨List.forall_mem_cons.mpr ⟨le_rfl, fun r hr => (h.owners r hr).trans hle⟩,
        fun c hc => (h.calls c hc).trans hle, h.registered,
        fun hbound => h.reported (hle.trans_lt hbound)⟩, id, hle, fun _ hne => ⟨le_rfl, hne⟩⟩
    · exact ⟨h, .refl s⟩
  | markRegistered =>
    rw [act]
    split_ifs with hnew
    · refine ⟨⟨h.owners, List.forall_mem_cons.mpr ⟨hr, h.calls⟩, .inr List.mem_cons_self,
        fun hbound r hmem => List.mem_cons_of_mem _ (h.reported hbound r hmem)⟩, id, le_rfl,
        fun hbound hne => ⟨(hnew.resolve_left hne).le, (hr.trans_lt hbound).ne⟩⟩
    · exact ⟨h.call hr, { Later.refl s with }⟩
  | isRegistered =>
    rw [act]
    split_ifs with hregistered
    · obtain rfl := hregistered
      refine ⟨{ h with reported := fun hbound => ?_ }, { Later.refl s with }⟩
      exact List.forall_mem_cons.mpr
        ⟨h.registered.resolve_left (hr.trans_lt hbound).ne, h.reported hbound⟩
    · exact ⟨h, .refl s⟩

/-- What a step does. -/
theorem step_later (h : s.Sound) {e : OwnerEvent} (hstep : s.step e = some s') :
    s'.Sound ∧ Later s s' := by
  cases e with
  | call operation revision =>
    rw [step, Option.ite_none_right_eq_some] at hstep
    obtain ⟨howner, hstep⟩ := hstep
    obtain rfl := Option.some.inj hstep
    exact ⟨h.call (h.owners _ howner), { Later.refl s with }⟩
  | retire =>
    obtain rfl := Option.some.inj hstep
    exact ⟨{ h with }, { Later.refl s with retired := fun _ => rfl }⟩
  | advance i =>
    obtain ⟨c, hc, rfl⟩ := Option.map_eq_some_iff.mp hstep
    have hrevision := h.calls c (List.mem_of_getElem? hc)
    have h' : Sound { s with calls := s.calls.eraseIdx i } :=
      { h with calls := fun c hc => h.calls c (List.mem_of_mem_eraseIdx hc) }
    have hlater : Later s { s with calls := s.calls.eraseIdx i } := { Later.refl s with }
    unfold advance
    split
    · split_ifs
      · exact ⟨h', hlater⟩
      · exact ⟨h'.call hrevision, { hlater with }⟩
    · split_ifs
      · exact ⟨h'.call hrevision, { hlater with }⟩
      · exact ⟨h', hlater⟩
    · obtain ⟨hs, hacts⟩ := act_later h' hrevision c.operation
      exact ⟨hs, hlater.trans hacts⟩

theorem run_later (h : s.Sound) {es : List OwnerEvent} (hrun : run step s es = some s') :
    s'.Sound ∧ Later s s' := by
  refine run_invariant (I := fun t => t.Sound ∧ Later s t) ?_ ⟨h, .refl s⟩ hrun
  rintro t e t' ⟨ht, hlater⟩ hstep
  obtain ⟨ht', hlater'⟩ := step_later ht hstep
  exact ⟨ht', hlater.trans hlater'⟩

/-- **The current revision.** However the atomic steps of the operations of any owners and clones
interleave, as long as no revision is taken for none: one revision is current at most, one that
stopped being current is not current again, the registered revision never decreases, and an owner
reports itself registered only after its own revision was acknowledged. -/
theorem currency_linear {before between after : List OwnerEvent} {s s' s'' : Ownership}
    (h : run step {} before = some s) (h' : run step s between = some s')
    (h'' : run step s' after = some s'') (hbound : s''.validity.revision < neverRegistered) :
    (∀ r r', s.IsCurrent r → s.IsCurrent r' → r = r') ∧
    (∀ r, s.IsCurrent r → ¬ s'.IsCurrent r → ¬ s''.IsCurrent r) ∧
    (s.validity.registeredRevision ≠ neverRegistered →
      s.validity.registeredRevision ≤ s'.validity.registeredRevision ∧
        s'.validity.registeredRevision ≠ neverRegistered) ∧
    ∀ r ∈ s.reported, r ∈ s.acknowledged := by
  have hnew : Sound {} := ⟨by simp, by simp, .inl rfl, by simp⟩
  obtain ⟨hs, -⟩ := run_later hnew h
  obtain ⟨hs', hlater⟩ := run_later hs h'
  obtain ⟨-, hlater'⟩ := run_later hs' h''
  have hbound' := hlater'.revision.trans_lt hbound
  refine ⟨fun r r' hr hr' => hr.2.symm.trans hr'.2, ?_, hlater.registered hbound',
    hs.reported (hlater.revision.trans_lt hbound')⟩
  rintro r ⟨-, rfl⟩ hstopped ⟨hretired, hrevision⟩
  refine hstopped ⟨?_, le_antisymm (hrevision ▸ hlater'.revision) hlater.revision⟩
  exact Bool.eq_false_iff.mpr fun hr => by simp [hlater'.retired hr] at hretired

/-- The owner of a second revision is registered. -/
theorem currency_linear_second : ∃ s : Ownership,
    s.IsCurrent 1 ∧ s.reported = [1] ∧ ∀ r ∈ s.reported, r ∈ s.acknowledged := by
  have hrun : run step {} (.call .nextRevision 0 :: .advance 0 :: .advance 0 :: .advance 0 ::
      .call .markRegistered 1 :: List.replicate 6 (.advance 0)) =
    some ⟨⟨false, 1, 1⟩, [1, 0], [], [1], [1]⟩ := rfl
  have hlinear := currency_linear hrun run_nil run_nil (by decide +kernel)
  exact ⟨_, ⟨rfl, rfl⟩, rfl, hlinear.2.2.2⟩

end Ownership

end Reticulum.Transport
