import Mathlib

/-!
# Lists

Facts about positions in lists that the standard library states with a proof of the bound, the least
element of a list, and cutting a list into pieces of one length.
-/

namespace Reticulum

open List

variable {α : Type*} {l l' : List α} {i : ℕ} {a : α}

/-- Writing an entry back changes nothing. -/
theorem set_of_getElem? (h : l[i]? = some a) : l.set i a = l := by
  obtain ⟨hlt, rfl⟩ := List.getElem?_eq_some_iff.mp h
  exact set_getElem_self hlt

/-- An extension keeps the entries. -/
theorem getElem?_of_prefix (hl : l <+: l') (h : l[i]? = some a) : l'[i]? = some a := by
  obtain ⟨t, rfl⟩ := hl
  rw [List.getElem?_append_left (List.getElem?_eq_some_iff.mp h).1, h]

/-- A new key inserted before the first larger one keeps a list of keys ascending. -/
theorem pairwise_insertIdx_findIdx {f : α → ℕ} (hl : (l.map f).Pairwise (· < ·))
    (ha : f a ∉ l.map f) :
    ((l.insertIdx (l.findIdx fun b => f a < f b) a).map f).Pairwise (· < ·) := by
  induction l with
  | nil => simp
  | cons b l ih =>
    rw [map_cons, mem_cons, not_or] at ha
    rw [map_cons, pairwise_cons] at hl
    by_cases hlt : f a < f b
    · have hbelow : ∀ k ∈ (b :: l).map f, f a < k := by
        rintro k hk
        rcases mem_cons.mp hk with rfl | hk
        · exact hlt
        · exact Nat.lt_trans hlt (hl.1 k hk)
      rw [findIdx_cons, decide_eq_true hlt]
      exact pairwise_cons.mpr ⟨hbelow, pairwise_cons.mpr hl⟩
    · have hgt : f b < f a := by
        have := ha.1
        omega
      rw [findIdx_cons, decide_eq_false hlt]
      simp only [cond_false, insertIdx_succ_cons, map_cons]
      refine pairwise_cons.mpr ⟨fun k hk => ?_, ih hl.2 ha.2⟩
      obtain ⟨x, hx, rfl⟩ := mem_map.mp hk
      rcases (mem_insertIdx findIdx_le_length).mp hx with rfl | hx
      · exact hgt
      · exact hl.1 _ (mem_map_of_mem hx)

/-! ### The least element -/

section

variable {r : α → α → Bool} {step : Option α → α → Option α} {best : Option α}

/-- What the loop of `Iterator::min_by` ends with is in the list. -/
theorem mem_of_foldl_least (hnone : ∀ a, step none a = some a)
    (hsome : ∀ b a, step (some b) a = if r a b then some a else some b)
    (h : l.foldl step best = some a) : best = some a ∨ a ∈ l := by
  induction l generalizing best with
  | nil => exact .inl h
  | cons e l ih =>
    rcases ih h with h | h
    · cases best with
      | none => exact .inr (Option.some.inj ((hnone e).symm.trans h) ▸ mem_cons_self)
      | some least =>
        rw [hsome] at h
        split at h
        · exact .inr (Option.some.inj h ▸ mem_cons_self)
        · exact .inl h
    · exact .inr (mem_cons_of_mem _ h)

/-- The loop of `Iterator::min_by`, which keeps the least element so far, ends with one that none is
less than. -/
theorem foldl_least (hirrefl : ∀ a, r a a = false) (htrans : ∀ a b c, r a b → r b c → r a c)
    (hnone : ∀ a, step none a = some a)
    (hsome : ∀ b a, step (some b) a = if r a b then some a else some b)
    (h : l.foldl step best = some a) :
    (∀ b, best = some b → a = b ∨ r a b) ∧ ∀ b ∈ l, r b a = false := by
  -- The least so far is only ever replaced by a lesser one, hence the disjunction.
  have hnot : ∀ b, a = b ∨ r a b → r b a = false := by
    rintro b (rfl | hab)
    · exact hirrefl a
    · exact Bool.eq_false_iff.mpr fun hba =>
        Bool.false_ne_true ((hirrefl a).symm.trans (htrans a b a hab hba))
  induction l generalizing best with
  | nil => exact ⟨fun b hb => .inl (Option.some.inj (h.symm.trans hb)), nofun⟩
  | cons e l ih =>
    obtain ⟨hbest, hl⟩ := ih h
    cases best with
    | none => exact ⟨nofun, forall_mem_cons.mpr ⟨hnot e (hbest e (hnone e)), hl⟩⟩
    | some least =>
      rw [hsome] at hbest
      simp only [Option.some.injEq, forall_eq']
      cases he : r e least with
      | true =>
        have hae := hbest e (if_pos he)
        refine ⟨.inr ?_, forall_mem_cons.mpr ⟨hnot e hae, hl⟩⟩
        rcases hae with rfl | hae
        · exact he
        · exact htrans a e least hae he
      | false =>
        have hal := hbest least (if_neg (Bool.eq_false_iff.mp he))
        refine ⟨hal, forall_mem_cons.mpr ⟨?_, hl⟩⟩
        rcases hal with rfl | hal
        · exact he
        · exact Bool.eq_false_iff.mpr fun hea =>
            Bool.false_ne_true (he.symm.trans (htrans e a least hea hal))

end

/-! ### Pieces of one length -/

/-- At most `fuel` pieces of length `n` from the front of a list. -/
def chunksFrom : ℕ → ℕ → List α → List (List α)
  | 0, _, _ => []
  | _ + 1, _, [] => []
  | fuel + 1, n, a :: l => (a :: l).take n :: chunksFrom fuel n ((a :: l).drop n)

/-- The list in pieces of length `n`, the last one possibly shorter: `slice::chunks`. -/
def chunks (n : ℕ) (l : List α) : List (List α) := chunksFrom l.length n l

/-- The pieces do not depend on how much fuel there is beyond what is needed. -/
theorem chunksFrom_of_le {fuel n : ℕ} (hn : 0 < n) (hl : l.length ≤ fuel) :
    chunksFrom fuel n l = chunks n l := by
  have hstep (fuel : ℕ) : ∀ l : List α, l.length ≤ fuel →
      chunksFrom (fuel + 1) n l = chunksFrom fuel n l := by
    induction fuel with
    | zero =>
      intro l hl
      rw [length_eq_zero_iff.mp (Nat.le_zero.mp hl)]
      rfl
    | succ fuel ih =>
      intro l hl
      cases l with
      | nil => rfl
      | cons a l =>
        have hdrop : ((a :: l).drop n).length ≤ fuel := by
          rw [length_drop]
          omega
        rw [chunksFrom, ih _ hdrop, chunksFrom]
  obtain ⟨k, rfl⟩ := Nat.exists_eq_add_of_le hl
  induction k with
  | zero => rfl
  | succ k ih => rw [← Nat.add_assoc, hstep _ _ (Nat.le_add_right _ _), ih (Nat.le_add_right _ _)]

variable {n : ℕ}

/-- The first piece and the pieces of the rest. -/
theorem chunks_cons (hn : 0 < n) (hl : l ≠ []) : chunks n l = l.take n :: chunks n (l.drop n) := by
  cases l with
  | nil => exact absurd rfl hl
  | cons a l =>
    have hdrop : ((a :: l).drop n).length ≤ l.length := by
      rw [length_drop, length_cons]
      omega
    rw [chunks, length_cons, chunksFrom, chunksFrom_of_le hn hdrop]

@[simp] theorem chunks_nil : chunks n ([] : List α) = [] := rfl

/-- Induction along the pieces. -/
theorem chunks_induction (hn : 0 < n) {motive : List α → Prop} (nil : motive [])
    (cons : ∀ l, l ≠ [] → motive (l.drop n) → motive l) (l : List α) : motive l := by
  induction h : l.length using Nat.strongRecOn generalizing l with
  | ind m ih =>
    by_cases hl : l = []
    · exact hl ▸ nil
    · have hpos := length_pos_iff.mpr hl
      exact cons l hl (ih _ (by rw [length_drop]; omega) _ rfl)

theorem flatten_chunks (hn : 0 < n) (l : List α) : (chunks n l).flatten = l := by
  induction l using chunks_induction hn with
  | nil => rfl
  | cons l hl ih => rw [chunks_cons hn hl, flatten_cons, ih, take_append_drop]

theorem length_chunks (hn : 0 < n) (l : List α) : (chunks n l).length = (l.length + n - 1) / n := by
  induction l using chunks_induction hn with
  | nil => exact (Nat.div_eq_of_lt (by simp; omega)).symm
  | cons l hl ih =>
    have hpos := length_pos_iff.mpr hl
    rw [chunks_cons hn hl, length_cons, ih, length_drop]
    rcases Nat.lt_or_ge n l.length with hlt | hge
    · have hsplit : l.length + n - 1 = l.length - n + n - 1 + n := by omega
      rw [hsplit, Nat.add_div_right _ hn]
    · have hone : l.length + n - 1 = l.length - 1 + n := by omega
      rw [Nat.sub_eq_zero_of_le hge, Nat.zero_add, Nat.div_eq_of_lt (by omega), hone,
        Nat.add_div_right _ hn, Nat.div_eq_of_lt (by omega)]

theorem length_le_of_mem_chunks (hn : 0 < n) {c : List α} (h : c ∈ chunks n l) : c.length ≤ n := by
  induction l using chunks_induction hn with
  | nil => cases h
  | cons l hl ih =>
    rw [chunks_cons hn hl] at h
    rcases mem_cons.mp h with rfl | h
    · exact length_take_le _ _
    · exact ih h

/-! ### Distinct numbers -/

/-- Whether the numbers of a list are distinct and not in the bit set `seen`. -/
def distinctFrom : List ℕ → ℕ → Bool
  | [], _ => true
  | a :: l, seen => !seen.testBit a && distinctFrom l (seen ||| 1 <<< a)

theorem nodup_of_distinctFrom {l : List ℕ} {seen : ℕ} (h : distinctFrom l seen = true) :
    l.Nodup ∧ ∀ a ∈ l, seen.testBit a = false := by
  induction l generalizing seen with
  | nil => simp
  | cons a l ih =>
    rw [distinctFrom, Bool.and_eq_true, Bool.not_eq_true'] at h
    obtain ⟨ha, hl⟩ := h
    obtain ⟨hnodup, hseen⟩ := ih hl
    simp only [Nat.testBit_or, Bool.or_eq_false_iff] at hseen
    refine ⟨nodup_cons.mpr ⟨fun hmem => ?_, hnodup⟩, ?_⟩
    · simpa using (hseen a hmem).2
    · exact forall_mem_cons.mpr ⟨ha, fun b hb => (hseen b hb).1⟩

end Reticulum
