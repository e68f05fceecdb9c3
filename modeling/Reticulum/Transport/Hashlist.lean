import Reticulum.Transport.Tables

/-!
# The memory of seen packets

`PacketHashlist` of `hashlist.rs` keeps two generations of packet hashes and, when the younger one
is full, drops the older one at the next new hash. The lists of the model stand for hash sets; that
they hold no hash twice is part of the invariant.

## Main definitions

* `PacketHashlist.newWithCapacity`, `PacketHashlist.len`.
* `PacketHashlist.insertAll`, `PacketHashlist.accepted` — a run of insertions and the number of new
  hashes among them.
* `PacketHashlist.Bounded` — the invariant of a run that starts empty.
* `PacketHashlist.Holds` — a hash that survives a number of further new hashes.

## Main results

* `PacketHashlist.Bounded.insertAll`, `PacketHashlist.Holds.insertAll` — what runs preserve.
* `PacketHashlist.duplicate_memory` — the capacity, the answers and the retention of the list.
-/

namespace Reticulum.Transport.PacketHashlist

open Octets

/-- `PacketHashlist::new_with_capacity`. -/
def newWithCapacity (maxSize : ℕ) : PacketHashlist where
  current := []
  previous := []
  maxSize := maxSize

/-- `PacketHashlist::len`. -/
def len (l : PacketHashlist) : ℕ := l.current.length + l.previous.length

/-- The list after a run of insertions. -/
def insertAll (l : PacketHashlist) (hashes : List (Octets 32)) : PacketHashlist :=
  hashes.foldl (fun l hash => (l.insert hash).2) l

/-- How many insertions of a run brought a new hash. -/
def accepted : PacketHashlist → List (Octets 32) → ℕ
  | _, [] => 0
  | l, hash :: hashes => (l.insert hash).1.toNat + (l.insert hash).2.accepted hashes

variable {l : PacketHashlist} {hash : Octets 32}

/-- A new hash goes to the younger generation, or starts one when that is full. -/
theorem insert_of_not_contains (h : l.contains hash = false) :
    l.insert hash = (true, { l with
      current := if l.maxSize / 2 ≤ l.current.length then [hash] else hash :: l.current
      previous := if l.maxSize / 2 ≤ l.current.length then l.current else l.previous }) := by
  rw [insert, h]
  by_cases hfull : l.maxSize / 2 ≤ l.current.length
  · simp [hfull, forceRotate]
  · simp [hfull]

/-! ### Capacity -/

/-- Neither generation exceeds half the capacity, and no hash is stored twice. -/
structure Bounded (l : PacketHashlist) : Prop where
  current : l.current.length ≤ l.maxSize / 2
  previous : l.previous.length ≤ l.maxSize / 2
  nodup : (l.current ++ l.previous).Nodup

theorem bounded_new (maxSize : ℕ) : (newWithCapacity maxSize).Bounded :=
  ⟨Nat.zero_le _, Nat.zero_le _, List.nodup_nil⟩

theorem Bounded.len_le (hl : l.Bounded) : l.len ≤ l.maxSize := by
  have hcurrent := hl.current
  have hprevious := hl.previous
  rw [len]
  omega

@[simp] theorem maxSize_insert : (l.insert hash).2.maxSize = l.maxSize := by
  cases h : l.contains hash with
  | true => rw [insert_of_contains h]
  | false => rw [insert_of_not_contains h]

theorem Bounded.insert (hl : l.Bounded) (hcap : 2 ≤ l.maxSize) : (l.insert hash).2.Bounded := by
  cases h : l.contains hash with
  | true =>
    rw [insert_of_contains h]
    exact hl
  | false =>
    have hnew : hash ∉ l.current ∧ hash ∉ l.previous := by simpa [contains] using h
    have hcurrent := hl.current
    rw [insert_of_not_contains h]
    by_cases hfull : l.maxSize / 2 ≤ l.current.length
    · simp only [hfull, if_true]
      refine ⟨?_, hcurrent, ?_⟩
      · show 1 ≤ l.maxSize / 2
        omega
      · exact List.nodup_cons.mpr ⟨hnew.1, hl.nodup.of_append_left⟩
    · simp only [hfull, if_false]
      refine ⟨?_, hl.previous, ?_⟩
      · show l.current.length + 1 ≤ l.maxSize / 2
        omega
      · refine List.nodup_cons.mpr ⟨?_, hl.nodup⟩
        exact fun hmem => (List.mem_append.mp hmem).elim hnew.1 hnew.2

theorem Bounded.insertAll (hl : l.Bounded) (hcap : 2 ≤ l.maxSize) (hashes : List (Octets 32)) :
    (l.insertAll hashes).Bounded ∧ (l.insertAll hashes).maxSize = l.maxSize := by
  induction hashes generalizing l with
  | nil => exact ⟨hl, rfl⟩
  | cons hash hashes ih =>
    have hmax : (l.insert hash).2.maxSize = l.maxSize := maxSize_insert
    obtain ⟨hbounded, hsize⟩ := ih (hl.insert hcap) (hmax ▸ hcap)
    exact ⟨hbounded, hsize.trans hmax⟩

/-! ### Retention -/

/-- The hash survives `m` further new hashes: it is in the younger generation, or in the older one
and the younger one has room for all of them. -/
def Holds (l : PacketHashlist) (hash : Octets 32) (m : ℕ) : Prop :=
  m ≤ l.maxSize / 2 ∧
    (hash ∈ l.current ∨ hash ∈ l.previous ∧ m + l.current.length ≤ l.maxSize / 2)

variable {m : ℕ}

theorem Holds.contains (h : l.Holds hash m) : l.contains hash := by
  rcases h.2 with hcurrent | ⟨hprevious, -⟩
  · simp [PacketHashlist.contains, hcurrent]
  · simp [PacketHashlist.contains, hprevious]

/-- An insertion costs a held hash one of the new hashes it survives, and nothing when it brings no
new hash. -/
theorem Holds.insert {other : Octets 32} (h : l.Holds hash ((l.insert other).1.toNat + m)) :
    (l.insert other).2.Holds hash m := by
  cases hc : l.contains other with
  | true =>
    rw [insert_of_contains hc] at h ⊢
    simpa using h
  | false =>
    rw [insert_of_not_contains hc] at h ⊢
    obtain ⟨hm, hmem⟩ := h
    simp only [Bool.toNat_true] at hm hmem
    refine ⟨by show m ≤ l.maxSize / 2; omega, ?_⟩
    by_cases hfull : l.maxSize / 2 ≤ l.current.length
    · simp only [hfull, if_true, List.length_singleton]
      rcases hmem with hcurrent | ⟨-, hroom⟩
      · exact .inr ⟨hcurrent, by omega⟩
      · omega
    · simp only [hfull, if_false, List.length_cons]
      rcases hmem with hcurrent | ⟨hprevious, hroom⟩
      · exact .inl (List.mem_cons_of_mem _ hcurrent)
      · exact .inr ⟨hprevious, by omega⟩

theorem Holds.insertAll {hashes : List (Octets 32)}
    (h : l.Holds hash (l.accepted hashes + m)) : (l.insertAll hashes).Holds hash m := by
  induction hashes generalizing l with
  | nil =>
    rw [accepted, Nat.zero_add] at h
    exact h
  | cons other hashes ih =>
    rw [accepted, Nat.add_assoc] at h
    exact ih h.insert

/-- A new hash has the whole of the younger generation before it. -/
theorem holds_insert (h : l.contains hash = false) (hm : m ≤ l.maxSize / 2) :
    (l.insert hash).2.Holds hash m := by
  refine ⟨by rw [maxSize_insert]; exact hm, .inl ?_⟩
  rw [insert_of_not_contains h]
  by_cases hfull : l.maxSize / 2 ≤ l.current.length
  · simp [hfull]
  · simp [hfull]

/-- A list of capacity two or more that starts empty never stores more hashes than its capacity,
whatever is inserted. It refuses a hash exactly when it contains it. A hash that it took is
contained as long as at most half the capacity of new hashes have been inserted after it. -/
theorem duplicate_memory {n : ℕ} (hn : 2 ≤ n) (hashes : List (Octets 32)) {l : PacketHashlist}
    (hl : (newWithCapacity n).insertAll hashes = l) :
    (l.current ++ l.previous).Nodup ∧ l.len ≤ n ∧
      ∀ hash, ((l.insert hash).1 = false ↔ l.contains hash) ∧
        ∀ later : List (Octets 32), (l.insert hash).1 = true →
          (l.insert hash).2.accepted later ≤ n / 2 →
            ((l.insert hash).2.insertAll later).contains hash := by
  obtain ⟨hbounded, hsize⟩ := (bounded_new n).insertAll hn hashes
  rw [hl] at hbounded hsize
  have hsize : l.maxSize = n := hsize
  refine ⟨hbounded.nodup, hsize ▸ hbounded.len_le, fun hash => ⟨?_, fun later hnew hle => ?_⟩⟩
  · rw [insert_fst, Bool.not_eq_false']
  · have hcontains : l.contains hash = false := by simpa [insert_fst] using hnew
    have hheld : (l.insert hash).2.Holds hash ((l.insert hash).2.accepted later + 0) :=
      holds_insert hcontains (by omega)
    exact hheld.insertAll.contains

/-- A list of capacity two still contains its hash after one new hash. -/
theorem duplicate_memory_two :
    ((newWithCapacity 2).insertAll [replicate 32 0, replicate 32 1]).len ≤ 2 ∧
      ((((newWithCapacity 2).insertAll []).insert (replicate 32 0)).2.insertAll
        [replicate 32 1]).contains (replicate 32 0) := by
  refine ⟨(duplicate_memory (by decide) _ rfl).2.1, ?_⟩
  exact ((duplicate_memory (by decide) [] rfl).2.2 _).2 _ (by decide +kernel) (by decide +kernel)

/-- After two more it does not: half the capacity is all that is promised. -/
example : ((((newWithCapacity 2).insert (replicate 32 0)).2.insertAll
    [replicate 32 1, replicate 32 2]).contains (replicate 32 0)) = false := by
  decide +kernel

end Reticulum.Transport.PacketHashlist
