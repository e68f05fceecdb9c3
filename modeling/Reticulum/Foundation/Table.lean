import Mathlib

/-!
# Tables

A finite map with the operations of `HashMap` that the modelled code uses. The order of the entries
is one that iteration may have; no result depends on it.

## Main definitions

* `Table` — the map, an association list without double keys.
* `Table.get`, `Table.insert`, `Table.erase`, `Table.retain`, `Table.mapValues`, `Table.modify`.
* `Table.Sub` — a table with no entries but those of another.

## Main results

* `Table.get_insert`, `Table.get_erase`, `Table.get_retain`, `Table.get_mapValues`,
  `Table.get_modify` — the value of a key after each operation.
* `Table.mem_toList` — the entries are the pairs that a look-up finds.
* `Table.foldl_toList_apart` — a loop over the entries that treats the keys apart.
-/

namespace Reticulum

open List Option

/-- A finite map. -/
def Table (K V : Type) : Type := AList fun _ : K => V

namespace Table

variable {K V : Type}

instance : EmptyCollection (Table K V) := ⟨(∅ : AList fun _ : K => V)⟩

instance : Inhabited (Table K V) := ⟨∅⟩

/-- The entries, in the order of an iteration. -/
def toList (t : Table K V) : List (K × V) := t.entries.map fun e => (e.1, e.2)

/-- `HashMap::keys`. -/
def keys (t : Table K V) : List K := t.toList.map Prod.fst

/-- `HashMap::values`. -/
def values (t : Table K V) : List V := t.toList.map Prod.snd

/-- `HashMap::len`. -/
def size (t : Table K V) : ℕ := t.toList.length

/-- `HashMap::retain`. -/
def retain (p : K → V → Bool) (t : Table K V) : Table K V where
  entries := t.entries.filter fun e => p e.1 e.2
  nodupKeys := t.nodupKeys.sublist filter_sublist

/-- A loop over `HashMap::values_mut`. -/
def mapValues (f : K → V → V) (t : Table K V) : Table K V where
  entries := t.entries.map fun e => ⟨e.1, f e.1 e.2⟩
  nodupKeys := by
    have hkeys : (t.entries.map fun e => (⟨e.1, f e.1 e.2⟩ : Sigma fun _ : K => V)).keys =
        t.entries.keys := by
      simp [List.keys]
    exact (congrArg List.Nodup hkeys).mpr t.nodupKeys

variable [DecidableEq K]

/-- `HashMap::get`. -/
def get (t : Table K V) (k : K) : Option V := AList.lookup k t

/-- `HashMap::contains_key`. -/
def contains (t : Table K V) (k : K) : Bool := (t.get k).isSome

/-- `HashMap::insert`. -/
def insert (t : Table K V) (k : K) (v : V) : Table K V := AList.insert k v t

/-- `HashMap::remove`. -/
def erase (t : Table K V) (k : K) : Table K V := AList.erase k t

/-- An update through `HashMap::get_mut`. -/
def modify (t : Table K V) (k : K) (f : V → V) : Table K V :=
  t.mapValues fun k' v => if k' = k then f v else v

variable {t : Table K V} {k k' : K} {v : V}

/-- The entries are what look-ups find. -/
theorem mem_toList : (k, v) ∈ t.toList ↔ t.get k = some v := by
  have hlookup : t.get k = some v ↔ ⟨k, v⟩ ∈ t.entries := AList.mem_lookup_iff
  rw [hlookup, toList, List.mem_map]
  constructor
  · rintro ⟨⟨k', v'⟩, he, heq⟩
    obtain ⟨rfl, rfl⟩ := Prod.mk.inj heq
    exact he
  · exact fun he => ⟨_, he, rfl⟩

theorem mem_keys : k ∈ t.keys ↔ t.contains k := by
  rw [keys, contains, List.mem_map, isSome_iff_exists]
  constructor
  · rintro ⟨⟨k', v⟩, he, rfl⟩
    exact ⟨v, mem_toList.mp he⟩
  · rintro ⟨v, hv⟩
    exact ⟨(k, v), mem_toList.mpr hv, rfl⟩

@[simp] theorem get_empty : (∅ : Table K V).get k = none := rfl

theorem get_insert : (t.insert k v).get k' = if k' = k then some v else t.get k' := by
  split_ifs with h
  · exact h ▸ AList.lookup_insert t
  · exact AList.lookup_insert_ne h

@[simp] theorem get_insert_self : (t.insert k v).get k = some v := AList.lookup_insert t

theorem get_insert_ne (h : k' ≠ k) : (t.insert k v).get k' = t.get k' := AList.lookup_insert_ne h

theorem get_erase : (t.erase k).get k' = if k' = k then none else t.get k' := by
  split_ifs with h
  · exact h ▸ AList.lookup_erase k t
  · exact AList.lookup_erase_ne h

/-- What a look-up finds after an operation, from the entries. -/
private theorem get_eq_of_mem {t' : Table K V} {o : Option V}
    (h : ∀ v, (k, v) ∈ t'.toList ↔ o = some v) : t'.get k = o :=
  Option.ext fun v => by rw [← mem_toList, h]

theorem get_retain {p : K → V → Bool} : (t.retain p).get k = (t.get k).filter (p k) := by
  refine get_eq_of_mem fun v => ?_
  have hmem : (k, v) ∈ (t.retain p).toList ↔ (k, v) ∈ t.toList ∧ p k v := by
    simp only [toList, retain, List.mem_map, mem_filter, Prod.mk.injEq]
    constructor
    · rintro ⟨e, ⟨he, hp⟩, rfl, rfl⟩
      exact ⟨⟨e, he, rfl, rfl⟩, hp⟩
    · rintro ⟨⟨e, he, rfl, rfl⟩, hp⟩
      exact ⟨e, ⟨he, hp⟩, rfl, rfl⟩
  rw [hmem, mem_toList, filter_eq_some_iff]

theorem get_mapValues {f : K → V → V} : (t.mapValues f).get k = (t.get k).map (f k) := by
  refine get_eq_of_mem fun v => ?_
  rw [map_eq_some_iff]
  simp only [← mem_toList, toList, mapValues, List.mem_map, Prod.mk.injEq]
  constructor
  · rintro ⟨_, ⟨e, he, rfl⟩, rfl, rfl⟩
    exact ⟨e.2, ⟨e, he, rfl, rfl⟩, rfl⟩
  · rintro ⟨v', ⟨e, he, rfl, rfl⟩, rfl⟩
    exact ⟨_, ⟨e, he, rfl⟩, rfl, rfl⟩

variable {f : V → V}

theorem get_modify : (t.modify k f).get k' = if k' = k then (t.get k').map f else t.get k' := by
  rw [modify, get_mapValues]
  split_ifs with h
  · rfl
  · exact map_id_apply

/-- What is found after an insertion. -/
theorem of_get_insert {v' : V} (h : (t.insert k v).get k' = some v') :
    k' = k ∧ v' = v ∨ t.get k' = some v' := by
  rw [get_insert] at h
  split_ifs at h with hk
  · exact .inl ⟨hk, (some.inj h).symm⟩
  · exact .inr h

/-- What is found after a change in place. -/
theorem of_get_modify (h : (t.modify k f).get k' = some v) :
    (∃ v₀, t.get k' = some v₀ ∧ f v₀ = v ∧ k' = k) ∨ t.get k' = some v := by
  rw [get_modify] at h
  split_ifs at h with hk
  · obtain ⟨v₀, hget, hv⟩ := map_eq_some_iff.mp h
    exact .inl ⟨v₀, hget, hv, hk⟩
  · exact .inr h

theorem contains_insert : (t.insert k v).contains k' = (decide (k' = k) || t.contains k') := by
  rw [contains, get_insert, contains]
  by_cases h : k' = k <;> simp [h]

theorem erase_of_get_eq_none (h : t.get k = none) : t.erase k = t := by
  have hk : k ∉ t.entries.keys := fun hk =>
    isSome_iff_ne_none.mp (AList.lookup_isSome.mpr hk) h
  exact AList.ext (kerase_of_notMem_keys hk)

theorem erase_insert : (t.insert k v).erase k = t.erase k :=
  AList.ext (kerase_cons_eq rfl)

/-- Removing a key takes its value out of the values. -/
theorem values_perm_of_get (h : t.get k = some v) : t.values.Perm (v :: (t.erase k).values) := by
  have hmem : (⟨k, v⟩ : Sigma fun _ : K => V) ∈ t.entries := AList.mem_lookup_iff.mp h
  obtain ⟨v', l₁, l₂, -, hl, herase⟩ := exists_of_kerase (mem_keys_of_mem hmem)
  have hv : t.get k = some v' := AList.mem_lookup_iff.mpr (by rw [hl]; simp)
  obtain rfl := some.inj (h.symm.trans hv)
  have hvalues : t.values = l₁.map (fun e => e.2) ++ v :: l₂.map (fun e => e.2) := by
    simp [values, toList, hl, Function.comp_def]
  have hrest : (t.erase k).values = l₁.map (fun e => e.2) ++ l₂.map (fun e => e.2) := by
    have hentries : (t.erase k).entries = l₁ ++ l₂ := herase
    simp [values, toList, hentries, Function.comp_def]
  rw [hvalues, hrest]
  exact perm_middle

theorem values_insert : (t.insert k v).values = v :: (t.erase k).values := rfl

/-- A new key adds its value. -/
theorem values_insert_of_get_eq_none (h : t.get k = none) :
    (t.insert k v).values = v :: t.values := by
  rw [values_insert, erase_of_get_eq_none h]

theorem mem_values : v ∈ t.values ↔ ∃ k, t.get k = some v := by
  rw [values, List.mem_map]
  constructor
  · rintro ⟨⟨k, v'⟩, he, rfl⟩
    exact ⟨k, mem_toList.mp he⟩
  · rintro ⟨k, hk⟩
    exact ⟨(k, v), mem_toList.mpr hk, rfl⟩

theorem contains_erase : (t.erase k).contains k' = (decide (k' ≠ k) && t.contains k') := by
  rw [contains, get_erase, contains]
  by_cases h : k' = k <;> simp [h]

theorem contains_iff : t.contains k ↔ ∃ v, t.get k = some v := isSome_iff_exists

omit [DecidableEq K] in
theorem nodup_keys (t : Table K V) : t.keys.Nodup := by
  have hkeys : t.keys = t.entries.keys := by simp [keys, toList, List.keys]
  rw [hkeys]
  exact t.nodupKeys

/-- A table with the keys of another is no larger. -/
theorem size_le_of_get {t' : Table K V} (h : ∀ k v, t.get k = some v → ∃ v', t'.get k = some v') :
    t.size ≤ t'.size := by
  have hsub : t.keys ⊆ t'.keys := fun k hk =>
    mem_keys.mpr (contains_iff.mpr ((contains_iff.mp (mem_keys.mp hk)).elim (h k)))
  simpa [keys, size] using (subperm_of_subset t.nodup_keys hsub).length_le

/-! ### Look-ups as functions -/

theorem get_insert_eq_update : (t.insert k v).get = Function.update t.get k (some v) := by
  funext k'
  rw [get_insert, Function.update_apply]

theorem get_erase_eq_update : (t.erase k).get = Function.update t.get k none := by
  funext k'
  rw [get_erase, Function.update_apply]

theorem contains_modify : (t.modify k f).contains k' = t.contains k' := by
  rw [contains, get_modify, contains]
  split_ifs
  · rw [isSome_map]
  · rfl

theorem contains_mapValues {f : K → V → V} : (t.mapValues f).contains k = t.contains k := by
  rw [contains, get_mapValues, isSome_map, contains]

/-! ### Loops over the entries -/

section

variable {S W : Type} {f : S → K × V → S} {g : S → K → W} {h : K → V → W → W}

omit [DecidableEq K] in
private theorem foldl_apart_of_notMem (hapart : ∀ s e k, k ≠ e.1 → g (f s e) k = g s k)
    {l : List (K × V)} (hk : k ∉ l.map Prod.fst) (s : S) : g (l.foldl f s) k = g s k := by
  induction l generalizing s with
  | nil => rfl
  | cons e l ih =>
    rw [map_cons, mem_cons, not_or] at hk
    rw [foldl_cons, ih hk.2, hapart s e k hk.1]

/-- A loop over the entries of a table whose step at an entry changes only what belongs to its key,
and that by what belonged to the key. -/
theorem foldl_toList_apart (hapart : ∀ s e k, k ≠ e.1 → g (f s e) k = g s k)
    (hself : ∀ s e, g (f s e) e.1 = h e.1 e.2 (g s e.1)) (t : Table K V) (s : S) (k : K) :
    g (t.toList.foldl f s) k = (t.get k).elim (g s k) fun v => h k v (g s k) := by
  cases hget : t.get k with
  | none =>
    have hk : k ∉ t.toList.map Prod.fst := fun hk =>
      isSome_iff_ne_none.mp (mem_keys.mp hk) hget
    exact foldl_apart_of_notMem hapart hk s
  | some v =>
    obtain ⟨l₁, l₂, hl⟩ := append_of_mem (mem_toList.mpr hget)
    have hnodup : (l₁.map Prod.fst ++ k :: l₂.map Prod.fst).Nodup := by
      have := t.nodup_keys
      rwa [keys, hl, map_append, map_cons] at this
    obtain ⟨hk₁, hk₂⟩ : k ∉ l₁.map Prod.fst ∧ k ∉ l₂.map Prod.fst :=
      not_or.mp fun hk => (nodup_middle.mp hnodup).notMem (mem_append.mpr hk)
    rw [hl, foldl_append, foldl_cons, foldl_apart_of_notMem hapart hk₂, hself,
      foldl_apart_of_notMem hapart hk₁]
    rfl

end

/-! ### Tables that lose entries -/

/-- Every entry of `t` is one of `t'`. -/
def Sub (t t' : Table K V) : Prop := ∀ ⦃k v⦄, t.get k = some v → t'.get k = some v

namespace Sub

variable {t' t'' : Table K V}

theorem refl (t : Table K V) : Sub t t := fun _ _ h => h

theorem trans (h : Sub t t') (h' : Sub t' t'') : Sub t t'' := fun _ _ hv => h' (h hv)

variable (t)

theorem empty : Sub ∅ t := fun _ _ h => nomatch h

theorem erase (k : K) : Sub (t.erase k) t := by
  intro k' v h
  rw [get_erase] at h
  split_ifs at h
  exact h

theorem retain (p : K → V → Bool) : Sub (t.retain p) t := by
  intro k v h
  rw [get_retain] at h
  exact (filter_eq_some_iff.mp h).1

theorem foldl_erase {ι : Type} (key : ι → K) (l : List ι) (t : Table K V) :
    Sub (l.foldl (fun t e => t.erase (key e)) t) t := by
  induction l generalizing t with
  | nil => exact refl t
  | cons e l ih => exact (ih _).trans (erase t _)

end Sub

end Table

end Reticulum
