import Mathlib

/-!
# Byte strings and byte arrays of fixed length

Byte strings are lists of `UInt8`; `Octets n` are the byte strings of length `n`, the arrays
`[u8; n]` of the source language. The two-byte big-endian coding of `UInt16` and the bitwise
identities used by masks and flag bytes are here too.
-/

/-- Byte strings. -/
abbrev Bytes := List UInt8

/-- Byte arrays of length `n`. -/
abbrev Octets (n : ℕ) := {b : Bytes // b.length = n}

instance {n : ℕ} (b : Octets n) (l : List (Octets n)) : Decidable (b ∈ l) :=
  List.instDecidableMemOfLawfulBEq b l

/-- A property of bytes may be checked on the 256 values. -/
theorem UInt8.forall_of_forall_lt {P : UInt8 → Prop} (h : ∀ n < 256, P (UInt8.ofNat n))
    (b : UInt8) : P b := by
  simpa using h b.toNat b.toNat_lt

/-- A mask distributes over the union of two sets of flags. -/
theorem UInt16.or_and_distrib (a b c : UInt16) : (a ||| b) &&& c = (a &&& c) ||| (b &&& c) := by
  apply UInt16.toNat_inj.mp
  simp only [UInt16.toNat_and, UInt16.toNat_or, Nat.and_or_distrib_right]

namespace Octets

variable {n : ℕ} (x : Octets n)

@[simp] theorem length_val : x.1.length = n := x.2

/-- The array of `n` equal bytes. -/
def replicate (n : ℕ) (b : UInt8) : Octets n := ⟨List.replicate n b, List.length_replicate⟩

/-- The first `n` bytes of `b`, filled up with zeros when `b` is shorter. -/
def read (n : ℕ) (b : Bytes) : Octets n :=
  ⟨(b ++ List.replicate n 0).take n, by simp⟩

variable {b : Bytes}

theorem read_val (h : n ≤ b.length) : (read n b).1 = b.take n := by
  simp only [read]
  exact List.take_append_of_le_length h

/-- Reading back an array that heads a byte string. -/
@[simp] theorem read_append (b : Bytes) : read n (x.1 ++ b) = x := by
  apply Subtype.ext
  rw [read_val (by simp), List.take_append_of_le_length (by simp)]
  exact List.take_of_length_le (by simp)

@[simp] theorem read_self : read n x.1 = x := by
  simpa using read_append x []

/-- A byte string of length at least `n` starts with an array of length `n`. -/
theorem exists_append (h : n ≤ b.length) : ∃ (x : Octets n) (rest : Bytes), b = x.1 ++ rest :=
  ⟨⟨b.take n, by simp [h]⟩, b.drop n, (List.take_append_drop n b).symm⟩

/-- The same with a further byte behind the array. -/
theorem exists_append_cons (h : n < b.length) :
    ∃ (x : Octets n) (c : UInt8) (rest : Bytes), b = x.1 ++ c :: rest := by
  obtain ⟨x, rest, rfl⟩ := exists_append h.le
  cases rest with
  | nil => simp at h
  | cons c rest => exact ⟨x, c, rest, rfl⟩

@[simp] theorem drop_append (x : Octets n) (b : Bytes) : (x.1 ++ b).drop n = b := by
  simp

@[simp] theorem take_append (x : Octets n) (b : Bytes) : (x.1 ++ b).take n = x.1 := by
  simp

@[simp] theorem getElem?_append_add (x : Octets n) (b : Bytes) (k : ℕ) :
    (x.1 ++ b)[n + k]? = b[k]? := by
  rw [List.getElem?_append_right (by simp)]
  simp

end Octets

/-! ### Big-endian words -/

/-- The two bytes of a 16-bit word, most significant first. -/
def be16 (w : UInt16) : Bytes := [UInt8.ofNat (w.toNat / 256), UInt8.ofNat w.toNat]

/-- The 16-bit word of two bytes, most significant first. -/
def ofBe16 (hi lo : UInt8) : UInt16 := UInt16.ofNat (hi.toNat * 256 + lo.toNat)

@[simp] theorem length_be16 (w : UInt16) : (be16 w).length = 2 := rfl

@[simp] theorem ofBe16_be16 (w : UInt16) :
    ofBe16 (UInt8.ofNat (w.toNat / 256)) (UInt8.ofNat w.toNat) = w := by
  apply UInt16.toNat_inj.mp
  have hw := w.toNat_lt
  simp only [ofBe16, UInt16.toNat_ofNat', UInt8.toNat_ofNat']
  omega

/-- The low 24 bits of a number as three bytes, most significant first. -/
def be24 (v : ℕ) : Bytes := [UInt8.ofNat (v / 65536), UInt8.ofNat (v / 256), UInt8.ofNat v]

/-- The number of three bytes, most significant first. -/
def ofBe24 (a b c : UInt8) : ℕ := a.toNat * 65536 + b.toNat * 256 + c.toNat

@[simp] theorem length_be24 (v : ℕ) : (be24 v).length = 3 := rfl

theorem ofBe24_be24 {v : ℕ} (h : v < 2 ^ 24) :
    ofBe24 (UInt8.ofNat (v / 65536)) (UInt8.ofNat (v / 256)) (UInt8.ofNat v) = v := by
  simp only [ofBe24, UInt8.toNat_ofNat']
  omega

theorem ofBe24_lt (a b c : UInt8) : ofBe24 a b c < 2 ^ 24 := by
  have ha := a.toNat_lt
  have hb := b.toNat_lt
  have hc := c.toNat_lt
  unfold ofBe24
  omega

theorem be24_ofBe24 (a b c : UInt8) : be24 (ofBe24 a b c) = [a, b, c] := by
  have ha := a.toNat_lt
  have hb := b.toNat_lt
  have hc := c.toNat_lt
  simp only [be24, ofBe24, List.cons.injEq, and_true, ← UInt8.toNat_inj, UInt8.toNat_ofNat']
  omega

/-- The low `w` bytes of a number, most significant first. -/
def bigEndian : ℕ → ℕ → Bytes
  | 0, _ => []
  | w + 1, v => UInt8.ofNat (v / 256 ^ w) :: bigEndian w v

/-- The number of a byte string, most significant byte first. -/
def ofBigEndian (b : Bytes) : ℕ := b.foldl (fun v c => v * 256 + c.toNat) 0

@[simp] theorem length_bigEndian (w v : ℕ) : (bigEndian w v).length = w := by
  induction w with
  | zero => rfl
  | succ w ih => simp [bigEndian, ih]

/-- The array that a number stands for, as keys and hashes are written. -/
def Octets.ofNat {n : ℕ} (v : ℕ) : Octets n := ⟨bigEndian n v, length_bigEndian n v⟩

theorem ofBigEndian_bigEndian {w v : ℕ} (h : v < 256 ^ w) : ofBigEndian (bigEndian w v) = v := by
  have hfold (w a : ℕ) : (bigEndian w v).foldl (fun v c => v * 256 + c.toNat) a =
      a * 256 ^ w + v % 256 ^ w := by
    induction w generalizing a with
    | zero => simp [bigEndian, Nat.mod_one]
    | succ w ih =>
      rw [bigEndian, List.foldl_cons, ih, pow_succ, Nat.mod_mul, UInt8.toNat_ofNat']
      ring
  rw [ofBigEndian, hfold, Nat.mod_eq_of_lt h, Nat.zero_mul, Nat.zero_add]
