import Reticulum.Foundation.Octets

/-!
# MessagePack

The writers of the `rmp` crate for the formats that the protocol emits, and the reader of the
`rmpv` crate, which accepts every format and refuses values nested too deeply. Every writer chooses
the shortest format for its length or number; the reader inverts it whatever follows.

## Main definitions

* `writeNil`, `writeUint`, `writeBin`, `writeStr`, `writeArrayLen`, `writeMapLen` — the writers.
* `Value`, `writeValue`, `readValue` — values, their writer and the reader, with the number of levels
  it may descend.

## Main results

* `readValue_writeUint`, `readValue_writeBin`, `readValue_array`, `readValue_map` — reading inverts
  writing.
* `length_writeUint_le`, `length_writeBin_le` — encoded lengths grow with what is encoded.
-/

namespace Reticulum.MessagePack

/-! ### Writers -/

/-- `rmp::encode::write_nil`. -/
def writeNil : Bytes := [0xc0]

/-- `rmp::encode::write_uint`. -/
def writeUint (n : ℕ) : Bytes :=
  if n < 128 then bigEndian 1 n
  else if n < 256 then 0xcc :: bigEndian 1 n
  else if n < 65536 then 0xcd :: bigEndian 2 n
  else if n < 2 ^ 32 then 0xce :: bigEndian 4 n
  else 0xcf :: bigEndian 8 n

/-- `rmp::encode::write_bin`. -/
def writeBin (b : Bytes) : Bytes :=
  (if b.length < 256 then 0xc4 :: bigEndian 1 b.length
    else if b.length < 65536 then 0xc5 :: bigEndian 2 b.length
    else 0xc6 :: bigEndian 4 b.length) ++ b

/-- `rmp::encode::write_str`, of the bytes of a string. -/
def writeStr (s : Bytes) : Bytes :=
  (if s.length < 32 then [UInt8.ofNat (0xa0 + s.length)]
    else if s.length < 256 then 0xd9 :: bigEndian 1 s.length
    else if s.length < 65536 then 0xda :: bigEndian 2 s.length
    else 0xdb :: bigEndian 4 s.length) ++ s

/-- `rmp::encode::write_array_len`. -/
def writeArrayLen (n : ℕ) : Bytes :=
  if n < 16 then [UInt8.ofNat (0x90 + n)]
  else if n < 65536 then 0xdc :: bigEndian 2 n
  else 0xdd :: bigEndian 4 n

/-- `rmp::encode::write_map_len`. -/
def writeMapLen (n : ℕ) : Bytes :=
  if n < 16 then [UInt8.ofNat (0x80 + n)]
  else if n < 65536 then 0xde :: bigEndian 2 n
  else 0xdf :: bigEndian 4 n

/-- Larger numbers have no shorter encoding. -/
theorem length_writeUint_le {m n : ℕ} (h : m ≤ n) :
    (writeUint m).length ≤ (writeUint n).length := by
  simp only [writeUint]
  split_ifs <;> simp <;> omega

theorem length_writeUint_of_lt {n : ℕ} (h : n < 128) : (writeUint n).length = 1 := by
  rw [writeUint, if_pos h, length_bigEndian]

/-- Longer byte strings have no shorter encoding. -/
theorem length_writeBin_le {a b : Bytes} (h : a.length ≤ b.length) :
    (writeBin a).length ≤ (writeBin b).length := by
  simp only [writeBin, List.length_append]
  split_ifs <;> simp <;> omega

/-! ### Values -/

/-- `rmpv::Value`; floating-point numbers by their bits, strings by their bytes. -/
inductive Value
  | nil
  | boolean (b : Bool)
  | integer (n : ℤ)
  | f32 (bits : ℕ)
  | f64 (bits : ℕ)
  | string (bytes : Bytes)
  | binary (bytes : Bytes)
  | array (items : List Value)
  | map (entries : List (Value × Value))
  | ext (type : UInt8) (bytes : Bytes)

namespace Value

/-- `Value::as_u64`. -/
def asU64 : Value → Option ℕ
  | integer n => if 0 ≤ n then some n.toNat else none
  | _ => none

@[simp] theorem asU64_natCast (n : ℕ) : asU64 (integer n) = some n := by
  simp [asU64]

/-- `Value::as_slice`. -/
def asSlice : Value → Option Bytes
  | binary b => some b
  | string b => some b
  | _ => none

/-- `Value::is_nil`. -/
def isNil : Value → Bool
  | nil => true
  | _ => false

end Value

/-! ### Writing values -/

/-- `rmp::encode::write_sint` of a negative number. -/
def writeNegative (n : ℤ) : Bytes :=
  if -32 ≤ n then bigEndian 1 (256 + n).toNat
  else if -128 ≤ n then 0xd0 :: bigEndian 1 (256 + n).toNat
  else if -32768 ≤ n then 0xd1 :: bigEndian 2 (256 ^ 2 + n).toNat
  else if -2 ^ 31 ≤ n then 0xd2 :: bigEndian 4 (256 ^ 4 + n).toNat
  else 0xd3 :: bigEndian 8 (256 ^ 8 + n).toNat

/-- `rmp::encode::write_ext_meta`. -/
def writeExtMeta (len : ℕ) (type : UInt8) : Bytes :=
  (if len = 1 then [0xd4]
    else if len = 2 then [0xd5]
    else if len = 4 then [0xd6]
    else if len = 8 then [0xd7]
    else if len = 16 then [0xd8]
    else if len < 256 then 0xc7 :: bigEndian 1 len
    else if len < 65536 then 0xc8 :: bigEndian 2 len
    else 0xc9 :: bigEndian 4 len) ++ [type]

mutual

/-- `rmpv::encode::write_value`. A string that is not valid UTF-8 is written as bytes. -/
def writeValue : Value → Bytes
  | .nil => writeNil
  | .boolean b => [if b then 0xc3 else 0xc2]
  | .integer n => if 0 ≤ n then writeUint n.toNat else writeNegative n
  | .f32 bits => 0xca :: bigEndian 4 bits
  | .f64 bits => 0xcb :: bigEndian 8 bits
  | .string s => if (ByteArray.mk s.toArray).validateUTF8 then writeStr s else writeBin s
  | .binary b => writeBin b
  | .array items => writeArrayLen items.length ++ writeItems items
  | .map entries => writeMapLen entries.length ++ writeEntries entries
  | .ext type b => writeExtMeta b.length type ++ b
termination_by structural v => v

/-- The items of an array. -/
def writeItems : List Value → Bytes
  | [] => []
  | item :: items => writeValue item ++ writeItems items
termination_by structural l => l

/-- The entries of a map. -/
def writeEntries : List (Value × Value) → Bytes
  | [] => []
  | entry :: entries => writeEntry entry ++ writeEntries entries
termination_by structural l => l

/-- One entry of a map. -/
def writeEntry : Value × Value → Bytes
  | (key, value) => writeValue key ++ writeValue value
termination_by structural p => p

end

/-! ### The reader -/

/-- `MAX_DEPTH` of the `rmpv` crate. -/
def maxDepth : ℕ := 1024

/-- The next `n` bytes. -/
def takeBytes (n : ℕ) (input : Bytes) : Option (Bytes × Bytes) :=
  if n ≤ input.length then some (input.take n, input.drop n) else none

/-- A number of `w` bytes. -/
def readWord (w : ℕ) (input : Bytes) : Option (ℕ × Bytes) := do
  let (b, rest) ← takeBytes w input
  return (ofBigEndian b, rest)

/-- A byte string behind its length of `w` bytes. -/
def readSized (w : ℕ) (input : Bytes) : Option (Bytes × Bytes) := do
  let (n, rest) ← readWord w input
  takeBytes n rest

/-- A type byte and `n` bytes of an extension. -/
def readExt (n : ℕ) (input : Bytes) : Option (Value × Bytes) := do
  let (type, rest) ← readWord 1 input
  let (b, rest) ← takeBytes n rest
  return (.ext (UInt8.ofNat type) b, rest)

/-- `n` items, one after the other. -/
def readMany {α : Type} (read : Bytes → Option (α × Bytes)) : ℕ → Bytes → Option (List α × Bytes)
  | 0, input => some ([], input)
  | n + 1, input => do
    let (a, rest) ← read input
    let (as, rest) ← readMany read n rest
    return (a :: as, rest)

/-- Two items, one after the other. -/
def readPair {α : Type} (read : Bytes → Option (α × Bytes)) (input : Bytes) :
    Option ((α × α) × Bytes) := do
  let (a, rest) ← read input
  let (b, rest) ← read rest
  return ((a, b), rest)

/-- The number of a two's-complement word of `w` bytes. -/
def signed (w n : ℕ) : ℤ := if n < 128 * 256 ^ (w - 1) then n else n - 256 ^ w

/-- `rmpv::decode::read_value` with `depth` levels left. The widths within a family of formats are
powers of two of the distance from its first marker. -/
def readValue : ℕ → Bytes → Option (Value × Bytes)
  | 0, _ => none
  | _ + 1, [] => none
  | depth + 1, marker :: input =>
    let m := marker.toNat
    let array (n : ℕ) (input : Bytes) := do
      let (items, rest) ← readMany (readValue depth) n input
      return (Value.array items, rest)
    let map (n : ℕ) (input : Bytes) := do
      let (entries, rest) ← readMany (readPair (readValue depth)) n input
      return (Value.map entries, rest)
    if m < 0x80 then some (.integer m, input)
    else if m < 0x90 then map (m - 0x80) input
    else if m < 0xa0 then array (m - 0x90) input
    else if m < 0xc0 then do
      let (b, rest) ← takeBytes (m - 0xa0) input
      return (.string b, rest)
    -- The reserved marker `0xc1` reads as `nil`.
    else if m < 0xc2 then some (.nil, input)
    else if m < 0xc4 then some (.boolean (m == 0xc3), input)
    else if m < 0xc7 then do
      let (b, rest) ← readSized (2 ^ (m - 0xc4)) input
      return (.binary b, rest)
    else if m < 0xca then do
      let (n, rest) ← readWord (2 ^ (m - 0xc7)) input
      readExt n rest
    else if m = 0xca then do
      let (bits, rest) ← readWord 4 input
      return (.f32 bits, rest)
    else if m = 0xcb then do
      let (bits, rest) ← readWord 8 input
      return (.f64 bits, rest)
    else if m < 0xd0 then do
      let (n, rest) ← readWord (2 ^ (m - 0xcc)) input
      return (.integer n, rest)
    else if m < 0xd4 then do
      let (n, rest) ← readWord (2 ^ (m - 0xd0)) input
      return (.integer (signed (2 ^ (m - 0xd0)) n), rest)
    else if m < 0xd9 then readExt (2 ^ (m - 0xd4)) input
    else if m < 0xdc then do
      let (b, rest) ← readSized (2 ^ (m - 0xd9)) input
      return (.string b, rest)
    else if m < 0xde then do
      let (n, rest) ← readWord (2 ^ (m - 0xdb)) input
      array n rest
    else if m < 0xe0 then do
      let (n, rest) ← readWord (2 ^ (m - 0xdd)) input
      map n rest
    else some (.integer (m - 256), input)

/-! ### Reading what was written -/

@[simp] theorem takeBytes_append (b rest : Bytes) :
    takeBytes b.length (b ++ rest) = some (b, rest) := by
  simp [takeBytes]

theorem readWord_bigEndian {w n : ℕ} (h : n < 256 ^ w) (rest : Bytes) :
    readWord w (bigEndian w n ++ rest) = some (n, rest) := by
  have htake := takeBytes_append (bigEndian w n) rest
  rw [length_bigEndian] at htake
  simp [readWord, htake, ofBigEndian_bigEndian h]

theorem readSized_bigEndian {w : ℕ} {b : Bytes} (h : b.length < 256 ^ w) (rest : Bytes) :
    readSized w (bigEndian w b.length ++ (b ++ rest)) = some (b, rest) := by
  simp [readSized, readWord_bigEndian h]

/-- Items that are read one by one are read together. -/
theorem readMany_flatMap {α β : Type} {read : Bytes → Option (α × Bytes)} {write : β → Bytes}
    {value : β → α} {items : List β}
    (h : ∀ x ∈ items, ∀ rest, read (write x ++ rest) = some (value x, rest)) (rest : Bytes) :
    readMany read items.length (items.flatMap write ++ rest) = some (items.map value, rest) := by
  induction items with
  | nil => rfl
  | cons x items ih =>
    have hx := h x List.mem_cons_self
    have hrest := ih fun y hy => h y (List.mem_cons_of_mem x hy)
    simp [readMany, hx, hrest]

section Depth

variable (depth : ℕ) (rest : Bytes)

@[simp] theorem readValue_writeNil :
    readValue (depth + 1) (writeNil ++ rest) = some (.nil, rest) := rfl

theorem readValue_writeUint {n : ℕ} (h : n < 2 ^ 64) :
    readValue (depth + 1) (writeUint n ++ rest) = some (.integer n, rest) := by
  simp only [writeUint]
  split_ifs with h1 h2 h3 h4
  · have hm : (UInt8.ofNat n).toNat = n := by
      rw [UInt8.toNat_ofNat']
      omega
    simp [bigEndian, readValue, hm, h1]
  · simp [readValue, readWord_bigEndian (w := 1) (n := n) (by omega)]
  · simp [readValue, readWord_bigEndian (w := 2) (n := n) (by omega)]
  · simp [readValue, readWord_bigEndian (w := 4) (n := n) (by omega)]
  · simp [readValue, readWord_bigEndian (w := 8) (n := n) (by omega)]

theorem readValue_writeBin {b : Bytes} (h : b.length < 2 ^ 32) :
    readValue (depth + 1) (writeBin b ++ rest) = some (.binary b, rest) := by
  simp only [writeBin]
  split_ifs with h1 h2
  · simp [readValue, readSized_bigEndian (w := 1) (b := b) (by omega)]
  · simp [readValue, readSized_bigEndian (w := 2) (b := b) (by omega)]
  · simp [readValue, readSized_bigEndian (w := 4) (b := b) (by omega)]

/-- Strings of less than 32 bytes have their length in the marker. -/
theorem readValue_writeStr {s : Bytes} (h : s.length < 32) :
    readValue (depth + 1) (writeStr s ++ rest) = some (.string s, rest) := by
  have hm : (UInt8.ofNat (0xa0 + s.length)).toNat = 0xa0 + s.length := by
    rw [UInt8.toNat_ofNat']
    omega
  have h1 : ¬ 0xa0 + s.length < 0x80 := by omega
  have h2 : ¬ 0xa0 + s.length < 0x90 := by omega
  have h3 : ¬ 0xa0 + s.length < 0xa0 := by omega
  have h4 : 0xa0 + s.length < 0xc0 := by omega
  simp only [writeStr, h, ↓reduceIte, List.cons_append, List.nil_append, readValue, hm, h1, h2, h3,
    h4, Nat.add_sub_cancel_left, takeBytes_append]
  rfl

/-- Arrays of less than 16 items have their length in the marker. -/
theorem readValue_array {β : Type} {write : β → Bytes} {value : β → Value} {items : List β}
    (hlen : items.length < 16)
    (h : ∀ x ∈ items, ∀ rest, readValue depth (write x ++ rest) = some (value x, rest)) :
    readValue (depth + 1) (writeArrayLen items.length ++ (items.flatMap write ++ rest)) =
      some (.array (items.map value), rest) := by
  have hm : (UInt8.ofNat (0x90 + items.length)).toNat = 0x90 + items.length := by
    rw [UInt8.toNat_ofNat']
    omega
  have h1 : ¬ 0x90 + items.length < 0x80 := by omega
  have h2 : ¬ 0x90 + items.length < 0x90 := by omega
  have h3 : 0x90 + items.length < 0xa0 := by omega
  simp only [writeArrayLen, hlen, ↓reduceIte, List.singleton_append, readValue, hm, h1, h2, h3,
    Nat.add_sub_cancel_left, readMany_flatMap h]
  rfl

/-- Maps of less than 16 entries have their length in the marker. -/
theorem readValue_map {β : Type} {write : β → Bytes} {value : β → Value} {entries : List (β × β)}
    (hlen : entries.length < 16)
    (h : ∀ e ∈ entries, ∀ rest, readValue depth (write e.1 ++ rest) = some (value e.1, rest) ∧
      readValue depth (write e.2 ++ rest) = some (value e.2, rest)) :
    readValue (depth + 1) (writeMapLen entries.length ++
        (entries.flatMap (fun e => write e.1 ++ write e.2) ++ rest)) =
      some (.map (entries.map fun e => (value e.1, value e.2)), rest) := by
  have hpair : ∀ e ∈ entries, ∀ rest, readPair (readValue depth) (write e.1 ++ write e.2 ++ rest) =
      some ((value e.1, value e.2), rest) := by
    intro e he rest
    obtain ⟨h1, -⟩ := h e he (write e.2 ++ rest)
    obtain ⟨-, h2⟩ := h e he rest
    simp [readPair, h1, h2]
  have hm : (UInt8.ofNat (0x80 + entries.length)).toNat = 0x80 + entries.length := by
    rw [UInt8.toNat_ofNat']
    omega
  have h1 : ¬ 0x80 + entries.length < 0x80 := by omega
  have h2 : 0x80 + entries.length < 0x90 := by omega
  simp only [writeMapLen, hlen, ↓reduceIte, List.singleton_append, readValue, hm, h1, h2,
    Nat.add_sub_cancel_left, readMany_flatMap hpair]
  rfl

end Depth

end Reticulum.MessagePack
