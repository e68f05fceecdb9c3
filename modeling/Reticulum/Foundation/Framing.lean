import Mathlib

/-!
# Frames in a stream

A stream is cut into frames by a flag. Inside a frame the flag is written with an escape, so that it
only ends frames; a scanner takes the stream in pieces of any size and gives out the frames.

## Main definitions

* `Stuffing`, `Stuffing.escape`, `Stuffing.unescape` — writing flags with an escape, and reading them.
* `Scanner`, `Scanner.feed` — what becomes of the symbols between flags and of a flag, and of a piece
  of the stream.
* `ChunkIndependent`, `Resynchronises` — that the pieces do not matter, and that whole frames are
  read from a state that may hold the rest of another one.

## Main results

* `Stuffing.unescape_escape`, `Stuffing.flag_not_mem_escape`.
* `Scanner.chunkIndependent`, `Scanner.feed_body`, `Scanner.resynchronises`.
-/

namespace Reticulum

open List

variable {β σ φ ι : Type*}

/-! ### Writing flags with an escape -/

/-- A flag and an escape, and the symbols that stand for them behind an escape. -/
structure Stuffing (β : Type*) where
  flag : β
  esc : β
  code : β → β
  esc_ne_flag : esc ≠ flag
  code_flag_ne : code flag ≠ flag
  code_esc_ne : code esc ≠ flag
  code_ne : code flag ≠ code esc

namespace Stuffing

variable [DecidableEq β] (c : Stuffing β)

/-- Flags and escapes are written as an escape and their code. -/
def escape : List β → List β
  | [] => []
  | b :: rest => if b = c.esc ∨ b = c.flag then c.esc :: c.code b :: escape rest else b :: escape rest

/-- Codes are read back. An escape before anything else, or at the end, stands for itself. -/
def unescape : List β → List β
  | [] => []
  | [b] => [b]
  | b :: next :: rest =>
    if b = c.esc then
      if next = c.code c.flag then c.flag :: unescape rest
      else if next = c.code c.esc then c.esc :: unescape rest
      else c.esc :: next :: unescape rest
    else b :: unescape (next :: rest)

theorem flag_not_mem_escape (data : List β) : c.flag ∉ c.escape data := by
  induction data with
  | nil => exact not_mem_nil
  | cons b rest ih =>
    rw [escape]
    split
    next hb =>
      have hcode : c.flag ≠ c.code b := by
        rcases hb with rfl | rfl
        · exact c.code_esc_ne.symm
        · exact c.code_flag_ne.symm
      simp [c.esc_ne_flag.symm, hcode, ih]
    next hb =>
      have hne : c.flag ≠ b := fun h => hb (.inr h.symm)
      simp [hne, ih]

theorem escape_eq_nil {data : List β} : c.escape data = [] ↔ data = [] := by
  cases data with
  | nil => simp [escape]
  | cons b rest =>
    rw [escape]
    split <;> simp

theorem unescape_ne_nil {data : List β} (h : data ≠ []) : c.unescape data ≠ [] := by
  match data with
  | [] => exact h
  | [_] => simp [unescape]
  | b :: next :: rest =>
    rw [unescape]
    split_ifs <;> simp

private theorem unescape_cons_of_ne {b : β} (hb : b ≠ c.esc) (rest : List β) :
    c.unescape (b :: rest) = b :: c.unescape rest := by
  cases rest with
  | nil => simp [unescape]
  | cons next rest => rw [unescape, if_neg hb]

@[simp] theorem unescape_escape (data : List β) : c.unescape (c.escape data) = data := by
  induction data with
  | nil => rfl
  | cons b rest ih =>
    rw [escape]
    split
    next hb =>
      rw [unescape, if_pos rfl]
      rcases hb with rfl | rfl
      · rw [if_neg c.code_ne.symm, if_pos rfl, ih]
      · rw [if_pos rfl, ih]
    next hb => rw [unescape_cons_of_ne c (fun h => hb (.inl h)), ih]

end Stuffing

/-! ### Taking a stream in pieces -/

/-- Takes pieces of a stream one after the other. -/
def feedAll (feed : σ → List β → σ × List φ) (s : σ) : List (List β) → σ × List φ
  | [] => (s, [])
  | chunk :: chunks =>
    let (s, frames) := feed s chunk
    let (s, later) := feedAll feed s chunks
    (s, frames ++ later)

/-- Two pieces of a stream are taken as if they were one. -/
def ChunkIndependent (feed : σ → List β → σ × List φ) : Prop :=
  ∀ s a b, feed s (a ++ b) = ((feed (feed s a).1 b).1, (feed s a).2 ++ (feed (feed s a).1 b).2)

/-- From a state, the frames of admissible items are read back from any pieces, behind at most one
frame that was left over. -/
def Resynchronises (feed : σ → List β → σ × List φ) (s : σ) (admissible : ι → Prop)
    (frame : ι → List β) (result : ι → φ) : Prop :=
  ∀ items : List ι, (∀ item ∈ items, admissible item) →
    ∀ chunks : List (List β), chunks.flatten = items.flatMap frame →
      ∃ leftover : List φ, leftover.length ≤ 1 ∧
        (feedAll feed s chunks).2 = leftover ++ items.map result

theorem ChunkIndependent.feedAll_eq {feed : σ → List β → σ × List φ} (h : ChunkIndependent feed)
    (hnil : ∀ s, feed s [] = (s, [])) (s : σ) (chunks : List (List β)) :
    feedAll feed s chunks = feed s chunks.flatten := by
  induction chunks generalizing s with
  | nil => exact (hnil s).symm
  | cons chunk chunks ih =>
    rw [flatten_cons, h]
    simp only [feedAll, ih]

/-- What becomes of symbols that hold no flag, and of a flag behind them. Symbols may be taken in
two steps. -/
structure Scanner (β σ φ : Type*) where
  flag : β
  append : σ → List β → σ
  close : σ → σ × List φ
  append_append : ∀ s x y, append s (x ++ y) = append (append s x) y

namespace Scanner

variable [DecidableEq β] (m : Scanner β σ φ)

/-- The loop over a piece of the stream: `chunk` holds the symbols since the last flag. Those behind
the last flag of the piece are taken at its end, if there are any. -/
def scan (s : σ) (chunk : List β) : List β → σ × List φ
  | [] => (if chunk.isEmpty then s else m.append s chunk, [])
  | b :: rest =>
    if b = m.flag then
      let (s, frames) := m.close (m.append s chunk)
      let (s, later) := scan s [] rest
      (s, frames ++ later)
    else scan s (chunk ++ [b]) rest

/-- Takes a piece of the stream and gives the frames that end in it. -/
def feed (s : σ) (data : List β) : σ × List φ := m.scan s [] data

variable {m} {s : σ}

/-- Symbols without a flag may be appended before the rest is looked at. -/
theorem scan_append_chunk {x : List β} (hx : x ≠ []) (chunk data : List β) :
    m.scan s (x ++ chunk) data = m.scan (m.append s x) chunk data := by
  induction data generalizing chunk with
  | nil =>
    cases chunk with
    | nil => simp [scan, hx]
    | cons b rest => simp [scan, m.append_append]
  | cons b rest ih =>
    by_cases hb : b = m.flag
    · simp only [scan, hb, if_true, m.append_append]
    · simp only [scan, hb, if_false, append_assoc]
      exact ih (chunk ++ [b])

/-- The loop over two pieces. -/
theorem scan_append (chunk a b : List β) :
    m.scan s chunk (a ++ b) = ((m.feed (m.scan s chunk a).1 b).1,
      (m.scan s chunk a).2 ++ (m.feed (m.scan s chunk a).1 b).2) := by
  induction a generalizing s chunk with
  | nil =>
    cases chunk with
    | nil => rfl
    | cons x chunk =>
      have h := scan_append_chunk (m := m) (s := s) (cons_ne_nil x chunk) [] b
      rw [append_nil] at h
      rw [nil_append, h]
      rfl
  | cons y a ih =>
    by_cases hy : y = m.flag
    · simp only [cons_append, scan, hy, if_true, ih, append_assoc]
    · simp only [cons_append, scan, hy, if_false, ih]

theorem chunkIndependent (m : Scanner β σ φ) : ChunkIndependent m.feed :=
  fun _ a b => scan_append [] a b

/-- What holds of every state that symbols and flags lead to holds after a piece of the stream. -/
theorem feed_invariant {I : σ → Prop} (happend : ∀ s x, I s → I (m.append s x))
    (hclose : ∀ s, I s → I (m.close s).1) (hs : I s) (data : List β) : I (m.feed s data).1 := by
  suffices h : ∀ data s chunk, I s → I (m.scan s chunk data).1 from h data s [] hs
  intro data
  induction data with
  | nil =>
    intro s chunk hs
    rw [scan]
    split
    · exact hs
    · exact happend s chunk hs
  | cons b rest ih =>
    intro s chunk hs
    rw [scan]
    split
    · exact ih _ _ (hclose _ (happend s chunk hs))
    · exact ih _ _ hs

/-- Symbols up to a flag. -/
theorem feed_body {body : List β} (hbody : m.flag ∉ body) (rest : List β) :
    m.feed s (body ++ m.flag :: rest) =
      ((m.feed (m.close (m.append s body)).1 rest).1,
        (m.close (m.append s body)).2 ++ (m.feed (m.close (m.append s body)).1 rest).2) := by
  suffices h : ∀ chunk, m.scan s chunk (body ++ m.flag :: rest) =
      ((m.feed (m.close (m.append s (chunk ++ body))).1 rest).1,
        (m.close (m.append s (chunk ++ body))).2 ++
          (m.feed (m.close (m.append s (chunk ++ body))).1 rest).2) from h []
  induction body with
  | nil =>
    intro chunk
    simp only [nil_append, scan, if_true, append_nil]
    rfl
  | cons b body ih =>
    intro chunk
    have hb : b ≠ m.flag := fun h => hbody (h ▸ mem_cons_self)
    rw [cons_append, scan, if_neg hb, ih fun h => hbody (mem_cons_of_mem _ h)]
    simp only [append_assoc, singleton_append]

/-- A state between two frames, from which bodies are read. -/
structure Reads (m : Scanner β σ φ) (idle : σ) (body : ι → List β) (result : ι → φ) (item : ι) :
    Prop where
  flag_not_mem : m.flag ∉ body item
  close_append : m.close (m.append idle (body item)) = (idle, [result item])

variable {body : ι → List β} {result : ι → φ} {idle : σ}

/-- A frame between two flags, behind what the first of them closes. -/
theorem feed_frame {item : ι} {leftover : List φ}
    (hopen : m.close (m.append s []) = (idle, leftover)) (hitem : m.Reads idle body result item)
    (rest : List β) :
    m.feed s ((m.flag :: body item ++ [m.flag]) ++ rest) =
      ((m.feed idle rest).1, leftover ++ result item :: (m.feed idle rest).2) := by
  have hfirst := feed_body (m := m) (s := s) (not_mem_nil (a := m.flag))
    (body item ++ m.flag :: rest)
  rw [nil_append, hopen] at hfirst
  rw [cons_append, cons_append, append_assoc, singleton_append, hfirst]
  simp only [feed_body hitem.flag_not_mem, hitem.close_append, singleton_append]

/-- Frames of items, from the state between frames. -/
theorem feed_frames (hidle : m.close (m.append idle []) = (idle, [])) {items : List ι}
    (hitems : ∀ item ∈ items, m.Reads idle body result item) :
    m.feed idle (items.flatMap fun item => m.flag :: body item ++ [m.flag]) =
      (idle, items.map result) := by
  induction items with
  | nil => rfl
  | cons item items ih =>
    rw [flatMap_cons, feed_frame hidle (hitems item mem_cons_self),
      ih fun item h => hitems item (mem_cons_of_mem _ h)]
    rfl

/-- A scanner reads the frames of items back from every state that a flag takes to the state between
frames, with at most one frame in front. -/
theorem resynchronises {admissible : ι → Prop} (hidle : m.close (m.append idle []) = (idle, []))
    (hopen : ∃ leftover, leftover.length ≤ 1 ∧ m.close (m.append s []) = (idle, leftover))
    (hreads : ∀ item, admissible item → m.Reads idle body result item) :
    Resynchronises m.feed s admissible (fun item => m.flag :: body item ++ [m.flag]) result := by
  intro items hitems chunks hchunks
  rw [m.chunkIndependent.feedAll_eq (fun _ => rfl), hchunks]
  cases items with
  | nil => exact ⟨[], Nat.zero_le 1, rfl⟩
  | cons item items =>
    obtain ⟨leftover, hlength, hleft⟩ := hopen
    have hrest := feed_frames hidle fun item h => hreads item (hitems item (mem_cons_of_mem _ h))
    refine ⟨leftover, hlength, ?_⟩
    rw [flatMap_cons, feed_frame hleft (hreads item (hitems item mem_cons_self)), hrest]
    rfl

end Scanner

end Reticulum
