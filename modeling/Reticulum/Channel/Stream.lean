import Reticulum.Channel.Envelope
import Reticulum.Resource.Basic

/-!
# Byte streams over a channel

The frames of `stream_data.rs` and the reader and writer of `buffer.rs`, both of the
`rns-protocol` crate. A writer cuts bytes into frames, compressing a chunk when that pays; a reader
queues the bytes of the decoded frames.

The loop of the writer takes a number of iterations as fuel; with room in the frames, as many as there
are bytes suffice.

## Main definitions

* `StreamDataMessage` with `pack`, `unpack`.
* `StreamWriter` with `write`, `StreamReader` with `feed`, `read`, `readAll`.
* `ReaderCall`, `StreamReader.after`, `StreamReader.yielded` — sequences of calls on a reader.

## Main results

* `StreamWriter.write_eq` — the frames of the writer stand for consecutive chunks of the data.
* `StreamReader.after_spec` — a reader returns the bytes it was fed, in order.
* `stream_round_trip`.
-/

namespace Reticulum

open List

open Resource (Bzip2 bz2Compress bz2Decompress)

/-! ### Frames -/

/-- `STREAM_ID_MAX`. -/
def streamIdMax : UInt16 := 0x3FFF

/-- `MAX_CHUNK_LEN`. -/
def maxChunkLen : ℕ := 16384

/-- `StreamDataMessage`. -/
structure StreamDataMessage where
  streamId : UInt16
  eof : Bool
  compressed : Bool
  data : Bytes
  deriving DecidableEq, Repr

namespace StreamDataMessage

/-- `StreamDataMessage::new`. -/
def new (streamId : UInt16) (data : Bytes) (eof : Bool) : StreamDataMessage where
  streamId := streamId &&& streamIdMax
  eof := eof
  compressed := false
  data := data

/-- `StreamDataMessage::header_value`. -/
def headerValue (m : StreamDataMessage) : UInt16 :=
  let val := m.streamId &&& streamIdMax
  let val := if m.eof then val ||| 0x8000 else val
  if m.compressed then val ||| 0x4000 else val

/-- `StreamDataMessage::parse_header`: the stream, the end flag and the compression flag. -/
def parseHeader (val : UInt16) : UInt16 × Bool × Bool :=
  (val &&& streamIdMax, val &&& 0x8000 != 0, val &&& 0x4000 != 0)

/-- `StreamDataMessage::pack`. -/
def pack (m : StreamDataMessage) : Bytes := be16 m.headerValue ++ m.data

/-- `StreamDataMessage::unpack`. The header is stored before the payload is decoded. -/
def unpack [Bzip2] (self : StreamDataMessage) (raw : Bytes) :
    StreamDataMessage × Except ChannelMessageError Unit :=
  match raw with
  | h0 :: h1 :: payload =>
    let (streamId, eof, compressed) := parseHeader (ofBe16 h0 h1)
    let self := { self with streamId, eof, compressed }
    if compressed && !payload.isEmpty then
      match bz2Decompress payload maxChunkLen with
      | .ok data => ({ self with data }, .ok ())
      | .error _ => (self, .error .unpackFailed)
    else ({ self with data := payload }, .ok ())
  | _ => (self, .error .tooShort)

theorem parseHeader_headerValue (m : StreamDataMessage) :
    parseHeader m.headerValue = (m.streamId &&& streamIdMax, m.eof, m.compressed) := by
  -- The three fields of the header do not overlap.
  have hidEof : (0x3FFF : UInt16) &&& 0x8000 = 0 := rfl
  have hidFlag : (0x3FFF : UInt16) &&& 0x4000 = 0 := rfl
  have heofId : (0x8000 : UInt16) &&& 0x3FFF = 0 := rfl
  have heofFlag : (0x8000 : UInt16) &&& 0x4000 = 0 := rfl
  have hflagId : (0x4000 : UInt16) &&& 0x3FFF = 0 := rfl
  have hflagEof : (0x4000 : UInt16) &&& 0x8000 = 0 := rfl
  cases heof : m.eof <;> cases hcompressed : m.compressed <;>
    simp [parseHeader, headerValue, heof, hcompressed, streamIdMax, UInt16.or_and_distrib,
      UInt16.and_assoc, hidEof, hidFlag, heofId, heofFlag, hflagId, hflagEof]

section

variable [Bzip2] (blank : StreamDataMessage) {m : StreamDataMessage}

/-- A raw frame decodes to itself. -/
theorem unpack_pack_raw (hid : m.streamId &&& streamIdMax = m.streamId)
    (hraw : m.compressed = false) : blank.unpack m.pack = (m, .ok ()) := by
  obtain ⟨streamId, eof, compressed, data⟩ := m
  dsimp only at hid hraw
  subst hraw
  simp only [pack, unpack, be16, cons_append, nil_append, ofBe16_be16,
    parseHeader_headerValue, hid, Bool.false_and, Bool.false_eq_true, if_false]

/-- A compressed frame decodes to the bytes that were compressed. -/
theorem unpack_pack_compressed (hbz : Bzip2.Lossless) (hheader : Bzip2.HasHeader) {chunk : Bytes}
    (hid : m.streamId &&& streamIdMax = m.streamId) (hcompressed : m.compressed = true)
    (hdata : bz2Compress chunk = .ok m.data) (hchunk : chunk.length ≤ maxChunkLen) :
    blank.unpack m.pack = ({ m with data := chunk }, .ok ()) := by
  obtain ⟨streamId, eof, compressed, data⟩ := m
  dsimp only at hid hcompressed hdata ⊢
  subst hcompressed
  have hcompress : Bzip2.compress chunk = some data := by
    unfold bz2Compress at hdata
    split at hdata
    · cases hdata
      assumption
    · cases hdata
  have hne : data.isEmpty = false := by simpa using hheader chunk data hcompress
  simp only [pack, unpack, be16, cons_append, nil_append, ofBe16_be16,
    parseHeader_headerValue, hid, hne, bz2Decompress, hbz chunk data hcompress,
    Nat.not_lt.mpr hchunk, Bool.not_false, Bool.and_self, if_true, if_false]

end

end StreamDataMessage

/-! ### The writer -/

/-- `COMPRESSION_TRIES`. -/
def compressionTries : ℕ := 4

/-- `BufferError`. -/
inductive BufferError
  | writerClosed
  deriving DecidableEq, Repr

/-- `StreamWriter`. -/
structure StreamWriter where
  streamId : UInt16
  maxDataLen : ℕ
  closed : Bool
  deriving DecidableEq, Repr

namespace StreamWriter

/-- `StreamWriter::new`. -/
def new (streamId : UInt16) (maxDataLen : ℕ) : StreamWriter where
  streamId := streamId &&& streamIdMax
  maxDataLen := maxDataLen
  closed := false

/-- A raw chunk: as many bytes as a frame may hold. -/
def rawChunk (w : StreamWriter) (chunk : Bytes) : Bytes × ℕ × Bool :=
  let sendLen := min chunk.length w.maxDataLen
  (chunk.take sendLen, sendLen, false)

/-- `StreamWriter::close_simple`: the closed writer and the frame that ends the stream. -/
def closeSimple (w : StreamWriter) : StreamWriter × StreamDataMessage :=
  ({ w with closed := true }, .new w.streamId [] true)

variable [Bzip2]

/-- The loop over the compression tries of `StreamWriter::try_compress_chunk`. -/
def compressTries (w : StreamWriter) (chunk : Bytes) : List ℕ → Option (Bytes × ℕ × Bool)
  | [] => none
  | compTry :: compTries =>
    let segmentLen := chunk.length / compTry
    if segmentLen ≤ 32 then none
    else
      match bz2Compress (chunk.take segmentLen) with
      | .ok compressed =>
        if compressed.length < w.maxDataLen ∧ compressed.length < segmentLen then
          some (compressed, segmentLen, true)
        else w.compressTries chunk compTries
      | .error _ => w.compressTries chunk compTries

/-- `StreamWriter::try_compress_chunk`: the data of the frame, how many bytes of the chunk it
stands for, and whether it is compressed. -/
def tryCompressChunk (w : StreamWriter) (chunk : Bytes) : Bytes × ℕ × Bool :=
  if chunk.length ≤ 32 then w.rawChunk chunk
  else (w.compressTries chunk (List.range' 1 (compressionTries - 1))).getD (w.rawChunk chunk)

/-- The loop of `StreamWriter::write`; `none` when the fuel is used up. -/
def writeLoop (w : StreamWriter) (data : Bytes) :
    ℕ → ℕ → List StreamDataMessage → Option (List StreamDataMessage)
  | 0, offset, messages => if offset < data.length then none else some messages
  | fuel + 1, offset, messages =>
    if offset < data.length then
      let remaining := data.drop offset
      let chunk := remaining.take (min remaining.length maxChunkLen)
      let (msgData, consumed, compressed) := w.tryCompressChunk chunk
      let msg := { StreamDataMessage.new w.streamId msgData false with compressed }
      w.writeLoop data fuel (offset + consumed) (messages ++ [msg])
    else some messages

/-- `StreamWriter::write` with fuel. -/
def write (w : StreamWriter) (data : Bytes) (fuel : ℕ) :
    Option (Except BufferError (List StreamDataMessage)) :=
  if w.closed then some (.error .writerClosed)
  else if data.isEmpty then some (.ok [])
  else (w.writeLoop data fuel 0 []).map .ok

/-- The chunk that a frame of the writer stands for. -/
def Stands (w : StreamWriter) (chunk : Bytes) (m : StreamDataMessage) : Prop :=
  m.streamId = w.streamId &&& streamIdMax ∧ m.eof = false ∧ m.data.length ≤ w.maxDataLen ∧
    chunk.length ≤ maxChunkLen ∧
    (m.compressed = false ∧ m.data = chunk ∨ m.compressed = true ∧ bz2Compress chunk = .ok m.data)

variable {w : StreamWriter} {chunk : Bytes} {d : Bytes} {c : Bool} {n : ℕ}

theorem compressTries_eq_some {tries : List ℕ} (h : w.compressTries chunk tries = some (d, n, c)) :
    0 < n ∧ n ≤ chunk.length ∧ d.length ≤ w.maxDataLen ∧ c = true ∧
      bz2Compress (chunk.take n) = .ok d := by
  induction tries with
  | nil => cases h
  | cons compTry tries ih =>
    simp only [compressTries] at h
    split_ifs at h with hshort
    split at h
    · rename_i compressed hcompressed
      split_ifs at h with hfits
      · cases h
        exact ⟨by omega, Nat.div_le_self _ _, hfits.1.le, rfl, hcompressed⟩
      · exact ih h
    · exact ih h

omit [Bzip2] in
theorem rawChunk_spec (hmax : 0 < w.maxDataLen) (hchunk : chunk ≠ [])
    (h : w.rawChunk chunk = (d, n, c)) :
    0 < n ∧ n ≤ chunk.length ∧ d.length ≤ w.maxDataLen ∧ c = false ∧ d = chunk.take n := by
  cases h
  have hpos := length_pos_iff.mpr hchunk
  refine ⟨lt_min hpos hmax, min_le_left _ _, ?_, rfl, rfl⟩
  rw [length_take]
  omega

/-- A try takes at least one byte, and what it returns stands for the bytes it takes. -/
theorem tryCompressChunk_spec (hmax : 0 < w.maxDataLen) (hchunk : chunk ≠ [])
    (h : w.tryCompressChunk chunk = (d, n, c)) :
    0 < n ∧ n ≤ chunk.length ∧ d.length ≤ w.maxDataLen ∧
      (c = false ∧ d = chunk.take n ∨ c = true ∧ bz2Compress (chunk.take n) = .ok d) := by
  unfold tryCompressChunk at h
  split_ifs at h
  · obtain ⟨hpos, hle, hlen, hraw⟩ := rawChunk_spec hmax hchunk h
    exact ⟨hpos, hle, hlen, .inl hraw⟩
  · cases htries : w.compressTries chunk (List.range' 1 (compressionTries - 1)) with
    | none =>
      rw [htries] at h
      obtain ⟨hpos, hle, hlen, hraw⟩ := rawChunk_spec hmax hchunk h
      exact ⟨hpos, hle, hlen, .inl hraw⟩
    | some r =>
      rw [htries] at h
      obtain ⟨hpos, hle, hlen, hcompressed⟩ := compressTries_eq_some (htries.trans (congrArg some h))
      exact ⟨hpos, hle, hlen, .inr hcompressed⟩

/-- With room in its frames the writer takes all of the data, whatever it has emitted before. -/
theorem writeLoop_eq (hmax : 0 < w.maxDataLen) (data : Bytes) {offset : ℕ}
    (hoffset : offset ≤ data.length) (messages : List StreamDataMessage) :
    ∃ chunks frames, chunks.flatten = data.drop offset ∧ List.Forall₂ w.Stands chunks frames ∧
      ∀ fuel, data.length - offset ≤ fuel →
        w.writeLoop data fuel offset messages = some (messages ++ frames) := by
  induction hrest : data.length - offset using Nat.strong_induction_on
    generalizing offset messages with
  | _ rest ih =>
    by_cases hend : offset < data.length
    · let remaining := data.drop offset
      let chunk := remaining.take (min remaining.length maxChunkLen)
      have hremaining : remaining.length = data.length - offset := length_drop
      have hlength : chunk.length = min remaining.length maxChunkLen := by simp [chunk]
      have hcap : 0 < maxChunkLen := by decide
      have hchunk : chunk ≠ [] := ne_nil_of_length_pos (by omega)
      obtain ⟨d, n, c, htry⟩ : ∃ d n c, w.tryCompressChunk chunk = (d, n, c) := ⟨_, _, _, rfl⟩
      obtain ⟨hpos, hle, hlen, hstands⟩ := tryCompressChunk_spec hmax hchunk htry
      obtain ⟨chunks, frames, hflatten, hframes, hloop⟩ := ih (data.length - (offset + n)) (by omega)
        (by omega) (messages ++ [{ StreamDataMessage.new w.streamId d false with compressed := c }])
        rfl
      refine ⟨chunk.take n :: chunks, { StreamDataMessage.new w.streamId d false with
        compressed := c } :: frames, ?_, .cons ⟨rfl, rfl, hlen, ?_, hstands⟩ hframes, ?_⟩
      · have hhead : chunk.take n = remaining.take n := by
          rw [take_take, min_eq_left (hle.trans_eq hlength)]
        rw [flatten_cons, hflatten, hhead, ← drop_drop, take_append_drop]
      · rw [length_take]
        omega
      · intro fuel hfuel
        obtain ⟨fuel, rfl⟩ : ∃ k, fuel = k + 1 := ⟨fuel - 1, by omega⟩
        rw [writeLoop, if_pos hend]
        simp only [remaining, chunk] at htry
        simp only [htry]
        rw [hloop fuel (by omega), append_assoc]
        rfl
    · refine ⟨[], [], ?_, .nil, fun fuel _ => ?_⟩
      · rw [drop_of_length_le (by omega)]
        rfl
      · cases fuel with
        | zero => rw [writeLoop, if_neg hend, append_nil]
        | succ fuel => rw [writeLoop, if_neg hend, append_nil]

/-- A writer emits frames that stand for consecutive chunks of the data. -/
theorem write_eq (hopen : w.closed = false) (hmax : 0 < w.maxDataLen) (data : Bytes) :
    ∃ chunks frames, chunks.flatten = data ∧ List.Forall₂ w.Stands chunks frames ∧
      ∀ fuel, data.length ≤ fuel → w.write data fuel = some (.ok frames) := by
  obtain ⟨chunks, frames, hflatten, hframes, hloop⟩ :=
    writeLoop_eq hmax data (Nat.zero_le _) ([] : List StreamDataMessage)
  refine ⟨chunks, frames, hflatten, hframes, fun fuel hfuel => ?_⟩
  rw [write, hopen, if_neg (by simp)]
  split_ifs with hempty
  · obtain rfl : data = [] := by simpa using hempty
    have hsome := hloop 0 (by simp)
    simp only [writeLoop, length_nil, lt_self_iff_false, if_false, nil_append] at hsome
    rw [Option.some.inj hsome]
  · rw [hloop fuel (by omega)]
    rfl

end StreamWriter

/-! ### The reader -/

/-- `StreamReader`. -/
structure StreamReader where
  streamId : UInt16
  buffer : Bytes
  eof : Bool
  deriving DecidableEq, Repr

/-- The calls on a reader. -/
inductive ReaderCall
  | feed (msg : StreamDataMessage)
  | read (size : ℕ)
  | readAll
  deriving DecidableEq, Repr

namespace ReaderCall

/-- The frame that a call feeds. -/
def frame : ReaderCall → Option StreamDataMessage
  | feed msg => some msg
  | _ => none

/-- The frames that a sequence of calls feeds, in order. -/
def fed (calls : List ReaderCall) : List StreamDataMessage := calls.filterMap frame

/-- The call asks for at least one byte. A read of no bytes is no test for the end of the stream. -/
def Asks : ReaderCall → Prop
  | feed _ => False
  | read size => 0 < size
  | readAll => True

end ReaderCall

open ReaderCall

namespace StreamReader

/-- `StreamReader::new`. -/
def new (streamId : UInt16) : StreamReader where
  streamId := streamId &&& streamIdMax
  buffer := []
  eof := false

/-- `StreamReader::feed`. -/
def feed (r : StreamReader) (msg : StreamDataMessage) : StreamReader × Bool :=
  if msg.streamId ≠ r.streamId then (r, false)
  else
    let r := if !msg.data.isEmpty then { r with buffer := r.buffer ++ msg.data } else r
    let r := if msg.eof then { r with eof := true } else r
    (r, true)

/-- `StreamReader::read`. -/
def read (r : StreamReader) (size : ℕ) : StreamReader × Option Bytes :=
  if r.buffer.isEmpty then (r, if r.eof then some [] else none)
  else
    let n := min size r.buffer.length
    ({ r with buffer := r.buffer.drop n }, some (r.buffer.take n))

/-- `StreamReader::read_all`. -/
def readAll (r : StreamReader) : StreamReader × Option Bytes :=
  if r.buffer.isEmpty then (r, if r.eof then some [] else none)
  else ({ r with buffer := [] }, some r.buffer)

/-- `StreamReader::is_done`. -/
def isDone (r : StreamReader) : Bool := r.eof && r.buffer.isEmpty

/-- A call on a reader, with the bytes that it returns. -/
def call (r : StreamReader) : ReaderCall → StreamReader × Option Bytes
  | .feed msg => ((r.feed msg).1, none)
  | .read size => r.read size
  | .readAll => r.readAll

/-- The reader after a sequence of calls. -/
def after (r : StreamReader) (calls : List ReaderCall) : StreamReader :=
  calls.foldl (fun r c => (r.call c).1) r

/-- The bytes that a sequence of calls returns. -/
def yielded (r : StreamReader) : List ReaderCall → Bytes
  | [] => []
  | c :: calls => (r.call c).2.getD [] ++ (r.call c).1.yielded calls

variable {r : StreamReader}

theorem after_append (r : StreamReader) (calls calls' : List ReaderCall) :
    r.after (calls ++ calls') = (r.after calls).after calls' :=
  foldl_append

theorem yielded_append (r : StreamReader) (calls calls' : List ReaderCall) :
    r.yielded (calls ++ calls') = r.yielded calls ++ (r.after calls).yielded calls' := by
  induction calls generalizing r with
  | nil => rfl
  | cons c calls ih =>
    rw [cons_append, yielded, yielded, ih, append_assoc]
    rfl

theorem feed_of_streamId_eq {msg : StreamDataMessage} (hid : msg.streamId = r.streamId) :
    (r.feed msg).1 =
      { r with buffer := r.buffer ++ msg.data, eof := r.eof || msg.eof } := by
  rw [feed, if_neg (not_not_intro hid)]
  by_cases hdata : msg.data = []
  · by_cases heof : msg.eof
    · simp [hdata, heof]
    · simp [hdata, heof]
  · by_cases heof : msg.eof
    · simp [hdata, heof]
    · simp [hdata, heof]

/-- A read moves bytes from the front of the buffer to the caller. -/
theorem read_spec (r : StreamReader) (size : ℕ) :
    (r.read size).1 = { r with buffer := r.buffer.drop size } ∧
      (r.read size).2.getD [] = r.buffer.take size := by
  by_cases hempty : r.buffer = []
  · rw [read, if_pos (isEmpty_iff.mpr hempty), hempty, drop_nil, take_nil]
    refine ⟨by rw [← hempty], ?_⟩
    by_cases heof : r.eof
    · rw [if_pos heof]
      rfl
    · rw [if_neg heof]
      rfl
  · rw [read, if_neg (mt List.isEmpty_iff.mp hempty)]
    refine ⟨?_, (take_eq_take_min).symm⟩
    rw [drop_eq_drop_min]

/-- Reading all is a read of the size of the buffer. -/
theorem readAll_eq_read (r : StreamReader) : r.readAll = r.read r.buffer.length := by
  by_cases hempty : r.buffer = []
  · rw [readAll, read, if_pos (isEmpty_iff.mpr hempty), if_pos (isEmpty_iff.mpr hempty)]
  · rw [readAll, read, if_neg (mt List.isEmpty_iff.mp hempty),
      if_neg (mt List.isEmpty_iff.mp hempty)]
    dsimp only
    rw [min_self, drop_length, take_length]

/-- What a call does when its frame is of the stream. -/
theorem call_spec (c : ReaderCall) (hid : ∀ msg ∈ c.frame, msg.streamId = r.streamId) :
    (r.call c).1.streamId = r.streamId ∧
      (r.call c).1.eof = (r.eof || (c.frame.any fun msg => msg.eof)) ∧
      (r.call c).2.getD [] ++ (r.call c).1.buffer =
        r.buffer ++ (c.frame.elim [] fun msg => msg.data) := by
  have hread (size : ℕ) : (r.read size).1.streamId = r.streamId ∧
      (r.read size).1.eof = (r.eof || false) ∧
      (r.read size).2.getD [] ++ (r.read size).1.buffer = r.buffer ++ [] := by
    obtain ⟨hreader, hbytes⟩ := r.read_spec size
    rw [hreader, hbytes, Bool.or_false, take_append_drop, append_nil]
    exact ⟨rfl, rfl, rfl⟩
  cases c with
  | feed msg =>
    rw [call, feed_of_streamId_eq (hid msg rfl)]
    exact ⟨rfl, rfl, rfl⟩
  | read size => exact hread size
  | readAll =>
    rw [call, readAll_eq_read]
    exact hread _

/-- A reader returns the bytes it was fed, in order, and keeps the rest; it knows of the end of the
stream once it was told. -/
theorem after_spec (calls : List ReaderCall)
    (hid : ∀ msg ∈ fed calls, msg.streamId = r.streamId) :
    (r.after calls).eof = (r.eof || (fed calls).any fun msg => msg.eof) ∧
      r.yielded calls ++ (r.after calls).buffer =
        r.buffer ++ ((fed calls).map fun msg => msg.data).flatten := by
  induction calls generalizing r with
  | nil => simp [after, yielded, fed]
  | cons c calls ih =>
    have hhead : ∀ msg ∈ c.frame, msg.streamId = r.streamId := fun msg hmsg =>
      hid msg (mem_filterMap.mpr ⟨c, mem_cons_self, hmsg⟩)
    obtain ⟨hstream, heof, hbytes⟩ := call_spec c hhead
    have htail : ∀ msg ∈ fed calls, msg.streamId = (r.call c).1.streamId := by
      intro msg hmsg
      obtain ⟨c', hc', hframe⟩ := mem_filterMap.mp hmsg
      rw [hstream]
      exact hid msg (mem_filterMap.mpr ⟨c', mem_cons_of_mem _ hc', hframe⟩)
    obtain ⟨heofs, hall⟩ := ih htail
    have hfed : fed (c :: calls) = c.frame.toList ++ fed calls := by
      cases hframe : c.frame <;> simp [fed, hframe]
    rw [yielded, append_assoc, show r.after (c :: calls) = (r.call c).1.after calls from rfl,
      hall, ← append_assoc, hbytes, heofs, heof, hfed]
    cases c.frame with
    | none => simp
    | some msg => simp [Bool.or_assoc]

/-- Only an empty reader that was told of the end reports it. -/
theorem isDone_of_reports {c : ReaderCall} (hasks : c.Asks) (h : (r.call c).2 = some []) :
    r.isDone = true := by
  have hread {size : ℕ} (hsize : 0 < size ∨ size = r.buffer.length)
      (h : (r.read size).2 = some []) : r.isDone = true := by
    unfold read at h
    split_ifs at h with hempty heof
    · rw [isDone, heof, hempty]
      rfl
    · have hnone := take_eq_nil_iff.mp (Option.some.inj h)
      rw [List.isEmpty_iff] at hempty
      have hpos := length_pos_iff.mpr hempty
      rcases hnone with hnone | hnone
      · omega
      · exact absurd hnone hempty
  cases c with
  | feed msg => exact hasks.elim
  | read size => exact hread (.inl hasks) h
  | readAll =>
    rw [call, readAll_eq_read] at h
    exact hread (.inr rfl) h

/-- A sequence of reads takes as many bytes from the buffer as it asks for together. -/
theorem reads_spec (r : StreamReader) (sizes : List ℕ) :
    r.yielded (sizes.map .read) = r.buffer.take sizes.sum ∧
      r.after (sizes.map .read) = { r with buffer := r.buffer.drop sizes.sum } := by
  induction sizes generalizing r with
  | nil => exact ⟨by simp [yielded], by simp [after]⟩
  | cons size sizes ih =>
    obtain ⟨hreader, hbytes⟩ := r.read_spec size
    obtain ⟨hyield, hafter⟩ := ih (r.read size).1
    constructor
    · rw [map_cons, yielded, sum_cons, take_add]
      exact congrArg₂ _ hbytes (hyield.trans (by rw [hreader]))
    · refine hafter.trans ?_
      rw [hreader, sum_cons, drop_drop]

end StreamReader

open StreamReader

/-! ### Round trip -/

variable {w : StreamWriter}

/-- What decoding gives for a frame that stands for a chunk. -/
theorem StreamWriter.Stands.unpack_pack [Bzip2] {chunk : Bytes} {m : StreamDataMessage}
    (hbz : Bzip2.Lossless) (hheader : Bzip2.HasHeader) (h : w.Stands chunk m)
    (blank : StreamDataMessage) : blank.unpack m.pack = ({ m with data := chunk }, .ok ()) := by
  obtain ⟨hstream, -, -, hchunk, hdata⟩ := h
  have hid : m.streamId &&& streamIdMax = m.streamId := by
    rw [hstream, UInt16.and_assoc, UInt16.and_self]
  rcases hdata with ⟨hraw, rfl⟩ | ⟨hcompressed, hdata⟩
  · exact StreamDataMessage.unpack_pack_raw blank hid hraw
  · exact StreamDataMessage.unpack_pack_compressed blank hbz hheader hid hcompressed hdata hchunk

variable {frames : List StreamDataMessage} {chunks : List Bytes}

theorem StreamWriter.length_le_of_stands [Bzip2]
    (h : List.Forall₂ w.Stands chunks frames) : ∀ m ∈ frames, m.data.length ≤ w.maxDataLen := by
  induction h with
  | nil => simp
  | cons hm _ ih => exact forall_mem_cons.mpr ⟨hm.2.2.1, ih⟩

/-- Frames that stand for chunks decode to frames with the chunks. -/
theorem StreamWriter.exists_decoded [Bzip2] (hbz : Bzip2.Lossless) (hheader : Bzip2.HasHeader)
    (h : List.Forall₂ w.Stands chunks frames) (blank : StreamDataMessage) :
    ∃ decoded : List StreamDataMessage,
      frames.map (fun m => blank.unpack m.pack) = decoded.map (·, .ok ()) ∧
      (decoded.map fun m => m.data) = chunks ∧
      ∀ m ∈ decoded, m.eof = false ∧ m.streamId = w.streamId &&& streamIdMax := by
  induction h with
  | nil => exact ⟨[], rfl, rfl, by simp⟩
  | @cons chunk m chunks frames hm _ ih =>
    obtain ⟨decoded, hunpack, hdata, hflags⟩ := ih
    refine ⟨{ m with data := chunk } :: decoded, ?_, ?_, ?_⟩
    · rw [map_cons, map_cons, hunpack, hm.unpack_pack hbz hheader]
    · rw [map_cons, hdata]
    · rw [forall_mem_cons]
      exact ⟨⟨hm.2.1, hm.1⟩, hflags⟩

/-- A reader that knows of the end was fed with all frames, when only the last one carries it. -/
theorem StreamReader.fed_eq_of_eof {r : StreamReader} {calls done : List ReaderCall}
    {decoded : List StreamDataMessage} {last : StreamDataMessage} (hr : r.eof = false)
    (hfed : fed calls = decoded ++ [last])
    (hid : ∀ m ∈ decoded ++ [last], m.streamId = r.streamId)
    (hdecoded : ∀ m ∈ decoded, m.eof = false) (hdone : done <+: calls)
    (heof : (r.after done).eof = true) : fed done = decoded ++ [last] := by
  have hpre : fed done <+: decoded ++ [last] := hfed ▸ hdone.filterMap _
  rcases prefix_concat_iff.mp hpre with hall | hpart
  · exact hall
  · have hnone : (fed done).any (fun msg => msg.eof) = false := by
      rw [any_eq_false]
      intro m hm
      rw [hdecoded m (hpart.subset hm)]
      exact Bool.false_ne_true
    rw [(after_spec done fun m hm => hid m (hpre.subset hm)).1, hr, hnone] at heof
    cases heof

/-- **Streams.** Let the frames of a writer hold at least one byte. Then writing terminates, within
an iteration for each byte, with frames of at most that size; all frames decode, the one that ends
the stream too. However a reader is fed with the decoded frames in order and read from in between,
it returns the bytes of the data in order; it is done, or reports the end to a read of at least one
byte, only when it has returned all of them; and after the last frame any reads that ask for enough
bytes get all of the rest. -/
theorem stream_round_trip [Bzip2] (hbz : Bzip2.Lossless) (hheader : Bzip2.HasHeader)
    (streamId : UInt16) {maxDataLen : ℕ} (hmax : 0 < maxDataLen) (data : Bytes)
    (blank : StreamDataMessage) :
    ∃ messages received,
      (∀ fuel, data.length ≤ fuel →
        (StreamWriter.new streamId maxDataLen).write data fuel = some (.ok messages)) ∧
      (∀ m ∈ messages, m.data.length ≤ maxDataLen) ∧
      ((messages ++ [(StreamWriter.new streamId maxDataLen).closeSimple.2]).map fun m =>
        blank.unpack m.pack) = received.map (·, .ok ()) ∧
      ∀ calls, fed calls = received → (∀ done, done <+: calls →
          (new streamId).yielded done <+: data ∧
          (((new streamId).after done).isDone = true → (new streamId).yielded done = data) ∧
          ∀ c, done ++ [c] <+: calls → c.Asks →
            (((new streamId).after done).call c).2 = some [] →
            (new streamId).yielded done = data) ∧
        ∀ sizes : List ℕ, data.length ≤ sizes.sum →
          (new streamId).yielded (calls ++ sizes.map .read) = data ∧
          ((new streamId).after (calls ++ sizes.map .read)).isDone = true := by
  obtain ⟨chunks, messages, hflatten, hframes, hwrite⟩ :=
    StreamWriter.write_eq (w := .new streamId maxDataLen) rfl hmax data
  obtain ⟨decoded, hunpack, hdata, hflags⟩ :=
    StreamWriter.exists_decoded hbz hheader hframes blank
  let last : StreamDataMessage := (StreamWriter.new streamId maxDataLen).closeSimple.2
  have hlast : last.streamId = streamId &&& streamIdMax := by
    show streamId &&& streamIdMax &&& streamIdMax = streamId &&& streamIdMax
    rw [UInt16.and_assoc, UInt16.and_self]
  have hlastId : last.streamId &&& streamIdMax = last.streamId := by
    rw [hlast, UInt16.and_assoc, UInt16.and_self]
  have hid : ∀ m ∈ decoded ++ [last], m.streamId = (new streamId).streamId := by
    intro m hm
    rcases mem_append.mp hm with hm | hm
    · rw [(hflags m hm).2]
      exact hlast
    · rw [mem_singleton.mp hm]
      exact hlast
  have hbytes : ((decoded ++ [last]).map fun m => m.data).flatten = data := by
    rw [map_append, hdata, flatten_append, hflatten]
    exact append_nil data
  refine ⟨messages, decoded ++ [last], hwrite, ?_, ?_, fun calls hfed => ⟨fun done hdone => ?_,
    fun sizes hsizes => ?_⟩⟩
  · exact StreamWriter.length_le_of_stands hframes
  · rw [map_append, map_append, hunpack]
    simp only [map_cons, map_nil]
    rw [StreamDataMessage.unpack_pack_raw blank hlastId rfl]
  · have hpre : fed done <+: decoded ++ [last] := hfed ▸ hdone.filterMap _
    obtain ⟨-, hyield⟩ := after_spec done fun m hm => hid m (hpre.subset hm)
    have hpart : (new streamId).yielded done <+: data := by
      obtain ⟨rest, hrest⟩ := hpre
      rw [← hbytes, ← hrest, map_append, flatten_append]
      have hsofar : (new streamId).yielded done ++ ((new streamId).after done).buffer =
            ((fed done).map fun m => m.data).flatten := hyield
      rw [← hsofar, append_assoc]
      exact prefix_append _ _
    have hend (h : ((new streamId).after done).isDone = true) :
        (new streamId).yielded done = data := by
      rw [isDone, Bool.and_eq_true, List.isEmpty_iff] at h
      have hall := fed_eq_of_eof rfl hfed hid (fun m hm => (hflags m hm).1) hdone h.1
      rw [h.2, hall, hbytes, append_nil] at hyield
      exact hyield
    exact ⟨hpart, hend, fun c _ hasks hreport =>
      hend (isDone_of_reports hasks hreport)⟩
  · obtain ⟨heof, hyield⟩ := after_spec calls fun m hm => hid m (hfed ▸ hm)
    obtain ⟨hreads, hafter⟩ := ((new streamId).after calls).reads_spec sizes
    rw [hfed, hbytes] at hyield
    have hshort : ((new streamId).after calls).buffer.length ≤ sizes.sum := by
      have hlength : _ = data.length := congrArg List.length hyield
      rw [length_append] at hlength
      omega
    constructor
    · rw [yielded_append, hreads, take_of_length_le hshort]
      exact hyield
    · rw [after_append, hafter, isDone, drop_of_length_le hshort]
      simp [heof, hfed, last, StreamWriter.closeSimple, StreamDataMessage.new]

/-- Three bytes in frames of at most two: the reader returns the first byte before the second frame
comes, and the other two after the end of the stream. -/
theorem stream_round_trip_three :
    letI : Bzip2 := ⟨fun _ => none, fun _ => ([], false)⟩
    (StreamWriter.new 7 2).write [1, 2, 3] 3 =
        some (.ok [⟨7, false, false, [1, 2]⟩, ⟨7, false, false, [3]⟩]) ∧
      (new 7).yielded ([.feed ⟨7, false, false, [1, 2]⟩, .read 1,
        .feed ⟨7, false, false, [3]⟩, .feed ⟨7, true, false, []⟩] ++ [5].map .read) = [1, 2, 3] := by
  let _ : Bzip2 := ⟨fun _ => none, fun _ => ([], false)⟩
  obtain ⟨messages, received, hwrite, -, hunpack, hread⟩ :=
    stream_round_trip (by rintro _ _ ⟨⟩) (by rintro _ _ ⟨⟩) 7 (by decide : 0 < 2) [1, 2, 3]
      (.new 0 [] false)
  have hmessages : [⟨7, false, false, [1, 2]⟩, ⟨7, false, false, [3]⟩] = messages :=
    Except.ok.inj (Option.some.inj ((show _ = _ by decide +kernel).trans (hwrite 3 (by decide))))
  subst hmessages
  have hreceived : _ = received := (congrArg (List.map Prod.fst) hunpack).trans
    ((map_map).trans (map_id received))
  have hfed : fed [.feed ⟨7, false, false, [1, 2]⟩, .read 1,
      .feed ⟨7, false, false, [3]⟩, .feed ⟨7, true, false, []⟩] = received := by
    rw [← hreceived]
    decide +kernel
  exact ⟨hwrite 3 (by decide), ((hread _ hfed).2 [5] (by decide)).1⟩

end Reticulum
