import Reticulum.Interface.Hdlc

/-!
# KISS framing

The framing of the radio interfaces: a frame end, a command, the escaped payload, and a frame end.
The deframer takes the first byte behind a frame end for the command. Like that of HDLC it takes a
stream in pieces of any size, and reads frames back once it has seen the end of what it was in.

## Main definitions

* `Kiss.escape`, `Kiss.unescape`, `Kiss.frameWithCommand` — the framing of a payload.
* `RawKissDeframer`, `KissDeframer` — the deframer for whole command bytes, and that for commands
  with a port.

## Main results

* `RawKissDeframer.Reachable.resynchronises` — frames are read back with their commands.
* `deframing` — the deframers do not depend on the pieces of the stream and resynchronise.
-/

namespace Reticulum

open List

namespace Kiss

/-- `FEND`. -/
def fend : UInt8 := 0xC0

/-- `FESC`. -/
def fesc : UInt8 := 0xDB

/-- `TFEND`. -/
def tfend : UInt8 := 0xDC

/-- `TFESC`. -/
def tfesc : UInt8 := 0xDD

/-- `CMD_DATA`. -/
def cmdData : UInt8 := 0x00

/-- `CMD_MASK`. -/
def cmdMask : UInt8 := 0x0F

/-- `MAX_FRAME_SIZE`. -/
def maxFrameSize : ℕ := 524288

/-- Behind an escape, frame ends and escapes have bytes of their own. -/
def stuffing : Stuffing UInt8 where
  flag := fend
  esc := fesc
  code b := if b = fend then tfend else tfesc
  esc_ne_flag := by decide
  code_flag_ne := by decide
  code_esc_ne := by decide
  code_ne := by decide

/-- `escape`, and what `escape_into` appends. -/
def escape (data : Bytes) : Bytes := stuffing.escape data

/-- `unescape`, and what `unescape_into` appends. -/
def unescape (data : Bytes) : Bytes := stuffing.unescape data

/-- `frame_with_command`, and what `frame_with_command_into` appends. -/
def frameWithCommand (cmd : UInt8) (data : Bytes) : Bytes := fend :: (cmd :: escape data) ++ [fend]

/-- `frame`, and what `frame_into` appends. -/
def frame (data : Bytes) : Bytes := fend :: cmdData :: escape data ++ [fend]

example (data : Bytes) : frame data = frameWithCommand cmdData data := rfl

end Kiss

open Kiss

/-- `RawKissDeframer`. -/
structure RawKissDeframer where
  buffer : Bytes
  inFrame : Bool
  command : Option UInt8
  unescapeScratch : Bytes
deriving DecidableEq

namespace RawKissDeframer

/-- `RawKissDeframer::new`. -/
def new : RawKissDeframer := ⟨[], false, none, []⟩

/-- The part of `append_in_frame` behind the command. -/
def appendPayload (d : RawKissDeframer) (chunk : Bytes) : RawKissDeframer :=
  if maxFrameSize < d.buffer.length + chunk.length then
    { d with buffer := [], inFrame := false, command := none }
  else { d with buffer := d.buffer ++ chunk }

/-- `RawKissDeframer::append_in_frame`. -/
def appendInFrame (d : RawKissDeframer) (chunk : Bytes) : RawKissDeframer :=
  match d.command, chunk with
  | none, [] => d
  | none, first :: rest => appendPayload { d with command := some first } rest
  | some _, chunk => d.appendPayload chunk

/-- Bytes without a frame end count inside a frame only. -/
def take (d : RawKissDeframer) (chunk : Bytes) : RawKissDeframer :=
  if d.inFrame then d.appendInFrame chunk else d

/-- A frame end, once the bytes before it are taken: it ends a frame, if one is in progress, and begins
the next. A frame that was dropped for its size has left nothing in the buffer. -/
def close (d : RawKissDeframer) : RawKissDeframer × List (UInt8 × Bytes) :=
  if d.inFrame then
    if d.buffer.isEmpty then ({ d with buffer := [], command := none }, [])
    else
      ({ d with buffer := [], command := none, unescapeScratch := [] },
        d.command.toList.map fun command => (command, unescape d.buffer))
  else ({ d with inFrame := true, command := none }, [])

variable (d : RawKissDeframer)

theorem appendPayload_append (hin : d.inFrame = true) (x y : Bytes) (hcommand : d.command.isSome) :
    d.appendPayload (x ++ y) = (d.appendPayload x).take y := by
  obtain ⟨command, hcommand⟩ := Option.isSome_iff_exists.mp hcommand
  by_cases hlarge : maxFrameSize < d.buffer.length + x.length
  · have hboth : maxFrameSize < d.buffer.length + (x.length + y.length) := by omega
    simp [take, appendPayload, hlarge, hboth]
  · simp [take, appendInFrame, appendPayload, hlarge, hin, hcommand, Nat.add_assoc]

/-- Bytes may be taken in two steps, with the command in the first of them or in the second. -/
theorem take_append (x y : Bytes) : d.take (x ++ y) = (d.take x).take y := by
  cases hin : d.inFrame with
  | false => simp [take, hin]
  | true =>
    have htake : ∀ chunk, d.take chunk = d.appendInFrame chunk := fun chunk => by simp [take, hin]
    rw [htake, htake]
    cases hcommand : d.command with
    | some command =>
      have hsome : d.command.isSome := by simp [hcommand]
      simpa only [appendInFrame, hcommand] using d.appendPayload_append hin x y hsome
    | none =>
      cases x with
      | nil =>
        have hempty : d.appendInFrame [] = d := by simp [appendInFrame, hcommand]
        rw [nil_append, hempty, htake]
      | cons first x =>
        simpa only [appendInFrame, hcommand, cons_append] using
          appendPayload_append { d with command := some first } hin x y rfl

/-- The deframer as a scanner. -/
def scanner : Scanner UInt8 RawKissDeframer (UInt8 × Bytes) where
  flag := fend
  append := take
  close := close
  append_append := take_append

/-- `RawKissDeframer::feed`. -/
def feed (d : RawKissDeframer) (data : Bytes) : RawKissDeframer × List (UInt8 × Bytes) :=
  scanner.feed d data

/-- `RawKissDeframer::reset`. -/
def reset (d : RawKissDeframer) : RawKissDeframer :=
  { d with buffer := [], inFrame := false, command := none }

/-- The states of a deframer. -/
inductive Reachable : RawKissDeframer → Prop
  | new : Reachable new
  | feed {d : RawKissDeframer} (data : Bytes) : Reachable d → Reachable (d.feed data).1
  | reset {d : RawKissDeframer} : Reachable d → Reachable d.reset

/-- Nothing is kept outside a frame, and nothing in the scratch buffer. -/
structure Settled (d : RawKissDeframer) : Prop where
  buffer : d.inFrame = false → d.buffer = []
  unescapeScratch : d.unescapeScratch = []

variable {d : RawKissDeframer}

theorem Settled.appendPayload (h : d.Settled) (hin : d.inFrame = true) (chunk : Bytes) :
    (d.appendPayload chunk).Settled := by
  unfold RawKissDeframer.appendPayload
  split_ifs with hlarge
  · exact ⟨fun _ => rfl, h.unescapeScratch⟩
  · refine ⟨fun hout => ?_, h.unescapeScratch⟩
    cases hin.symm.trans hout

theorem Settled.take (h : d.Settled) (chunk : Bytes) : (d.take chunk).Settled := by
  unfold RawKissDeframer.take appendInFrame
  split_ifs with hin
  · split
    · exact h
    next first rest _ =>
      have hcommand : Settled { d with command := some first } := ⟨h.buffer, h.unescapeScratch⟩
      exact hcommand.appendPayload hin rest
    · exact h.appendPayload hin _
  · exact h

/-- The state between two frames. -/
def idle : RawKissDeframer := ⟨[], true, none, []⟩

/-- A frame end takes a settled deframer to the state between frames. It gives the frame in progress,
if that has a payload. -/
theorem Settled.close_eq (h : d.Settled) :
    d.close = (idle, if d.buffer = [] then [] else
      d.command.toList.map fun command => (command, unescape d.buffer)) := by
  obtain ⟨buffer, inFrame, command, scratch⟩ := d
  obtain rfl : scratch = [] := h.unescapeScratch
  cases inFrame with
  | false =>
    obtain rfl : buffer = [] := h.buffer rfl
    rfl
  | true => cases buffer <;> rfl

theorem settled_idle : idle.Settled := ⟨fun _ => rfl, rfl⟩

theorem Reachable.settled (h : d.Reachable) : d.Settled := by
  induction h with
  | new => exact ⟨fun _ => rfl, rfl⟩
  | feed data _ ih =>
    refine Scanner.feed_invariant (m := scanner) (I := Settled) (fun d x hd => hd.take x) ?_ ih data
    intro d hd
    rw [show scanner.close d = _ from hd.close_eq]
    exact settled_idle
  | reset _ ih => exact ⟨fun _ => rfl, ih.unescapeScratch⟩

/-- A frame that can be read back: its command is no frame end, and its payload is not empty and
fits. -/
structure Readable (frame : UInt8 × Bytes) : Prop where
  command : frame.1 ≠ fend
  payload : frame.2 ≠ []
  size : (escape frame.2).length ≤ maxFrameSize

theorem reads_escape {frame : UInt8 × Bytes} (h : Readable frame) :
    scanner.Reads idle (fun frame : UInt8 × Bytes => frame.1 :: escape frame.2) id frame := by
  have hmem : fend ∉ frame.1 :: escape frame.2 := by
    rw [mem_cons]
    exact not_or.mpr ⟨h.command.symm, stuffing.flag_not_mem_escape frame.2⟩
  have htake : idle.take (frame.1 :: escape frame.2) =
      { idle with buffer := escape frame.2, command := some frame.1 } := by
    simp [RawKissDeframer.take, appendInFrame, RawKissDeframer.appendPayload, idle,
      Nat.not_lt.mpr h.size]
  have hescaped : escape frame.2 ≠ [] := fun he =>
    h.payload (stuffing.escape_eq_nil.mp he)
  have hclose := (settled_idle.take (frame.1 :: escape frame.2)).close_eq
  rw [htake, if_neg hescaped] at hclose
  rw [show unescape (escape frame.2) = frame.2 from
    stuffing.unescape_escape frame.2] at hclose
  refine ⟨hmem, ?_⟩
  change (idle.take (frame.1 :: escape frame.2)).close = _
  rw [htake]
  exact hclose

/-- Frames are read back from every state of the deframer, with their commands. -/
theorem Reachable.resynchronises (h : d.Reachable) :
    Resynchronises RawKissDeframer.feed d Readable (fun f => frameWithCommand f.1 f.2) id := by
  have hidle : scanner.close (scanner.append idle []) = (idle, []) := rfl
  refine Scanner.resynchronises hidle ?_ fun frame hf => reads_escape hf
  refine ⟨_, ?_, (h.settled.take []).close_eq⟩
  split_ifs
  · exact Nat.zero_le 1
  · rw [length_map]
    cases (d.take []).command <;> simp

end RawKissDeframer

open RawKissDeframer

/-- `KissDeframer`. -/
structure KissDeframer where
  inner : RawKissDeframer

namespace KissDeframer

/-- The command without its port. -/
def masked (frame : UInt8 × Bytes) : UInt8 × Bytes := (frame.1 &&& cmdMask, frame.2)

/-- `KissDeframer::new`. -/
def new : KissDeframer := ⟨.new⟩

/-- `KissDeframer::feed`. -/
def feed (d : KissDeframer) (data : Bytes) : KissDeframer × List (UInt8 × Bytes) :=
  (⟨(d.inner.feed data).1⟩, (d.inner.feed data).2.map masked)

/-- `KissDeframer::reset`. -/
def reset (d : KissDeframer) : KissDeframer := ⟨d.inner.reset⟩

/-- The states of a deframer. -/
inductive Reachable : KissDeframer → Prop
  | new : Reachable new
  | feed {d : KissDeframer} (data : Bytes) : Reachable d → Reachable (d.feed data).1
  | reset {d : KissDeframer} : Reachable d → Reachable d.reset

variable {d : KissDeframer}

theorem Reachable.inner (h : d.Reachable) : d.inner.Reachable := by
  induction h with
  | new => exact .new
  | feed data _ ih => exact .feed data ih
  | reset _ ih => exact .reset ih

theorem chunkIndependent : ChunkIndependent KissDeframer.feed := by
  intro d a b
  have h := RawKissDeframer.scanner.chunkIndependent d.inner a b
  simp only [feed, show RawKissDeframer.feed = RawKissDeframer.scanner.feed from rfl, h,
    map_append]

/-- Pieces of a stream are given to the inner deframer. -/
theorem feedAll_eq (d : KissDeframer) (chunks : List Bytes) :
    feedAll KissDeframer.feed d chunks =
      (⟨(feedAll RawKissDeframer.feed d.inner chunks).1⟩,
        (feedAll RawKissDeframer.feed d.inner chunks).2.map masked) := by
  induction chunks generalizing d with
  | nil => rfl
  | cons chunk chunks ih => simp only [feedAll, ih, feed, map_append]

theorem Reachable.resynchronises (h : d.Reachable) :
    Resynchronises KissDeframer.feed d Readable
      (fun f => frameWithCommand f.1 f.2) masked := by
  intro frames hframes chunks hchunks
  obtain ⟨leftover, hlength, hfeed⟩ := h.inner.resynchronises frames hframes chunks hchunks
  refine ⟨leftover.map masked, by rwa [length_map], ?_⟩
  rw [feedAll_eq, hfeed, map_append, map_id]

end KissDeframer

/-- The deframers take a stream in pieces of any size. From every state, whatever they are in, they
give at most one frame of it and then the payloads of the frames that follow, with the command where
it is no frame end. -/
theorem deframing :
    (ChunkIndependent HdlcDeframer.feed ∧ ∀ d : HdlcDeframer, d.Reachable →
      Resynchronises HdlcDeframer.feed d
        (fun payload => payload ≠ [] ∧ (Hdlc.escape payload).length ≤ Hdlc.maxFrameSize)
        Hdlc.frame id) ∧
    (ChunkIndependent feed ∧ ∀ d : RawKissDeframer, d.Reachable → Resynchronises feed d Readable
        (fun f => frameWithCommand f.1 f.2) id) ∧
    (ChunkIndependent KissDeframer.feed ∧ ∀ d : KissDeframer, d.Reachable →
      Resynchronises KissDeframer.feed d Readable
        (fun f => frameWithCommand f.1 f.2) KissDeframer.masked) :=
  ⟨⟨HdlcDeframer.scanner.chunkIndependent, fun _ h => h.resynchronises⟩,
    ⟨scanner.chunkIndependent, fun _ h => h.resynchronises⟩,
    ⟨KissDeframer.chunkIndependent, fun _ h => h.resynchronises⟩⟩

/-- A frame cut inside its escape, behind the beginning of another one. -/
theorem deframing_cut :
    ∃ leftover : List (UInt8 × Bytes), leftover.length ≤ 1 ∧
      (feedAll feed (new.feed [0xC0, 0x0F, 7]).1
        [[0xC0, 0x50, 0xDB], [0xDC, 1, 0xC0]]).2 = leftover ++ [(0x50, [0xC0, 1])] := by
  have hreadable : Readable (0x50, [0xC0, 1]) :=
    ⟨by decide, by decide, by decide⟩
  refine deframing.2.1.2 _ (.feed _ .new) [(0x50, [0xC0, 1])] ?_ _ (by decide)
  rintro frame hframe
  rwa [mem_singleton.mp hframe]

/-- A frame with a frame end for its command is read as another one. -/
theorem fend_command_not_read :
    ¬ ∃ leftover : List (UInt8 × Bytes), leftover.length ≤ 1 ∧
      (new.feed (frameWithCommand fend [1, 2])).2 =
        leftover ++ [(fend, [1, 2])] := by
  have hread : (new.feed (frameWithCommand fend [1, 2])).2 = [(1, [2])] := by decide
  rw [hread]
  rintro ⟨leftover, -, h⟩
  have hlast := congrArg List.getLast? h
  simp [fend] at hlast

end Reticulum
