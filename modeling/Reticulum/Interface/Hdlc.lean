import Reticulum.Foundation.Framing
import Reticulum.Foundation.Octets

/-!
# HDLC framing

The framing of the stream interfaces: a flag, the payload with flags and escapes escaped, and a flag.
The deframer keeps what it has seen of a frame and drops a frame that grows too large.
-/

namespace Reticulum

namespace Hdlc

/-- `FLAG`. -/
def flag : UInt8 := 0x7E

/-- `ESC`. -/
def esc : UInt8 := 0x7D

/-- `ESC_MASK`. -/
def escMask : UInt8 := 0x20

/-- `MAX_FRAME_SIZE`. -/
def maxFrameSize : ℕ := 524288

/-- Behind an escape, flags and escapes are masked. -/
def stuffing : Stuffing UInt8 where
  flag := flag
  esc := esc
  code b := b ^^^ escMask
  esc_ne_flag := by decide
  code_flag_ne := by decide
  code_esc_ne := by decide
  code_ne := by decide

/-- `escape`, and what `escape_into` appends. -/
def escape (data : Bytes) : Bytes := stuffing.escape data

/-- `unescape`, and what `unescape_into` appends. -/
def unescape (data : Bytes) : Bytes := stuffing.unescape data

/-- `frame`, and what `frame_into` appends. -/
def frame (data : Bytes) : Bytes := flag :: escape data ++ [flag]

end Hdlc

open Hdlc

/-- `HdlcDeframer`. -/
structure HdlcDeframer where
  buffer : Bytes
  inFrame : Bool
  unescapeScratch : Bytes
deriving DecidableEq

namespace HdlcDeframer

/-- `HdlcDeframer::new`. -/
def new : HdlcDeframer := ⟨[], false, []⟩

/-- `HdlcDeframer::append_in_frame`. -/
def appendInFrame (d : HdlcDeframer) (chunk : Bytes) : HdlcDeframer :=
  if maxFrameSize < d.buffer.length + chunk.length then { d with buffer := [], inFrame := false }
  else { d with buffer := d.buffer ++ chunk }

/-- Bytes without a flag count inside a frame only. -/
def take (d : HdlcDeframer) (chunk : Bytes) : HdlcDeframer :=
  if d.inFrame then d.appendInFrame chunk else d

/-- A flag, once the bytes before it are taken: it ends a frame, if one is in progress, and begins
the next. A frame that was dropped for its size has left nothing in the buffer. -/
def close (d : HdlcDeframer) : HdlcDeframer × List Bytes :=
  if d.inFrame then
    if d.buffer.isEmpty then ({ d with buffer := [] }, [])
    else
      let unescaped := unescape d.buffer
      if unescaped.isEmpty then ({ d with buffer := [], unescapeScratch := unescaped }, [])
      else ({ d with buffer := [], unescapeScratch := [] }, [unescaped])
  else ({ d with inFrame := true }, [])

/-- Bytes may be taken in two steps: a frame that is too large in two is so in one, and the other way
round. -/
theorem take_append (d : HdlcDeframer) (x y : Bytes) : d.take (x ++ y) = (d.take x).take y := by
  unfold take
  cases hin : d.inFrame with
  | false => simp [hin]
  | true =>
    by_cases hlarge : maxFrameSize < d.buffer.length + x.length
    · have hboth : maxFrameSize < d.buffer.length + (x.length + y.length) := by omega
      simp [appendInFrame, hlarge, hboth]
    · simp [appendInFrame, hlarge, hin, Nat.add_assoc]

/-- The deframer as a scanner. -/
def scanner : Scanner UInt8 HdlcDeframer Bytes where
  flag := flag
  append := take
  close := close
  append_append := take_append

/-- `HdlcDeframer::feed`. -/
def feed (d : HdlcDeframer) (data : Bytes) : HdlcDeframer × List Bytes := scanner.feed d data

/-- `HdlcDeframer::reset`. -/
def reset (d : HdlcDeframer) : HdlcDeframer := { d with buffer := [], inFrame := false }

/-- The states of a deframer. -/
inductive Reachable : HdlcDeframer → Prop
  | new : Reachable new
  | feed {d : HdlcDeframer} (data : Bytes) : Reachable d → Reachable (d.feed data).1
  | reset {d : HdlcDeframer} : Reachable d → Reachable d.reset

/-- Nothing is kept outside a frame, and nothing in the scratch buffer. -/
structure Settled (d : HdlcDeframer) : Prop where
  buffer : d.inFrame = false → d.buffer = []
  unescapeScratch : d.unescapeScratch = []

variable {d : HdlcDeframer}

theorem Settled.take (h : d.Settled) (chunk : Bytes) : (d.take chunk).Settled := by
  unfold HdlcDeframer.take appendInFrame
  split_ifs with hin hlarge
  · exact ⟨fun _ => rfl, h.unescapeScratch⟩
  · exact ⟨fun hout => absurd hin (by simp [show d.inFrame = false from hout]), h.unescapeScratch⟩
  · exact h

/-- The state between two frames. -/
def idle : HdlcDeframer := ⟨[], true, []⟩

/-- A flag takes a settled deframer to the state between frames. It gives the frame in progress, if
that holds anything. -/
theorem Settled.close_eq (h : d.Settled) :
    d.close = (idle, if d.buffer = [] then [] else [unescape d.buffer]) := by
  obtain ⟨buffer, inFrame, scratch⟩ := d
  obtain rfl : scratch = [] := h.unescapeScratch
  cases inFrame with
  | false =>
    obtain rfl : buffer = [] := h.buffer rfl
    rfl
  | true =>
    cases buffer with
    | nil => rfl
    | cons b rest =>
      have hne : unescape (b :: rest) ≠ [] := stuffing.unescape_ne_nil (List.cons_ne_nil b rest)
      simp [HdlcDeframer.close, idle, hne]

theorem settled_idle : idle.Settled := ⟨fun _ => rfl, rfl⟩

theorem Reachable.settled (h : d.Reachable) : d.Settled := by
  induction h with
  | new => exact ⟨fun _ => rfl, rfl⟩
  | feed data _ ih =>
    refine Scanner.feed_invariant (m := scanner) (I := Settled) (fun d x hd => hd.take x) ?_ ih data
    intro d hd
    rw [show scanner.close d = _ from hd.close_eq]
    exact settled_idle
  | reset _ ih => exact ⟨fun _ => rfl, ih.unescapeScratch⟩

/-- A non-empty payload that fits is read from the state between frames. -/
theorem reads_escape {payload : Bytes} (hne : payload ≠ [])
    (hsize : (escape payload).length ≤ maxFrameSize) :
    scanner.Reads idle escape id payload := by
  refine ⟨stuffing.flag_not_mem_escape payload, ?_⟩
  have htake : idle.take (escape payload) = { idle with buffer := escape payload } := by
    simp [HdlcDeframer.take, appendInFrame, idle, Nat.not_lt.mpr hsize]
  have hescaped : escape payload ≠ [] := fun h => hne (stuffing.escape_eq_nil.mp h)
  have hclose := (settled_idle.take (escape payload)).close_eq
  rw [htake, if_neg hescaped] at hclose
  rw [show unescape (escape payload) = payload from stuffing.unescape_escape payload] at hclose
  change (idle.take (escape payload)).close = _
  rw [htake]
  exact hclose

/-- The payloads of frames are read back from every state of the deframer. -/
theorem Reachable.resynchronises (h : d.Reachable) :
    Resynchronises HdlcDeframer.feed d
      (fun payload => payload ≠ [] ∧ (escape payload).length ≤ maxFrameSize) frame id := by
  have hidle : scanner.close (scanner.append idle []) = (idle, []) := rfl
  refine Scanner.resynchronises hidle ?_ fun payload hp => reads_escape hp.1 hp.2
  refine ⟨_, ?_, (h.settled.take []).close_eq⟩
  split_ifs <;> simp

end HdlcDeframer

end Reticulum
