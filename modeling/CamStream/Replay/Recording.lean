import CamStream.Nal.Scan

/-!
# Recordings as capture frames

A recording is a byte stream. To replay it, its units are grouped as a camera would deliver them:
a frame ends with a slice, and units that are no slices travel with the slice behind them. What
remains behind the last slice is a frame of its own. Bytes before the first unit belong to none.
-/

namespace CamStream

/-- A stretch of a byte string, without its last position. -/
structure Span where
  start : Nat
  stop : Nat
deriving DecidableEq, Repr

namespace Span

/-- The bytes of a stretch. -/
def of (span : Span) (bytes : Bytes) : Bytes := (bytes.drop span.start).take (span.stop - span.start)

end Span

/-- The frames that units make up, given where the frame that is still open began and where the
last one ends. -/
def frameSpans (opened : Option Nat) (stop : Nat) : List NalUnit → List Span
  | [] =>
    match opened with
    | some start => [{ start, stop }]
    | none => []
  | unit :: units =>
    let start := opened.getD unit.offset
    if unit.kind.isSlice then { start, stop := unit.stop } :: frameSpans none stop units
    else frameSpans (some start) stop units

/-- The frames of a recording. -/
def splitFrames (recording : Bytes) : List Span :=
  frameSpans none recording.length (scanAll recording)

/-- The greatest timestamp: an unsigned 64-bit count of nanoseconds. -/
def maxTimestamp : Nat := 0xFFFFFFFFFFFFFFFF

/-- When the n-th frame is due, in nanoseconds from the start. -/
def dueTime (interval n : Nat) : Nat := min (interval * n) maxTimestamp

/-- The frames of a recording, each with the time at which it is due. -/
def dueFrames (recording : Bytes) (interval : Nat) : List (Bytes × Nat) :=
  (splitFrames recording).zipIdx.map fun (span, n) => (span.of recording, dueTime interval n)

end CamStream
