import CamStream.Files.Script

/-!
# Buffered output

What is put into an output waits until there is enough of it. When it is written matters if two
outputs are the same file: each writes at a position of its own, and the last one to write wins.

* `toBytes_put`: nothing is lost, and the order is kept.
* `size_put_le`: no more waits than there is room for.
-/

namespace CamStream

/-- Bytes that wait to be written. -/
structure WriteBuffer where
  waiting : Array UInt8 := #[]
deriving DecidableEq, Repr

namespace WriteBuffer

/-- How many bytes can wait. -/
def capacity : Nat := 8192

/-- The bytes that wait, in order. -/
def toBytes (buffer : WriteBuffer) : Bytes := buffer.waiting.toList

/-- What has to be written to empty the buffer. -/
def pending (buffer : WriteBuffer) : List Bytes :=
  if buffer.waiting.isEmpty then [] else [buffer.toBytes]

/-- Write what waits if there is no room for so many bytes more. The first part lists what has to
be written. -/
def makeRoom (buffer : WriteBuffer) (count : Nat) : List Bytes × WriteBuffer :=
  if capacity < buffer.waiting.size + count then (buffer.pending, {}) else ([], buffer)

/-- Put bytes behind those that wait. The first part lists what has to be written at once: what
waits, if there is no room for all, and the new bytes themselves, if they alone would fill the
buffer. -/
def put (buffer : WriteBuffer) (bytes : Bytes) : List Bytes × WriteBuffer :=
  let (written, buffer) := buffer.makeRoom bytes.length
  if capacity ≤ bytes.length then (written ++ [bytes], buffer)
  else (written, { waiting := buffer.waiting ++ bytes })

theorem flatten_pending (buffer : WriteBuffer) : buffer.pending.flatten = buffer.toBytes := by
  unfold pending
  split <;> simp_all [toBytes]

theorem toBytes_makeRoom (buffer : WriteBuffer) (count : Nat) :
    (buffer.makeRoom count).1.flatten ++ (buffer.makeRoom count).2.toBytes = buffer.toBytes := by
  unfold makeRoom
  split
  · simp [flatten_pending, toBytes]
  · simp

theorem size_makeRoom (buffer : WriteBuffer) (count : Nat) :
    (buffer.makeRoom count).2.waiting = #[] ∨
      (buffer.makeRoom count).2.waiting.size + count ≤ capacity := by
  unfold makeRoom
  split
  · exact .inl rfl
  · next fits => exact .inr (Nat.le_of_not_lt fits)

theorem toBytes_put (buffer : WriteBuffer) (bytes : Bytes) :
    (buffer.put bytes).1.flatten ++ (buffer.put bytes).2.toBytes = buffer.toBytes ++ bytes := by
  rw [← buffer.toBytes_makeRoom bytes.length]
  unfold put
  by_cases large : capacity ≤ bytes.length
  · have none_waits : (buffer.makeRoom bytes.length).2.waiting = #[] := by
      rcases buffer.size_makeRoom bytes.length with empty | fits
      · exact empty
      · exact Array.eq_empty_of_size_eq_zero (by omega)
    simp [large, toBytes, none_waits]
  · simp [large, toBytes]

theorem size_put_le (buffer : WriteBuffer) (bytes : Bytes) :
    (buffer.put bytes).2.waiting.size ≤ capacity := by
  unfold put
  rcases buffer.size_makeRoom bytes.length with empty | fits
  · by_cases large : capacity ≤ bytes.length
    · simp [large, empty]
    · simp [large, empty, ← Array.length_toList]
      omega
  · by_cases large : capacity ≤ bytes.length
    · simp only [large, if_true]
      omega
    · simp [large, ← Array.length_toList]
      simpa using fits

end WriteBuffer

/-- A file that is written through a buffer. -/
structure OutputFile where
  handle : Handle
  buffer : WriteBuffer := {}
deriving DecidableEq, Repr

namespace OutputFile

open Script (Fallible)

/-- Make a file, or empty it. -/
def create (path : Path) : Fallible OutputFile := do
  return { handle := ← Script.create path }

/-- Put bytes into a file. -/
def put (file : OutputFile) (bytes : Bytes) : Fallible OutputFile := do
  let (written, buffer) := file.buffer.put bytes
  return { handle := ← written.foldlM Script.write file.handle, buffer }

/-- Write what still waits. -/
def flush (file : OutputFile) : Fallible OutputFile := do
  return { handle := ← file.buffer.pending.foldlM Script.write file.handle }

end OutputFile

end CamStream
