import CamStream.Bytes
import CamStream.Nal.Kind

/-!
# Scanning a byte stream for NAL units

In an H.264 byte stream a unit begins with the four-byte start code `00 00 00 01` and reaches to
the place where the next unit begins, or to the end of the buffer. A start code with no byte
behind it begins nothing. The search for the next unit resumes behind the header byte, so a start
code that follows another one directly belongs to the earlier unit.

* `breakAtUnit_append`: breaking a buffer at its first unit loses no byte.
* `Cursor.next_rest_length`: every unit that a cursor yields leaves a shorter rest, so a scan
  ends.

A `Cursor` is a scan in progress. It is a plain value: keeping one and going on with it later
yields the units that were still to come.
-/

namespace CamStream

/-- The four bytes that begin a unit. -/
def startCode : Bytes := [0, 0, 0, 1]

/-- The least length of a unit: a start code and a header byte. -/
def minUnitLength : Nat := startCode.length + 1

/-- Whether a unit begins here: a start code with at least a header byte behind it. -/
def beginsUnit : Bytes → Bool
  | a :: b :: c :: d :: _ :: _ => a == 0 && b == 0 && c == 0 && d == 1
  | _ => false

/-- The bytes before the first place where a unit begins, and the rest from there on. -/
def breakAtUnit : Bytes → Bytes × Bytes
  | [] => ([], [])
  | byte :: rest =>
    if beginsUnit (byte :: rest) then ([], byte :: rest)
    else
      let (before, unit) := breakAtUnit rest
      (byte :: before, unit)

theorem breakAtUnit_append (bytes : Bytes) :
    (breakAtUnit bytes).1 ++ (breakAtUnit bytes).2 = bytes := by
  induction bytes with
  | nil => rfl
  | cons byte rest ih =>
    by_cases h : beginsUnit (byte :: rest)
    · simp [breakAtUnit, h]
    · simp [breakAtUnit, h, ih]

theorem breakAtUnit_length (bytes : Bytes) :
    (breakAtUnit bytes).1.length + (breakAtUnit bytes).2.length = bytes.length := by
  rw [← List.length_append, breakAtUnit_append]

/-- One unit of a buffer, start code included. -/
structure NalUnit where
  /-- Where the start code lies in the scanned buffer. -/
  offset : Nat
  /-- The start code, the header and all bytes up to the next unit. -/
  bytes : Bytes
  kind : NalKind
deriving DecidableEq, Repr

namespace NalUnit

/-- The unit without its start code. -/
def payload (unit : NalUnit) : Bytes := unit.bytes.drop startCode.length

/-- The first position behind the unit. -/
def stop (unit : NalUnit) : Nat := unit.offset + unit.bytes.length

end NalUnit

/-- A scan in progress. -/
structure Cursor where
  /-- Where `rest` begins in the scanned buffer. -/
  offset : Nat
  /-- The buffer from the next unit on; empty when there is none. -/
  rest : Bytes
  /-- How many units may still be yielded. -/
  budget : Nat
deriving DecidableEq, Repr

namespace Cursor

/-- A cursor before the first unit of a buffer, to yield at most `budget` units. -/
def ofBytes (buffer : Bytes) (budget : Nat) : Cursor :=
  let (before, rest) := breakAtUnit buffer
  { offset := before.length, rest, budget }

/-- The next unit, if there is one, and the cursor behind it. A cursor whose budget is spent
forgets its rest. -/
def next (cursor : Cursor) : Option NalUnit × Cursor :=
  match cursor.budget, cursor.rest with
  | 0, _ => (none, { cursor with rest := [] })
  | budget + 1, s₀ :: s₁ :: s₂ :: s₃ :: header :: tail =>
    let (body, rest) := breakAtUnit tail
    let bytes := s₀ :: s₁ :: s₂ :: s₃ :: header :: body
    (some { offset := cursor.offset, bytes, kind := .ofHeader header },
      { offset := cursor.offset + bytes.length, rest, budget })
  | _, _ => (none, cursor)

/-- A unit takes at least its start code and header from the rest. -/
theorem next_rest_length {cursor after : Cursor} {unit : NalUnit}
    (h : cursor.next = (some unit, after)) :
    after.rest.length + minUnitLength ≤ cursor.rest.length := by
  unfold next at h
  split at h
  · simp at h
  · rename_i budget s₀ s₁ s₂ s₃ header tail hbudget hrest
    simp only [Prod.mk.injEq] at h
    rw [← h.2, hrest]
    have := breakAtUnit_length tail
    simp only [minUnitLength, startCode, List.length_cons, List.length_nil]
    omega
  · simp at h

/-- All units that are still to come. -/
def toList (cursor : Cursor) : List NalUnit :=
  match _step : cursor.next with
  | (some unit, after) => unit :: after.toList
  | (none, _) => []
termination_by cursor.rest.length
decreasing_by
  have := next_rest_length _step
  simp only [minUnitLength, startCode, List.length_cons, List.length_nil] at this
  omega

/-- Bounds on the number of units that are still to come, known without scanning on. -/
def bounds (cursor : Cursor) : Nat × Nat :=
  if cursor.rest.isEmpty || cursor.budget = 0 then (0, 0) else (1, cursor.budget)

end Cursor

/-- The first `budget` units of a buffer. -/
def scan (buffer : Bytes) (budget : Nat) : List NalUnit :=
  (Cursor.ofBytes buffer budget).toList

/-- All units of a buffer. A unit takes at least one byte, so the length is budget enough. -/
def scanAll (buffer : Bytes) : List NalUnit := scan buffer buffer.length

end CamStream
