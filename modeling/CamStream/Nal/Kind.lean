/-!
# Kinds of NAL unit

The low five bits of the header byte of an H.264 NAL unit name its kind. Four numbers matter
here: the two kinds of coded slice and the two parameter sets. Every other number is kept as it
is, so no unit loses its kind.
-/

namespace CamStream

/-- What a NAL unit holds. -/
inductive NalKind where
  /-- A coded slice of a picture that refers to others. -/
  | slice
  /-- A coded slice of an instantaneous decoder refresh picture, where decoding can begin. -/
  | idrSlice
  /-- A sequence parameter set. -/
  | sps
  /-- A picture parameter set. -/
  | pps
  /-- Anything else: forwarded, never interpreted. -/
  | other (number : UInt8)
deriving DecidableEq, Repr

namespace NalKind

/-- The low five bits of a header byte. -/
def headerNumber (header : UInt8) : UInt8 := header &&& 0x1F

/-- The kind that a header byte announces. -/
def ofHeader (header : UInt8) : NalKind :=
  let number := headerNumber header
  if number = 1 then .slice
  else if number = 5 then .idrSlice
  else if number = 7 then .sps
  else if number = 8 then .pps
  else .other number

/-- The five-bit number of a kind. -/
def number : NalKind → UInt8
  | slice => 1
  | idrSlice => 5
  | sps => 7
  | pps => 8
  | other number => number

/-- Slices carry picture data; they are the only units that get a time. -/
def isSlice : NalKind → Bool
  | slice | idrSlice => true
  | _ => false

/-- Parameter sets are cached and never emitted on their own. -/
def isParameterSet : NalKind → Bool
  | sps | pps => true
  | _ => false

/-- The number read from a header is kept, whatever the kind. -/
theorem number_ofHeader (header : UInt8) : (ofHeader header).number = headerNumber header := by
  grind [ofHeader, number]

end NalKind

end CamStream
