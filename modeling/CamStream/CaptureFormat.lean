import CamStream.Clock

/-!
# Choosing a capture format

A device advertises the frame sizes and framerates it can deliver. A consumer says, for each
capability, at which framerate it would take it, if at all. Of what remains, the largest picture
wins, then the highest framerate, then the capability that the device named first.

Devices of the USB video class describe framerates by frame intervals in units of 100 ns; these
are turned into frames per second.
-/

namespace CamStream

/-- The framerates of a capability, in frames per second. -/
inductive FrameRates where
  | discrete (rates : List Nat)
  | range (lowest highest : Nat)
deriving DecidableEq, Repr

namespace FrameRates

/-- The highest framerate on offer. -/
def max? : FrameRates → Option Nat
  | discrete rates => rates.max?
  | range _ highest => some highest

end FrameRates

/-- A frame size with its framerates. -/
structure Capability where
  width : Nat
  height : Nat
  rates : FrameRates
deriving DecidableEq, Repr

namespace Capability

/-- How many intervals of 100 ns a second has. -/
def intervalsPerSecond : Nat := 10000000

/-- A capability with a list of frame intervals. Intervals of zero are passed over. -/
def ofIntervals (width height : Nat) (intervals : List Nat) : Capability :=
  let rates := (intervals.filter (0 < ·)).map (intervalsPerSecond / ·)
  { width, height, rates := .discrete rates }

/-- A capability with a range of frame intervals: the shortest one gives the highest framerate.
An interval of zero counts as one. -/
def ofIntervalRange (width height shortest longest : Nat) : Capability :=
  let rate (interval : Nat) := intervalsPerSecond / max interval 1
  { width, height, rates := .range (rate longest) (rate shortest) }

/-- The number of pixels. -/
def resolution (capability : Capability) : Nat := capability.width * capability.height

end Capability

/-- The framerate at which a consumer takes a capability, if it takes it at all. -/
abbrev Constraint := Capability → Option Nat

/-- Takes whatever the device does best. -/
def unconstrained : Constraint := fun capability =>
  capability.rates.max?.filter (0 < ·)

/-- Both ends belong to the bounds. -/
structure Bounds where
  low : Nat
  high : Nat
deriving DecidableEq, Repr

namespace Bounds

/-- Whether a number lies within the bounds. -/
def contains (bounds : Bounds) (n : Nat) : Bool := bounds.low ≤ n && n ≤ bounds.high

/-- The bounds that only one number satisfies. -/
def only (n : Nat) : Bounds := ⟨n, n⟩

end Bounds

/-- Bounds on size and framerate; what is not bounded is open. -/
structure FormatFilter where
  width : Option Bounds := none
  height : Option Bounds := none
  framerate : Option Bounds := none
deriving DecidableEq, Repr, Inhabited

namespace FormatFilter

/-- Only this width. -/
def onlyWidth (filter : FormatFilter) (width : Nat) : FormatFilter :=
  { filter with width := some (.only width) }

/-- Only this height. -/
def onlyHeight (filter : FormatFilter) (height : Nat) : FormatFilter :=
  { filter with height := some (.only height) }

/-- Nothing larger than this. -/
def atMost (filter : FormatFilter) (width height : Nat) : FormatFilter :=
  { filter with width := some ⟨0, width⟩, height := some ⟨0, height⟩ }

/-- Only this framerate. -/
def onlyFramerate (filter : FormatFilter) (rate : Nat) : FormatFilter :=
  { filter with framerate := some (.only rate) }

/-- Only framerates from `low` to `high`. -/
def framerateBetween (filter : FormatFilter) (low high : Nat) : FormatFilter :=
  { filter with framerate := some ⟨low, high⟩ }

/-- Whether optional bounds admit a number. -/
def admits (bounds : Option Bounds) (n : Nat) : Bool := bounds.all (·.contains n)

/-- Whether the size of a capability is within bounds. -/
def admitsSize (filter : FormatFilter) (capability : Capability) : Bool :=
  admits filter.width capability.width && admits filter.height capability.height

/-- The highest positive framerate of a range that bounds admit. -/
def highestWithin (bounds : Option Bounds) (lowest highest : Nat) : Option Nat :=
  let high := match bounds with
    | some bounds => min highest bounds.high
    | none => highest
  let low := match bounds with
    | some bounds => max lowest (max bounds.low 1)
    | none => max lowest 1
  if low ≤ high then some high else none

/-- The highest positive framerate of the device that the filter admits. -/
def best (filter : FormatFilter) : Constraint := fun capability =>
  if filter.admitsSize capability then
    match capability.rates with
    | .discrete rates => (rates.filter fun rate => 0 < rate && admits filter.framerate rate).max?
    | .range lowest highest => highestWithin filter.framerate lowest highest
  else none

end FormatFilter

/-- A frame size and framerate to capture at. -/
structure CaptureFormat where
  width : Nat
  height : Nat
  framerate : Nat
deriving DecidableEq, Repr

namespace CaptureFormat

/-- The nominal frame interval in nanoseconds. -/
def interval (format : CaptureFormat) : Nat := intervalOfRate format.framerate

/-- What formats are compared by: the number of pixels, then the framerate. -/
def rank (format : CaptureFormat) : Nat × Nat := (format.width * format.height, format.framerate)

/-- Whether the first format is strictly better than the second. -/
def isBetter (format than : CaptureFormat) : Bool :=
  than.rank.1 < format.rank.1 || (format.rank.1 = than.rank.1 && than.rank.2 < format.rank.2)

/-- The format that a constraint makes of a capability. -/
def ofCapability? (constraint : Constraint) (capability : Capability) : Option CaptureFormat :=
  (constraint capability).map fun framerate =>
    { width := capability.width, height := capability.height, framerate }

end CaptureFormat

/-- No capability passed the constraint. -/
structure NoCompatibleFormat where
  /-- How many capabilities there were. -/
  candidates : Nat
deriving DecidableEq, Repr

namespace NoCompatibleFormat

/-- What the user is told. -/
def message (failure : NoCompatibleFormat) : String :=
  s!"no compatible format among {failure.candidates} device capabilities"

end NoCompatibleFormat

/-- Keep the better of two formats, the earlier one of equals. -/
def keepBetter (kept : Option CaptureFormat) (candidate : CaptureFormat) : Option CaptureFormat :=
  match kept with
  | some format => if candidate.isBetter format then some candidate else some format
  | none => some candidate

/-- The best format that the constraint makes of the capabilities. -/
def selectFormat (capabilities : List Capability) (constraint : Constraint) :
    Except NoCompatibleFormat CaptureFormat :=
  match (capabilities.filterMap (CaptureFormat.ofCapability? constraint)).foldl keepBetter none with
  | some format => .ok format
  | none => .error { candidates := capabilities.length }

end CamStream
