import CamStream.ParameterSets
import CamStream.Tally

/-!
# Framing: from capture frames to output units

A framer turns the NAL units of one capture frame into output units.

* Parameter sets go into the cached pair and are never emitted on their own.
* The first IDR slice of a session, and the first one after a parameter set was accepted, carries
  the cached pair in front of it.
* Whatever comes before the first IDR slice of a session is withheld, so the output opens on a
  picture that can be decoded.

`Framer.accept` says what becomes of one unit: it has exactly one `Fate`. A frame is the run of
`accept` over its units, at most `limit` of them.
-/

namespace CamStream

/-- How many units of one frame are looked at when nothing else is asked for. -/
def defaultUnitLimit : Nat := 10

/-- A unit ready for the consumer. -/
structure FramedUnit where
  kind : NalKind
  /-- The unit, behind the cached pair if it carries it. -/
  bytes : Bytes
  /-- Whether the cached pair was put in front. -/
  carriesSets : Bool
deriving DecidableEq, Repr

namespace FramedUnit

/-- Keyframes are the IDR slices. -/
def isKeyframe (unit : FramedUnit) : Bool := unit.kind = .idrSlice

end FramedUnit

/-- What becomes of a scanned unit. -/
inductive Fate where
  | emitted (unit : FramedUnit)
  /-- It came before the first keyframe of the session. -/
  | withheld
  /-- It is a parameter set and went into the cached pair, changing its bytes or not. -/
  | cached (changed : Bool)
  /-- It is a parameter set of a length that no parameter set has. -/
  | refused (refusal : SetRefusal)
deriving DecidableEq, Repr

namespace Fate

/-- The unit that goes out, if one does. -/
def unit? : Fate → Option FramedUnit
  | emitted unit => some unit
  | _ => none

/-- Whether the unit was withheld. -/
def isWithheld : Fate → Bool
  | withheld => true
  | _ => false

/-- Whether the unit was refused. -/
def isRefused : Fate → Bool
  | refused _ => true
  | _ => false

/-- Whether the bytes of the cached pair changed. -/
def isChange : Fate → Bool
  | cached changed => changed
  | _ => false

end Fate

/-- The counters after the units of a frame met their fates. Emission is counted where the units
are handed on. -/
def Tally.afterFates (tally : Tally) (fates : List Fate) : Tally :=
  { tally with
    unitsBeforeKeyframe := tally.unitsBeforeKeyframe + fates.countP (·.isWithheld)
    malformedUnits := tally.malformedUnits + fates.countP (·.isRefused) }

/-- The state of framing. The pair outlives a session, the two flags do not. -/
structure Framer where
  sets : ParameterSets := .builtIn
  /-- An IDR slice has been emitted in this session. -/
  opened : Bool := false
  /-- A parameter set was accepted and must go out with the next IDR slice. -/
  pending : Bool := false
  /-- How many units of a frame are looked at. -/
  limit : Nat := defaultUnitLimit
deriving DecidableEq, Repr

namespace Framer

/-- Another limit on the units of a frame; at least one is always looked at. -/
def setLimit (framer : Framer) (limit : Nat) : Framer := { framer with limit := max limit 1 }

/-- A new session: the flags start over and the cached pair is kept. -/
def reset (framer : Framer) : Framer := { framer with opened := false, pending := false }

/-- Take over the outcome of replacing a parameter set. An accepted set has to go out with the
next keyframe even when its bytes were cached already. -/
def cache (framer : Framer) : Except SetRefusal ParameterSets → Fate × Framer
  | .ok sets => (.cached (sets ≠ framer.sets), { framer with sets, pending := true })
  | .error refusal => (.refused refusal, framer)

/-- Emit an IDR slice, behind the cached pair when the consumer has to be told of it. -/
def emitKeyframe (framer : Framer) (unit : NalUnit) : Fate × Framer :=
  let carriesSets := !framer.opened || framer.pending
  let bytes := if carriesSets then framer.sets.toBlob ++ unit.bytes else unit.bytes
  (.emitted { kind := unit.kind, bytes, carriesSets },
    { framer with opened := true, pending := false })

/-- Emit any other unit, or withhold it while the session has not opened. -/
def emitPlain (framer : Framer) (unit : NalUnit) : Fate × Framer :=
  if framer.opened then
    (.emitted { kind := unit.kind, bytes := unit.bytes, carriesSets := false }, framer)
  else (.withheld, framer)

/-- What becomes of one unit. -/
def accept (framer : Framer) (unit : NalUnit) : Fate × Framer :=
  match unit.kind with
  | .sps => framer.cache (framer.sets.setSps unit.bytes)
  | .pps => framer.cache (framer.sets.setPps unit.bytes)
  | .idrSlice => framer.emitKeyframe unit
  | .slice | .other _ => framer.emitPlain unit

/-- What becomes of units, in order. -/
def acceptAll (framer : Framer) : List NalUnit → List Fate × Framer
  | [] => ([], framer)
  | unit :: units =>
    let (fate, framer) := framer.accept unit
    let (fates, framer) := framer.acceptAll units
    (fate :: fates, framer)

/-- What becomes of the units of a capture frame. -/
def process (framer : Framer) (frame : Bytes) : List Fate × Framer :=
  framer.acceptAll (scan frame framer.limit)

end Framer

/-- The units that go out. -/
def emittedUnits (fates : List Fate) : List FramedUnit := fates.filterMap (·.unit?)

end CamStream
