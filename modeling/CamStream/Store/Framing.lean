import CamStream.Framing
import CamStream.Store.Basic

/-!
# Framing with a store

A framer starts with the pair that was kept for its device, and keeps the pair whenever a frame
changed it.
-/

namespace CamStream

/-- Keep the pair if one of the fates changed it, and count the outcome. -/
def keepChange {m : Type → Type} [Monad m] (keeper? : Option (Keeper m)) (fates : List Fate)
    (sets : ParameterSets) (tally : Tally) : m Tally :=
  match keeper? with
  | some keeper => if fates.any (·.isChange) then keeper.save sets tally else return tally
  | none => return tally

namespace Framer

variable {m : Type → Type} [Monad m]

/-- A framer that starts with the pair its keeper has, or with the built-in pair without one. -/
def seeded (keeper? : Option (Keeper m)) : m Framer := do
  match keeper? with
  | some keeper => return { sets := ← keeper.seed }
  | none => return {}

/-- What becomes of the units of a capture frame; a pair that changed is kept once, after all of
them. -/
def processKeeping (keeper? : Option (Keeper m)) (framer : Framer) (tally : Tally)
    (frame : Bytes) : m (List Fate × Framer × Tally) := do
  let (fates, framer) := framer.process frame
  let tally ← keepChange keeper? fates framer.sets (tally.afterFates fates)
  return (fates, framer, tally)

end Framer

end CamStream
