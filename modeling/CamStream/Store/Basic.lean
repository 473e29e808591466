import CamStream.Files.FileError
import CamStream.ParameterSets
import CamStream.Tally

/-!
# Stores of parameter sets

A store keeps one blob per device: the sequence parameter set, then the picture parameter set.
Keeping them is best effort. A blob that is missing, cannot be read or is not a pair means that the
built-in pair is used.
-/

namespace CamStream

/-- A store whose operations are actions of `m`. -/
structure BlobStore (m : Type → Type) where
  /-- The blob kept for a device, nothing when there is none yet. -/
  read : String → m (Except FileError (Option Bytes))
  /-- Keep another blob for a device. -/
  write : String → Bytes → m (Except FileError Unit)

namespace BlobStore

variable {m n : Type → Type}

/-- The store with its actions carried over into another monad. -/
def lift (store : BlobStore m) (run : {α : Type} → m α → n α) : BlobStore n where
  read device := run (store.read device)
  write device blob := run (store.write device blob)

variable [Monad m]

/-- The pair kept for a device. A failure to read counts as nothing kept. -/
def load (store : BlobStore m) (device : String) : m (Option ParameterSets) := do
  match ← store.read device with
  | .ok (some blob) => return ParameterSets.ofBlob? blob
  | .ok none | .error _ => return none

/-- Keep a pair for a device. -/
def save (store : BlobStore m) (device : String) (sets : ParameterSets) :
    m (Except FileError Unit) :=
  store.write device sets.toBlob

/-- The pair to start with: the one kept for the device when both of its sets are admissible, the
built-in pair otherwise. -/
def seed (store : BlobStore m) (device : String) : m ParameterSets := do
  match ← store.load device with
  | some sets => return sets.orBuiltIn
  | none => return .builtIn

end BlobStore

/-- A store together with the device whose pair is kept there. -/
structure Keeper (m : Type → Type) where
  store : BlobStore m
  device : String

namespace Keeper

variable {m : Type → Type} [Monad m]

/-- The pair to start with. -/
def seed (keeper : Keeper m) : m ParameterSets := keeper.store.seed keeper.device

/-- Keep a pair, and count the outcome. -/
def save (keeper : Keeper m) (sets : ParameterSets) (tally : Tally) : m Tally := do
  return tally.afterWrite (← keeper.store.save keeper.device sets)

end Keeper

end CamStream
