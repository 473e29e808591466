import CamStream.Settings.Basic
import CamStream.Store.Background
import CamStream.Store.Directory
import CamStream.Store.Framing

/-!
# The store that settings ask for

Whatever the settings say, the store is used in one monad: scripts over files, with the writes that
are left to a background worker as state.
-/

namespace CamStream

/-- Scripts with writes that a worker has still to perform. -/
abbrev Keeping := StateT (List WriteJob) Script

namespace Persistence

/-- The directory in which parameter sets are kept. -/
def directoryOr (persistence : Persistence) (home : Option String) : Path :=
  persistence.directory.getD (DirectoryStore.defaultDirectory home)

/-- The store, if one is asked for. -/
def openStore (persistence : Persistence) (home : Option String) : Option (BlobStore Keeping) :=
  let files := BlobStore.directory (persistence.directoryOr home)
  if !persistence.enabled then none
  else if persistence.background then some files.background
  else some (files.lift StateT.lift)

/-- The store together with a device, if one is asked for. -/
def openKeeper (persistence : Persistence) (home : Option String) (device : String) :
    Option (Keeper Keeping) :=
  (persistence.openStore home).map fun store => { store, device }

/-- Let the background worker perform all writes that were left to it. -/
def flush (persistence : Persistence) (home : Option String) : Keeping Unit :=
  (BlobStore.directory (persistence.directoryOr home)).flush

end Persistence

namespace Settings

/-- The framer that settings ask for, with the pair that the keeper has. -/
def openFramer (settings : Settings) (keeper? : Option (Keeper Keeping)) : Keeping Framer := do
  return (← Framer.seeded keeper?).setLimit settings.unitLimit

end Settings

end CamStream
