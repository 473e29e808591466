import CamStream.KeyedList
import CamStream.Store.Basic

/-!
# A store in memory
-/

namespace CamStream

/-- Blobs by device. -/
abbrev Shelf := KeyedList String Bytes

/-- The store on a shelf. It never fails. -/
def BlobStore.memory : BlobStore (StateM Shelf) where
  read device := do return .ok (KeyedList.get? (← get) device)
  write device blob := do
    modify fun shelf => shelf.put device blob
    return .ok ()

end CamStream
