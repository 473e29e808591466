import CamStream.Store.Basic

/-!
# Writing in the background

Writes are submitted to one worker, which performs them in the order of submission; reads go
straight to the store behind it. A submission always succeeds: that a write failed is known to the
worker alone, which goes on with the next one.
-/

namespace CamStream

/-- A write that the worker has still to perform. -/
structure WriteJob where
  device : String
  blob : Bytes
deriving DecidableEq, Repr

namespace BlobStore

variable {m : Type → Type} [Monad m]

/-- Perform one write, whatever comes of it. -/
def perform (inner : BlobStore m) (job : WriteJob) : m Unit := do
  let _ ← inner.write job.device job.blob

/-- Perform writes in order. -/
def performAll (inner : BlobStore m) (jobs : List WriteJob) : m Unit := jobs.forM inner.perform

/-- The store that leaves writes to a worker; the state holds the writes still to perform. -/
def background (inner : BlobStore m) : BlobStore (StateT (List WriteJob) m) where
  read device := inner.read device
  write device blob := do
    modify (· ++ [{ device, blob }])
    return .ok ()

/-- Let the worker perform all that was submitted. -/
def flush (inner : BlobStore m) : StateT (List WriteJob) m Unit := do
  inner.performAll (← get)
  set ([] : List WriteJob)

end BlobStore

end CamStream
