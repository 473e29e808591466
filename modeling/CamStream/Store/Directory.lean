import CamStream.Files.Script
import CamStream.Store.Basic

/-!
# A store in a directory

One file per device in a directory that only its owner may use. The name of the file is the name
of the device with every character replaced that could mean something in a path.

A blob is written to a staging file first, which then takes the place of the old file in one step.
So whoever reads in between finds the old blob or the new one, and never half of one.
-/

namespace CamStream.DirectoryStore

/-! ## Names -/

/-- The most bytes that are read back from a file. -/
def maxBlobSize : Nat := 2 * maxSetLength

/-- Characters that a file name may hold. -/
def isNameChar (c : Char) : Bool := c.isAlphanum || c = '-' || c = '_' || c = '.'

/-- The name of the file of a device. -/
def fileName (device : String) : String :=
  let name := String.ofList (device.toList.map fun c => if isNameChar c then c else '_')
  if name = "" || name = "." || name = ".." then "default" else name

/-- The name of the staging file of a device. -/
def stagingName (device : String) : String := "." ++ fileName device ++ ".tmp"

/-- The file of a device. -/
def blobPath (directory : Path) (device : String) : Path := directory.join (fileName device)

/-- The staging file of a device. -/
def stagingPath (directory : Path) (device : String) : Path := directory.join (stagingName device)

/-- The directory when none is given: one in the home directory, or in the working directory of a
user without a home. -/
def defaultDirectory (home : Option String) : Path :=
  match home with
  | some home => Path.join ⟨home⟩ ".spspps"
  | none => ⟨".spspps"⟩

/-! ## Making the directory -/

/-- Accept a failure to make a directory that is there after all. -/
def unlessDirectory (path : Path) (error : FileError) : Script.Fallible Unit := do
  if ← Script.request (.isDirectory path) then return () else throw error

/-- Make the first of the given directories, each of which lies in the next. The others are made
only if the first cannot be made for want of them. -/
def makeDirectories : List Path → Script.Fallible Unit
  | [] => return ()
  | path :: ancestors =>
    tryCatch (Script.makeDirectory path) fun error => do
      if error = .notFound then
        makeDirectories ancestors
        tryCatch (Script.makeDirectory path) (unlessDirectory path)
      else unlessDirectory path error

/-- Make sure that the directory is there. The empty path is the working directory. -/
def ensure (directory : Path) : Script.Fallible Unit := do
  if ← Script.request (.isDirectory directory) then return ()
  if directory.text = "" then return ()
  makeDirectories (directory :: directory.ancestors)

/-! ## Reading and writing -/

/-- The blob of a device. A file that does not exist holds none. -/
def read (directory : Path) (device : String) : Script.Fallible (Option Bytes) :=
  tryCatch (do return some (← Script.read (blobPath directory device) (some maxBlobSize)))
    fun error => if error = .notFound then return none else throw error

/-- Write a blob to the staging file, and put that in the place of the old file. -/
def write (directory : Path) (device : String) (blob : Bytes) : Script.Fallible Unit := do
  ensure directory
  let staging := stagingPath directory device
  let handle ← Script.create staging
  let handle ← Script.write handle blob
  Script.sync handle
  Script.rename staging (blobPath directory device)

end CamStream.DirectoryStore

namespace CamStream

/-- The store in a directory. -/
def BlobStore.directory (directory : Path) : BlobStore Script where
  read := DirectoryStore.read directory
  write := DirectoryStore.write directory

end CamStream
