import CamStream.Files.FileSystem

/-!
# Scripts: programs over files

A script asks one request after the other; what it asks next may depend on the answers. It is a
value, so it can be run on a `FileSystem`, performed on a real disk, or cut off between two
requests.

* `run_bind`: a script that goes on with another one runs as the two in turn.
* `run_fallible_bind`, `run_tryCatch`: so does a script that can fail, until it fails; then the
  handler goes on.
-/

namespace CamStream

/-- A request that a script can make. -/
inductive Request where
  | isDirectory (path : Path)
  /-- Make a directory that only its owner may use. -/
  | makeDirectory (path : Path)
  /-- Read a file, no further than the limit if there is one. -/
  | read (path : Path) (limit : Option Nat)
  /-- Open a file for writing, made or emptied. -/
  | create (path : Path)
  | write (handle : Handle) (bytes : Bytes)
  /-- Wait until what was written is on the disk. -/
  | sync (handle : Handle)
  | rename (source target : Path)
  /-- Wait until so many nanoseconds after the start, and read the clock. -/
  | wait (time : Nat)
deriving DecidableEq, Repr

namespace Request

/-- What a request is answered with. -/
abbrev Answer : Request → Type
  | isDirectory _ => Bool
  | makeDirectory _ => Except FileError Unit
  | read .. => Except FileError Bytes
  | create _ => Except FileError Handle
  | write .. => Except FileError Handle
  | sync _ => Except FileError Unit
  | rename .. => Except FileError Unit
  | wait _ => Nat

end Request

/-- A program that makes requests and ends in a value. -/
inductive Script (α : Type) : Type where
  | done (value : α)
  | ask (request : Request) (next : request.Answer → Script α)

namespace Script

variable {α β : Type}

/-- Make one request. -/
def request (request : Request) : Script request.Answer := .ask request .done

/-- Go on with another script. -/
def bind : Script α → (α → Script β) → Script β
  | done value, next => next value
  | ask request answered, next => ask request fun answer => (answered answer).bind next

instance : Monad Script where
  pure := done
  bind := bind

/-- The file system after a request, and the answer. Waits end exactly when they are due, and
synced data is where it was. -/
def answer (files : FileSystem) : (request : Request) → request.Answer × FileSystem
  | .isDirectory path => (files.isDirectory path, files)
  | .makeDirectory path =>
    match files.makeDirectory path FileSystem.privateMode with
    | .ok files => (.ok (), files)
    | .error error => (.error error, files)
  | .read path limit =>
    ((files.read path).map fun bytes => limit.elim bytes bytes.take, files)
  | .create path =>
    match files.create path with
    | .ok (handle, files) => (.ok handle, files)
    | .error error => (.error error, files)
  | .write handle bytes =>
    let (handle, files) := files.write handle bytes
    (.ok handle, files)
  | .sync _ => (.ok (), files)
  | .rename source target =>
    match files.rename source target with
    | .ok files => (.ok (), files)
    | .error error => (.error error, files)
  | .wait time => (time, files)

/-- The value of a script and the file system it leaves. -/
def run : Script α → FileSystem → α × FileSystem
  | done value, files => (value, files)
  | ask request next, files =>
    let (given, files) := answer files request
    (next given).run files

@[simp]
theorem run_pure (value : α) (files : FileSystem) : (pure value : Script α).run files = (value, files) :=
  rfl

@[simp]
theorem run_request (asked : Request) (files : FileSystem) :
    (request asked).run files = answer files asked := rfl

@[simp]
theorem run_bind (script : Script α) (next : α → Script β) (files : FileSystem) :
    (script >>= next).run files = (next (script.run files).1).run (script.run files).2 := by
  show (script.bind next).run files = _
  induction script generalizing files with
  | done value => rfl
  | ask request answered ih => exact ih (answer files request).1 (answer files request).2

/-! ## Requests that can fail -/

/-- A script that can fail on the way. -/
abbrev Fallible := ExceptT FileError Script

/-- Make a directory that only its owner may use. -/
def makeDirectory (path : Path) : Fallible Unit := request (.makeDirectory path)

/-- Read a file, no further than the limit if there is one. -/
def read (path : Path) (limit : Option Nat) : Fallible Bytes := request (.read path limit)

/-- Open a file for writing, made or emptied. -/
def create (path : Path) : Fallible Handle := request (.create path)

/-- Write through a handle, which moves on. -/
def write (handle : Handle) (bytes : Bytes) : Fallible Handle := request (.write handle bytes)

/-- Wait until what was written is on the disk. -/
def sync (handle : Handle) : Fallible Unit := request (.sync handle)

/-- Move a file in one step. -/
def rename (source target : Path) : Fallible Unit := request (.rename source target)

section Runs

variable (files : FileSystem)

theorem run_fallible_bind {ε : Type} (script : ExceptT ε Script α) (next : α → ExceptT ε Script β) :
    (script >>= next).run.run files =
      match script.run.run files with
      | (.ok value, files) => (next value).run.run files
      | (.error error, files) => (.error error, files) := by
  rw [ExceptT.run_bind, run_bind]
  rcases script.run.run files with ⟨answer, after⟩
  cases answer <;> rfl

/-- A script succeeds exactly if its parts succeed in turn. -/
theorem run_fallible_bind_eq_ok_iff {ε : Type} {files : FileSystem} {script : ExceptT ε Script α}
    {next : α → ExceptT ε Script β} {value : β} {last : FileSystem} :
    (script >>= next).run.run files = (.ok value, last) ↔
      ∃ between after, script.run.run files = (.ok between, after) ∧
        (next between).run.run after = (.ok value, last) := by
  rw [run_fallible_bind]
  rcases script.run.run files with ⟨answer, after⟩
  cases answer with
  | error error => simp
  | ok between =>
    constructor
    · intro h
      exact ⟨between, after, rfl, h⟩
    · rintro ⟨_, _, heq, h⟩
      cases heq
      exact h

theorem run_tryCatch (script : Fallible α) (handle : FileError → Fallible α) :
    (tryCatch script handle).run.run files =
      match script.run.run files with
      | (.ok value, files) => (.ok value, files)
      | (.error error, files) => (handle error).run.run files := by
  show (script.run >>= _ : Script _).run files = _
  rw [run_bind]
  rcases script.run.run files with ⟨answer, after⟩
  cases answer <;> rfl

/-- A request that cannot fail, in a script that can. -/
@[simp]
theorem run_fallible_request (asked : Request) :
    (request asked : Fallible asked.Answer).run.run files =
      (.ok (answer files asked).1, (answer files asked).2) := rfl

@[simp]
theorem run_read (path : Path) (limit : Option Nat) :
    (read path limit).run.run files =
      ((files.read path).map fun bytes => limit.elim bytes bytes.take, files) := rfl

theorem run_makeDirectory (path : Path) :
    (makeDirectory path).run.run files =
      match files.makeDirectory path FileSystem.privateMode with
      | .ok files => (.ok (), files)
      | .error error => (.error error, files) := rfl

theorem run_create (path : Path) :
    (create path).run.run files =
      match files.create path with
      | .ok (handle, files) => (.ok handle, files)
      | .error error => (.error error, files) := rfl

theorem run_create_eq_ok_iff {files : FileSystem} {path : Path} {handle : Handle}
    {after : FileSystem} :
    (create path).run.run files = (.ok handle, after) ↔ files.create path = .ok (handle, after) := by
  rw [run_create]
  cases files.create path <;> simp [Prod.ext_iff]

@[simp]
theorem run_write (handle : Handle) (bytes : Bytes) :
    (write handle bytes).run.run files =
      (.ok (files.write handle bytes).1, (files.write handle bytes).2) := rfl

@[simp]
theorem run_sync (handle : Handle) : (sync handle).run.run files = (.ok (), files) := rfl

theorem run_rename (source target : Path) :
    (rename source target).run.run files =
      match files.rename source target with
      | .ok files => (.ok (), files)
      | .error error => (.error error, files) := rfl

theorem run_rename_eq_ok_iff {files : FileSystem} {source target : Path} {after : FileSystem} :
    (rename source target).run.run files = (.ok (), after) ↔
      files.rename source target = .ok after := by
  rw [run_rename]
  cases files.rename source target <;> simp

end Runs

end Script

end CamStream
