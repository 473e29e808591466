import CamStream.CommandLine.Replay

/-!
# The program

The replay command on the disk and the clock of the machine. Everything it decides is decided by
the script it performs.
-/

namespace CamStream

/-- The open files of a script, by number, and the clock reading at its start. -/
structure Disk where
  files : Array IO.FS.Handle := #[]
  start : Nat

namespace Disk

/-- What went wrong, in the words of the library. -/
def errorOf : IO.Error → FileError
  | .noFileOrDirectory .. => .notFound
  | .alreadyExists .. => .alreadyExists
  | .inappropriateType _ code _ => if code = 21 then .isADirectory else .notADirectory
  | .invalidArgument _ code _ => if code = 36 then .nameTooLong else .other
  | _ => .other

/-- Try an action on the disk. -/
def attempt {α : Type} (action : IO α) : IO (Except FileError α) := do
  try return .ok (← action) catch error => return .error (errorOf error)

/-- Whether a path leads to a directory: reading from one is refused for just this reason. -/
def isDirectory (path : Path) : IO Bool := do
  match ← attempt (do (← IO.FS.Handle.mk path.text .read).read 1) with
  | .error .isADirectory => return true
  | _ => return false

/-- Make a directory that only its owner may use. -/
def makeDirectory (path : Path) : IO Unit := do
  IO.FS.createDir path.text
  IO.setAccessRights path.text { user := { read := true, write := true, execution := true } }

/-- Wait until so many nanoseconds after the start, and read the clock. -/
def wait (start time : Nat) : IO Nat := do
  let elapsed := (← IO.monoNanosNow) - start
  if elapsed < time then IO.sleep (UInt32.ofNat ((time - elapsed + 999999) / 1000000))
  return (← IO.monoNanosNow) - start

/-- The open file of a handle. -/
def file (disk : Disk) (handle : Handle) : IO IO.FS.Handle :=
  match disk.files[handle.number]? with
  | some file => return file
  | none => throw (.userError "the file is not open")

/-- Answer one request. -/
def answer : (request : Request) → StateT Disk IO request.Answer
  | .isDirectory path => isDirectory path
  | .makeDirectory path => attempt (makeDirectory path)
  | .read path limit => attempt do
    let bytes := (← IO.FS.readBinFile path.text).toList
    return limit.elim bytes bytes.take
  | .create path => do
    match ← attempt (IO.FS.Handle.mk path.text .write) with
    | .error error => return .error error
    | .ok file =>
      let disk ← get
      set { disk with files := disk.files.push file }
      return .ok { number := disk.files.size }
  | .write handle bytes => do
    let disk ← get
    attempt do
      let file ← disk.file handle
      file.write ⟨bytes.toArray⟩
      file.flush
      return { handle with position := handle.position + bytes.length }
  | .sync handle => do
    let disk ← get
    attempt do (← disk.file handle).flush
  | .rename source target => attempt (IO.FS.rename source.text target.text)
  | .wait time => do wait (← get).start time

end Disk

/-- Perform a script on the disk. -/
def Script.perform {α : Type} : Script α → StateT Disk IO α
  | .done value => return value
  | .ask request next => do (next (← Disk.answer request)).perform

/-- How the program is called. -/
def usage : String :=
  "\n".intercalate
    [ReplayCommand.about, "", "Options:",
      "  --input <FILE>         the recording to replay",
      "  --output <FILE>        where the framed stream goes",
      "  --timestamps <FILE>    where the times of the units go",
      "  --device <NAME>        the device whose parameter sets are used",
      "  --spspps-dir <DIR>     where parameter sets are kept",
      "  --fps <N>              the only framerate to accept",
      "  --width <N>            the advertised width",
      "  --height <N>           the advertised height",
      "  --config <FILE>        a TOML file with settings",
      "  --fast                 do not wait until frames are due",
      "  -h, --help             print this text"]

/-- Perform a command, and give its exit code. -/
def Command.perform : Command → IO UInt32
  | .help => do
    IO.println usage
    return 0
  | .replay arguments => do
    let home ← IO.getEnv "HOME"
    let disk : Disk := { start := ← IO.monoNanosNow }
    let (ending, _) ← (ReplayCommand.run arguments home).perform.run disk
    if let some summary := ending.summary then
      IO.println ("replay finished " ++ summary.line)
    match ending.failure with
    | some failure =>
      IO.eprintln ("Error: " ++ failure)
      return 1
    | none => return 0

end CamStream

/-- The program: exit code 2 stands for arguments that make no sense. -/
def main (arguments : List String) : IO UInt32 :=
  match CamStream.Command.ofArguments arguments with
  | .ok command => command.perform
  | .error fault => do
    IO.eprintln ("error: " ++ fault.message)
    return 2
