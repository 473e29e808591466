import CamStream.Bytes
import CamStream.Text.Blank

/-!
# The release date

A build is stamped with the date that the `date` program prints. If the program cannot be run,
fails or prints no text, the date is unknown.
-/

namespace CamStream

/-- What came of running a program. -/
structure ProgramRun where
  exitCode : Int
  output : Bytes
deriving DecidableEq, Repr

namespace ReleaseStamp

/-- What the `date` program is asked for. -/
def dateArguments : List String := ["+%Y-%m-%d"]

/-- The release date, given the run of the `date` program if it could be run. -/
def releaseDate (run : Option ProgramRun) : String :=
  let text? := (run.filter (·.exitCode = 0)).bind fun run => Bytes.toText? run.output
  (text?.map Text.trim).getD "unknown"

/-- The instructions for the build. -/
def instructions (run : Option ProgramRun) : List String :=
  ["cargo:rustc-env=BUILD_REL_DATE=" ++ releaseDate run, "cargo:rerun-if-changed=build.rs"]

end ReleaseStamp

end CamStream
