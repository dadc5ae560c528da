import WideGraph.CommandLine

/-!
# The program

Reads the settings file that the arguments name, runs the command line on what it found, and prints
the outcome.
-/

namespace WideGraph.CommandLine

/-- The fault behind a failure to read a file. The failure names the path if it came from opening
the file, and nothing if it came from reading what was opened, which then is a directory. -/
def fileFault : IO.Error → FileFault
  | .noFileOrDirectory .. => .missing
  | .permissionDenied .. => .denied
  | .inappropriateType (some _) .. => .notADirectory
  | .inappropriateType none .. => .isADirectory
  | .invalidArgument .. => .nameTooLong
  | error => .other (toString error)

/-- The text of a file, or why there is none. -/
def readSettings (path : String) : IO (Except FileFault String) := do
  try
    match String.fromUTF8? (← IO.FS.readBinFile path) with
    | some text => return .ok text
    | none => return .error .notText
  catch error =>
    return .error (fileFault error)

/-- Run the program and print its outcome. -/
def runProgram (args : List String) : IO UInt32 := do
  let file ← match settingsFile? args with
    | some path => readSettings path
    | none => pure (.error .missing)
  let outcome := run (fun _ => file) args
  (← IO.getStdout).putStr outcome.stdout
  (← IO.getStderr).putStr outcome.stderr
  return outcome.code

end WideGraph.CommandLine

def main (args : List String) : IO UInt32 :=
  WideGraph.CommandLine.runProgram args
