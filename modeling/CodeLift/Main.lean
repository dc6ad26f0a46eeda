-- SUMMARY: The program: arguments and files in, outputs and exit code out.
import CodeLift.Cli.Program

/-!
# The program

Reads the image that the command names, if it names one, and hands everything
to `Cli.run`.
-/

namespace CodeLift.Cli

/-- The path of the image that a command reads. -/
def Command.imagePath? : Command → Option String
  | .lift args => some args.image
  | .scan args => some args.image
  | _ => none

/-- The system's words for a failure to read a file. -/
def readFailure : IO.Error → String
  | .noFileOrDirectory _ _ _ => "No such file or directory (os error 2)"
  | .permissionDenied _ _ _ => "Permission denied (os error 13)"
  | .inappropriateType _ _ _ => "Is a directory (os error 21)"
  | e => toString e

def readImage (path : String) : IO (Except String (List UInt8)) := do
  try
    let bytes ← IO.FS.readBinFile path
    return .ok bytes.toList
  catch e => return .error (readFailure e)

end CodeLift.Cli

open CodeLift in
def main (words : List String) : IO UInt32 := do
  let path := match Cli.read words with
    | .ok i => i.command.imagePath?
    | .error _ => none
  let file ← match path with
    | some path => Cli.readImage path
    | none => pure (.error "")
  let output := Cli.run (fun _ => file) words
  (← IO.getStdout).putStr output.stdout
  (← IO.getStderr).putStr output.stderr
  return UInt32.ofNat output.exit
