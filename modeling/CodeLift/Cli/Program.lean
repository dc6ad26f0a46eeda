-- SUMMARY: Running a command: what it prints, what it logs, and how it ends.
import CodeLift.Cli.Command
import CodeLift.Cli.Report
import CodeLift.Scan

/-!
# Running commands

A run sees the file system only as a function from paths to bytes, and gives
the texts for both outputs and the exit code: 0 for success, 1 for a failure,
2 for a command line that makes no sense. Failures have a context and at most
one cause, which is indented.
-/

namespace CodeLift.Cli

/-- The bytes of a file, or the system's words for why it cannot be read. -/
abbrev Files := String → Except String (List UInt8)

structure Failure where
  context : String
  cause : Option String
  deriving DecidableEq

/-- The text of a failure; lines of the cause are indented. -/
def Failure.render (f : Failure) : String :=
  let cause := match f.cause with
    | some cause =>
      let indented := cause.toList.flatMap fun c => if c = '\n' then "\n    ".toList else [c]
      "\n\nCaused by:\n    " ++ String.ofList indented
    | none => ""
  "Error: " ++ f.context ++ cause ++ "\n"

structure Output where
  exit : Nat
  stdout : String
  stderr : String
  deriving DecidableEq

/-- A step of a command, which may fail and may report events. -/
abbrev Step := ExceptT Failure (StateM (List Event))

/-- Report events. -/
def report (events : List Event) : Step Unit := modify (· ++ events)

def record (level : Level) (origin : Origin) (text : String) : Step Unit :=
  report [.logged ⟨level, origin, text⟩]

/-- The value of a result, whose error becomes the cause of a failure. -/
def expect {ε α : Type} (result : Except ε α) (message : ε → String) (context : String) : Step α :=
  match result with
  | .ok value => pure value
  | .error e => throw ⟨context, some (message e)⟩

/-! ## Parts of commands -/

def architectureNamed (name : String) : Step Architecture :=
  expect (Registry.builtin.create name) ArchitectureError.message
    ("Available architectures: " ++ ", ".intercalate Registry.builtin.names)

def addressFrom (a : Architecture) (text : String) : Step Address :=
  expect (a.readAddress text) AddressError.message s!"Invalid address: {text}"

def openImage (files : Files) (a : Architecture) (path base : String) : Step Image := do
  let base ← addressFrom a base
  let bytes ← expect (files path) id s!"Failed to read image: {path}"
  record .debug .program s!"loaded {bytes.length} byte(s) from {path} at {base.render}"
  return ⟨base, bytes⟩

def policyFrom (name : String) : Step Policy :=
  match Policy.ofName? name with
  | some policy => pure policy
  | none => throw ⟨s!"Unknown policy '{name}'. Use \"partial\" or \"abort\"", none⟩

/-! ## Commands -/

def runLift (files : Files) (args : LiftArgs) : Step String := do
  let a ← architectureNamed args.arch
  let image ← openImage files a args.image args.base
  let policy ← policyFrom args.policy
  let entries ←
    if args.entries.isEmpty then pure [image.base] else args.entries.mapM (addressFrom a)
  let config : LiftConfig := ⟨args.limit, policy, !args.noStop⟩
  let lifts := entries.map fun entry => (entry, a.lift image entry .silent config)
  report (lifts.flatMap fun (_, _, events) => events)
  let procedures ← lifts.mapM fun (entry, result, _) =>
    expect result ProcedureError.message s!"Failed to lift procedure at {entry.render}"
  if args.json then return (Json.array (procedures.map procedureJson)).render ++ "\n"
  else return joinLines (proceduresReport procedures)

/-- The kinds of reference asked for; none means all. -/
def ScanArgs.kinds (args : ScanArgs) : ScanKinds :=
  if args.pointers || args.calls || args.jumps then ⟨args.pointers, args.calls, args.jumps⟩
  else .all

/-- The whole image counts as one segment that can be executed. -/
def runScan (files : Files) (args : ScanArgs) : Step String := do
  let a ← architectureNamed args.arch
  let image ← openImage files a args.image args.base
  let known ← args.targets.mapM (addressFrom a)
  let segments := SegmentMap.empty.insert ⟨"image", image, ⟨true, false, true⟩⟩
  let reader ← expect (a.reader image image.base) ImageError.message "Failed to read image"
  let hits := (Scan.mk a.mode segments known args.kinds).hits reader
  report (Scan.events hits)
  record .info .scanCommand s!"{hits.length} reference(s) found"
  return joinLines (hits.map Address.render)

def runCommand (files : Files) : Command → Step String
  | .archs => return joinLines (architecturesReport .builtin)
  | .regs arch => do
    let a ← architectureNamed arch
    return joinLines (registersReport a.processor)
  | .lift args => runLift files args
  | .scan args => runScan files args

/-- The least important records that are shown: warnings, and more as `-v` is repeated. -/
def shownRank (verbosity : Nat) : Nat := Level.warn.rank + min verbosity 3

/-- The log lines of events at a verbosity; no host listens to warnings. -/
def logText (verbosity : Nat) (events : List Event) : String :=
  joinLines (((events.map Event.unheardRecord).filter fun r =>
    r.level.rank ≤ shownRank verbosity).map Record.render)

def runInvocation (files : Files) (i : Invocation) : Output :=
  match (runCommand files i.command).run [] with
  | (.ok stdout, events) => ⟨0, stdout, logText i.verbosity events⟩
  | (.error failure, events) => ⟨1, "", logText i.verbosity events ++ failure.render⟩

def usageText : String :=
  "Usage: rtlift [-v]... archs\n" ++
  "       rtlift [-v]... regs [-A ARCH]\n" ++
  "       rtlift [-v]... lift IMAGE -b BASE [-A ARCH] [-e ENTRY]... [-p POLICY] [-n LIMIT]\n" ++
  "                      [--no-stop] [--json]\n" ++
  "       rtlift [-v]... scan IMAGE -b BASE -t TARGET... [-A ARCH] [--pointers] [--calls]\n" ++
  "                      [--jumps]\n"

def versionText : String := "rtlift 0.1.0\n"

/-- Run the program on the words behind its name. -/
def run (files : Files) (words : List String) : Output :=
  match read words with
  | .ok i => runInvocation files i
  | .error .version => ⟨0, versionText, ""⟩
  | .error .help => ⟨0, usageText, ""⟩
  | .error .usage => ⟨2, "", usageText⟩

end CodeLift.Cli
