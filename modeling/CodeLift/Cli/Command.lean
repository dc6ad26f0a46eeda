-- SUMMARY: The commands of the program and how they are given.
import CodeLift.Cli.Tokens

/-!
# Commands

`archs` lists architectures, `regs` shows registers, `lift` lifts procedures of
an image, `scan` finds references in one. `-v` asks for more diagnostics; given
behind the command it replaces what was given in front of it.
-/

namespace CodeLift.Cli

structure LiftArgs where
  image : String
  arch : String
  base : String
  entries : List String
  policy : String
  limit : Nat
  noStop : Bool
  json : Bool
  deriving DecidableEq

structure ScanArgs where
  image : String
  arch : String
  base : String
  targets : List String
  pointers : Bool
  calls : Bool
  jumps : Bool
  deriving DecidableEq

inductive Command where
  | archs
  | regs (arch : String)
  | lift (args : LiftArgs)
  | scan (args : ScanArgs)
  deriving DecidableEq

structure Invocation where
  verbosity : Nat
  command : Command
  deriving DecidableEq

/-! ## Options -/

def verboseSpec : OptionSpec := ⟨"verbose", some 'v', .nothing, true⟩
def helpSpec : OptionSpec := ⟨"help", some 'h', .nothing, true⟩
def versionSpec : OptionSpec := ⟨"version", some 'V', .nothing, true⟩
def archSpec : OptionSpec := ⟨"arch", some 'A', .text, false⟩
def baseSpec : OptionSpec := ⟨"base", some 'b', .text, false⟩

/-- A switch without a short form. -/
def switchSpec (long : String) : OptionSpec := ⟨long, none, .nothing, false⟩

def programSpecs : List OptionSpec := [verboseSpec, helpSpec, versionSpec]

def archsShape : Shape := ⟨[verboseSpec, helpSpec], 0⟩

def regsShape : Shape := ⟨[archSpec, verboseSpec, helpSpec], 0⟩

def liftShape : Shape where
  options :=
    [archSpec, baseSpec, ⟨"entry", some 'e', .text, true⟩, ⟨"policy", some 'p', .text, false⟩,
     ⟨"max-instructions", some 'n', .count, false⟩, switchSpec "no-stop", switchSpec "json",
     verboseSpec, helpSpec]
  arity := 1

def scanShape : Shape where
  options :=
    [archSpec, baseSpec, ⟨"target", some 't', .text, true⟩, switchSpec "pointers",
     switchSpec "calls", switchSpec "jumps", verboseSpec, helpSpec]
  arity := 1

def defaultArch : String := "x86-protected-32"

def archOf (given : List Given) : String := (valuesOf given "arch").headD defaultArch

/-! ## Reading commands -/

/-- The positional argument, which is the path of an image. -/
def imageOf (given : List Given) : Except Stop String :=
  match positionals given with
  | path :: _ => .ok path
  | [] => .error .usage

def requiredValue (given : List Given) (long : String) : Except Stop String :=
  match valuesOf given long with
  | value :: _ => .ok value
  | [] => .error .usage

def defaultLimit : Nat := 10000

def limitOf (given : List Given) : Nat :=
  ((valuesOf given "max-instructions").head?.bind count?).getD defaultLimit

def liftOf (given : List Given) : Except Stop Command := do
  let image ← imageOf given
  let base ← requiredValue given "base"
  return .lift {
    image, base
    arch := archOf given
    entries := valuesOf given "entry"
    policy := (valuesOf given "policy").headD "partial"
    limit := limitOf given
    noStop := hasFlag given "no-stop"
    json := hasFlag given "json" }

def scanOf (given : List Given) : Except Stop Command := do
  let image ← imageOf given
  let base ← requiredValue given "base"
  let _ ← requiredValue given "target"
  return .scan {
    image, base
    arch := archOf given
    targets := valuesOf given "target"
    pointers := hasFlag given "pointers"
    calls := hasFlag given "calls"
    jumps := hasFlag given "jumps" }

/-- The commands by name. -/
def commandNames : List String := ["archs", "regs", "lift", "scan", "help"]

/-- Why a request for help with the given words ends reading: at most one command is named. -/
def helpFor : List String → Stop
  | [] => .help
  | [name] => if commandNames.contains name then .help else .usage
  | _ => .usage

/-- Read a command from its name and the words behind it. -/
def readCommand (name : String) (words : List String) : Except Stop (List Given × Command) :=
  match name with
  | "archs" => do
    let given ← archsShape.read words
    return (given, .archs)
  | "regs" => do
    let given ← regsShape.read words
    return (given, .regs (archOf given))
  | "lift" => do
    let given ← liftShape.read words
    return (given, ← liftOf given)
  | "scan" => do
    let given ← scanShape.read words
    return (given, ← scanOf given)
  | "help" => .error (helpFor words)
  | _ => .error .usage

/-- Read a whole command line; `verbosity` was asked for so far. -/
def readFrom (verbosity : Nat) : List String → Except Stop Invocation
  | [] => .error .usage
  | word :: rest =>
    if word = "--" then .error .usage
    else if isOption word then
      match readWord programSpecs word with
      | .complete given => readFrom (verbosity + countOf given "verbose") rest
      | .needsValue _ _ => .error .usage
      | .stop s => .error s
    else do
      let (given, command) ← readCommand word rest
      let behind := countOf given "verbose"
      return ⟨if behind = 0 then verbosity else behind, command⟩

def read (words : List String) : Except Stop Invocation := readFrom 0 words

end CodeLift.Cli
