-- SUMMARY: Options, flags and positional arguments among the words of a command line.
import CodeLift.Text.Numeral
import CodeLift.Width

/-!
# Command line words

A word that starts with a hyphen gives options: `--name`, `--name=value`, or a
cluster of short flags, of which the last may take the rest of the word or the
next word as its value. A value of its own does not start with a hyphen. Behind
`--` every word is positional.

Words are read in order, and reading ends at the first request for help or at
the first word that makes no sense.
-/

namespace CodeLift.Cli

/-- What an option takes. -/
inductive Argument where
  | nothing
  | text
  /-- A numeral below 2^64. -/
  | count
  deriving DecidableEq

structure OptionSpec where
  long : String
  short : Option Char
  argument : Argument
  /-- The option may be given more than once. -/
  repeats : Bool
  deriving DecidableEq

def OptionSpec.takesValue (spec : OptionSpec) : Bool := spec.argument != .nothing

/-- What a command accepts behind its name. -/
structure Shape where
  options : List OptionSpec
  /-- The greatest number of positional arguments. -/
  arity : Nat
  deriving DecidableEq

/-- Why there is no command to run. -/
inductive Stop where
  | usage
  | help
  | version
  deriving DecidableEq

/-- One thing that was given on the command line. -/
inductive Given where
  | flag (long : String)
  | option (long value : String)
  | positional (text : String)
  deriving DecidableEq

/-- What a single word says. -/
inductive Word where
  | complete (given : List Given)
  /-- The option's value is the next word. -/
  | needsValue (given : List Given) (long : String)
  | stop (s : Stop)
  deriving DecidableEq

/-- The flags for help and version end reading at once. -/
def Word.ofFlag (long : String) : Word :=
  if long = "help" then .stop .help
  else if long = "version" then .stop .version
  else .complete [.flag long]

/-- Put what was given before in front. -/
def Word.after (given : List Given) : Word → Word
  | .complete more => .complete (given ++ more)
  | .needsValue more long => .needsValue (given ++ more) long
  | .stop s => .stop s

/-- The name and the value of a long option. -/
def splitValue : List Char → List Char × Option (List Char)
  | [] => ([], none)
  | '=' :: rest => ([], some rest)
  | c :: rest =>
    let (name, value) := splitValue rest
    (c :: name, value)

def longWord (specs : List OptionSpec) (body : List Char) : Word :=
  let (name, value) := splitValue body
  match specs.find? (·.long == String.ofList name), value with
  | none, _ => .stop .usage
  | some spec, none =>
    if spec.takesValue then .needsValue [] spec.long else Word.ofFlag spec.long
  | some spec, some value =>
    if spec.takesValue then .complete [.option spec.long (String.ofList value)] else .stop .usage

/-- The value attached to a short option; an equals sign may stand between. -/
def attached : List Char → List Char
  | '=' :: rest => rest
  | text => text

def shortWord (specs : List OptionSpec) : List Char → Word
  | [] => .complete []
  | c :: rest =>
    match specs.find? (·.short == some c) with
    | none => .stop .usage
    | some spec =>
      if !spec.takesValue then
        match Word.ofFlag spec.long with
        | .complete given => (shortWord specs rest).after given
        | word => word
      else if rest.isEmpty then .needsValue [] spec.long
      else .complete [.option spec.long (String.ofList (attached rest))]

/-- The word gives options. -/
def isOption (word : String) : Bool :=
  match word.toList with
  | '-' :: _ :: _ => true
  | _ => false

def readWord (specs : List OptionSpec) (word : String) : Word :=
  match word.toList with
  | '-' :: '-' :: body => longWord specs body
  | '-' :: c :: rest => shortWord specs (c :: rest)
  | _ => .complete [.positional word]

/-- What the words give, up to the first that ends reading, and why it ends. -/
def readWords (specs : List OptionSpec) : List String → List Given × Option Stop
  | [] => ([], none)
  | word :: rest =>
    if word = "--" then (rest.map .positional, none)
    else
      match readWord specs word, rest with
      | .stop s, _ => ([], some s)
      | .complete given, rest =>
        let (more, stop) := readWords specs rest
        (given ++ more, stop)
      | .needsValue _ _, [] => ([], some .usage)
      | .needsValue given long, value :: rest =>
        if isOption value then ([], some .usage)
        else
          let (more, stop) := readWords specs rest
          (given ++ .option long value :: more, stop)

/-! ## Views -/

def positionals (given : List Given) : List String :=
  given.filterMap fun g => match g with
    | .positional text => some text
    | _ => none

def valuesOf (given : List Given) (long : String) : List String :=
  given.filterMap fun g => match g with
    | .option name value => if name = long then some value else none
    | _ => none

def countOf (given : List Given) (long : String) : Nat := given.count (.flag long)

def hasFlag (given : List Given) (long : String) : Bool := given.contains (.flag long)

/-- A count, which is a decimal numeral. -/
def count? (text : String) : Option Nat := Text.decimalNumeral? (modulus 64) text.toList

/-- The option was given at most as often as it may be, and its counts are numerals. -/
def OptionSpec.accepts (spec : OptionSpec) (given : List Given) : Bool :=
  let values := valuesOf given spec.long
  (spec.repeats || values.length + countOf given spec.long ≤ 1) &&
    (spec.argument != .count || values.all fun text => (count? text).isSome)

/-- What was given fits the shape; a positional argument is not empty. -/
def Shape.accepts (shape : Shape) (given : List Given) : Bool :=
  shape.options.all (·.accepts given) &&
    (positionals given).length ≤ shape.arity && (positionals given).all (· != "")

/-- Read the words behind a command's name. What was given has to fit the shape even where
help is asked for behind it. -/
def Shape.read (shape : Shape) (words : List String) : Except Stop (List Given) :=
  match readWords shape.options words with
  | (given, stop) =>
    if !shape.accepts given then .error .usage
    else
      match stop with
      | some s => .error s
      | none => .ok given

end CodeLift.Cli
