-- SUMMARY: What an operation reports on its way: log records and warnings.
import CodeLift.Address.Text

/-!
# Events

Operations are pure, and what they have to report is part of their result: log
records, and warnings addressed to the host. A host that does not listen has its
warnings logged.
-/

namespace CodeLift

inductive Level where
  | error
  | warn
  | info
  | debug
  | trace
  deriving DecidableEq

def Level.name : Level → String
  | .error => "ERROR"
  | .warn => "WARN"
  | .info => "INFO"
  | .debug => "DEBUG"
  | .trace => "TRACE"

/-- The amount of detail: a record is shown where its level is at most the level asked for. -/
def Level.rank : Level → Nat
  | .error => 1
  | .warn => 2
  | .info => 3
  | .debug => 4
  | .trace => 5

/-- The part of the program that a record comes from. -/
inductive Origin where
  | program
  | scanCommand
  | host
  | options
  | procedure
  | scanner
  | calls
  | decoder
  | translator
  | conventions
  deriving DecidableEq

/-- The label of an origin in log lines. -/
def Origin.label : Origin → String
  | .program => "rtlift"
  | .scanCommand => "rtlift::commands::scan"
  | .host => "rtlift_arch::traits"
  | .options => "rtlift_arch::options"
  | .procedure => "rtlift_arch::lift"
  | .scanner => "rtlift_arch::scanner"
  | .calls => "rtlift_arch::state"
  | .decoder => "rtlift_arch::x86::decoder"
  | .translator => "rtlift_arch::x86::rewriter"
  | .conventions => "rtlift_arch::x86::state"

structure Record where
  level : Level
  origin : Origin
  text : String
  deriving DecidableEq

/-- One line of a log; the level takes five columns. -/
def Record.render (r : Record) : String :=
  let filler := String.ofList (List.replicate (5 - r.level.name.length) ' ')
  s!"[{r.level.name}{filler} {r.origin.label}] {r.text}"

inductive Event where
  | logged (r : Record)
  | warned (address : Address) (text : String)
  deriving DecidableEq

namespace Event

def debug (origin : Origin) (text : String) : Event := .logged ⟨.debug, origin, text⟩

def trace (origin : Origin) (text : String) : Event := .logged ⟨.trace, origin, text⟩

/-- The record of an event when a host listens to warnings. -/
def record? : Event → Option Record
  | .logged r => some r
  | .warned _ _ => none

/-- The record of an event when no host listens. -/
def unheardRecord : Event → Record
  | .logged r => r
  | .warned address text => ⟨.warn, .host, s!"{address.render}: {text}"⟩

/-- The warning that a host hears. -/
def warning? : Event → Option (Address × String)
  | .logged _ => none
  | .warned address text => some (address, text)

end Event

end CodeLift
