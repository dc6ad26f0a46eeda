-- SUMMARY: Architectures: a processor with what can be done for it, and its options.
import CodeLift.Event
import CodeLift.Frame
import CodeLift.Image.Reader
import CodeLift.Image.Writer
import CodeLift.InPlace
import CodeLift.Options
import CodeLift.Rtl.Expr
import CodeLift.State
import CodeLift.X86.Translation

/-!
# Architectures

An architecture is an x86 mode with the tables of the processor in that mode and
a degree of support: tables alone, tables and a decoder, or everything. Tables
alone give registers, flags, frames and plain processor states; full support adds
addresses in the processor's own form, lifting, scanning and options.

A fully supported architecture keeps the options it does not know and gives them
back when they are saved; the others accept none.
-/

namespace CodeLift

/-- How much is there for an architecture. -/
inductive Support where
  | tables
  | decoding
  | full
  deriving DecidableEq

structure Architecture extends X86.Variant where
  support : Support
  /-- The options that have no meaning here and are kept. -/
  kept : Options

/-- What is wrong with the choice or the options of an architecture. -/
inductive ArchitectureError where
  | unknown (name : String)
  | invalidOption (key reason : String)
  deriving DecidableEq

/-- The word for an error in reports. -/
def ArchitectureError.kind : ArchitectureError → String
  | .unknown _ => "UnknownArchitecture"
  | .invalidOption _ _ => "InvalidOption"

def ArchitectureError.message : ArchitectureError → String
  | .unknown name => s!"unknown architecture: {name}"
  | .invalidOption key reason => s!"invalid value for option {key}: {reason}"

namespace Architecture

def name (a : Architecture) : String := a.processor.name

def decodes (a : Architecture) : Bool := a.support != .tables

def isFull (a : Architecture) : Bool := a.support == .full

/-! ## Making things -/

/-- A processor state in which nothing is known. -/
def newState (a : Architecture) : State :=
  .initial a.processor (if a.isFull then some (X86.flagGroup X86.directionFlag) else none)

def newFrame (a : Architecture) : Frame := .empty a.processor.wordBits

def reader (a : Architecture) (m : Image) (place : Address) : Except ImageError Reader :=
  Reader.startingAt m place a.processor.order

def writer (a : Architecture) (m : Image) (place : Address) : Except ImageError Writer :=
  Writer.startingAt m place a.processor.order

/-- The access to the stack at `offset` from the stack pointer. -/
def stackAccess (a : Architecture) (offset : Int) (bits : Nat) : Expr :=
  if a.isFull then X86.stackAccess a.mode offset bits
  else
    let sp := a.processor.stackPointer
    .memory none ((Expr.register sp).displaced offset sp.bits) bits

/-! ## Addresses -/

/-- The flat address of a known value, which has to fit a pointer. -/
def addressOf (a : Architecture) (c : Constant) : Except AddressError Address :=
  match c.word? with
  | some value => Address.flat? a.processor.pointerWidth value
  | none => .error (.malformed c.render)

/-- Read an address; a flat one has the width of a pointer. -/
def readAddress (a : Architecture) (text : String) : Except AddressError Address :=
  Address.readAs a.processor.pointerWidth text

/-! ## Options -/

/-- The option that holds the mode. -/
def modeOption : String := "mode"

def saveOptions (a : Architecture) : Options :=
  if a.isFull then Options.insert modeOption (.item a.mode.optionValue) a.kept else []

/-- Change the mode, and with it the processor. -/
def setMode (mode : X86.Mode) : InPlace ArchitectureError Architecture Unit := do
  modify fun a => { a with mode := mode }
  modify fun a => { a with processor := X86.processor mode }

/-- Take over options. -/
def load (options : Options) : InPlace ArchitectureError Architecture Unit := do
  if (← get).isFull then
    if let some value := Options.find? options modeOption then
      match value.item?.bind X86.Mode.ofOption? with
      | some mode => setMode mode
      | none => throw (.invalidOption modeOption "expected real16 or protected32")
    modify fun a => { a with kept := Options.erase options modeOption }
  else
    if let (key, _) :: _ := options then throw (.invalidOption key "not supported")

/-- The architecture with the options taken over. -/
def loadOptions (a : Architecture) (options : Options) : Except ArchitectureError Architecture :=
  ((load options).attempt a).map Prod.snd

/-- What a project saves of this architecture. -/
def saved (a : Architecture) : SavedArchitecture := ⟨a.name, a.saveOptions⟩

end Architecture

end CodeLift
