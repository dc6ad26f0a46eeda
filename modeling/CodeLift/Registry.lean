-- SUMMARY: The architectures that can be chosen by name.
import CodeLift.Architecture

/-!
# Registries

A registry offers architectures by name, in the order in which they were
registered; registering a name again replaces the earlier entry.
-/

namespace CodeLift

structure RegistryEntry where
  name : String
  description : String
  /-- The mode of the architecture. -/
  mode : X86.Mode
  deriving DecidableEq

structure Registry where
  entries : List RegistryEntry
  deriving DecidableEq

namespace Registry

def empty : Registry := ⟨[]⟩

def register (r : Registry) (entry : RegistryEntry) : Registry :=
  ⟨r.entries.filter (·.name != entry.name) ++ [entry]⟩

/-- The entry of an operating mode under its own name. -/
def entryOf (mode : X86.Mode) : RegistryEntry :=
  ⟨mode.architectureName, mode.description, mode⟩

/-- The registry of every architecture there is. -/
def builtin : Registry := (empty.register (entryOf .real16)).register (entryOf .protected32)

def names (r : Registry) : List String := r.entries.map RegistryEntry.name

/-- A fresh architecture of the given name. -/
def create (r : Registry) (name : String) : Except ArchitectureError Architecture :=
  match r.entries.find? (·.name == name) with
  | some entry => .ok ⟨entry.mode, .full, []⟩
  | none => .error (.unknown name)

/-- Create the saved architecture and give it its options. -/
def restore (r : Registry) (s : SavedArchitecture) : Except ArchitectureError Architecture := do
  let a ← r.create s.name
  a.loadOptions s.options

/-- What is reported when an architecture has been restored. -/
def restoreEvents (s : SavedArchitecture) (a : Architecture) : List Event :=
  [.debug .options s!"restored architecture {a.name} with {s.options.length} option(s)"]

end Registry

end CodeLift
