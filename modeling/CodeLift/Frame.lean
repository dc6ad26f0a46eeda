-- SUMMARY: The identifiers of one procedure, handed out once per location and width.
import CodeLift.Storage

/-!
# Frames

A frame hands out identifiers. Asking again for the same location at the same
width gives the same identifier, so the list only grows at its end.
-/

namespace CodeLift

structure Frame where
  /-- The width of a stack slot. -/
  wordBits : Nat
  /-- The identifiers in the order in which they were asked for. -/
  identifiers : List Identifier
  deriving DecidableEq

namespace Frame

def empty (wordBits : Nat) : Frame := ⟨wordBits, []⟩

def find? (f : Frame) (storage : Storage) (bits : Nat) : Option Identifier :=
  f.identifiers.find? fun id => id.storage == storage && id.bits == bits

/-- The identifier of a location at a width, made if it is missing. -/
def ensure (f : Frame) (storage : Storage) (bits : Nat) : Identifier × Frame :=
  match f.find? storage bits with
  | some id => (id, f)
  | none =>
    let id : Identifier := ⟨storage.name, bits, storage⟩
    (id, { f with identifiers := f.identifiers ++ [id] })

/-- The frame after asking for a location at a width. -/
def add (f : Frame) (storage : Storage) (bits : Nat) : Frame := (f.ensure storage bits).2

def addRegister (f : Frame) (r : Register) : Frame := f.add (.register r) r.bits

/-- A flag group counts as one bit. -/
def addFlags (f : Frame) (g : FlagGroup) : Frame := f.add (.flags g) 1

def addLocal (f : Frame) (offset : Int) (bits : Nat) : Frame := f.add (.stackLocal offset) bits

def addArgument (f : Frame) (offset : Int) (bits : Nat) : Frame :=
  f.add (.stackArgument offset) bits

end Frame

end CodeLift
