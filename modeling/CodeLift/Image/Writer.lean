-- SUMMARY: Writing an image in sequence.
import CodeLift.ByteOrder
import CodeLift.Image
import CodeLift.InPlace

/-!
# Writers

A writer stands at a position of an image and overwrites bytes from there on,
without changing the size of the image. The operations of `Writing` change
writer and image in place; those of the same names in `Writer` give the writer
behind them, to go on with.
-/

namespace CodeLift

structure Writer where
  image : Image
  position : Nat
  order : ByteOrder
  deriving DecidableEq

namespace Writer

def startingAt (m : Image) (a : Address) (order : ByteOrder) : Except ImageError Writer :=
  match m.position? a with
  | some position => .ok ⟨m, position, order⟩
  | none => .error (.notMapped a)

def address (w : Writer) : Address := w.image.addressAt w.position

/-- The number of bytes that can still be written. -/
def available (w : Writer) : Nat := w.image.size - w.position

end Writer

/-! ## Writing in place -/

/-- An operation that moves a writer and changes its image. -/
abbrev Writing := InPlace ImageError Writer

namespace Writing

def seek (a : Address) : Writing Unit := do
  let w ← get
  match w.image.position? a with
  | some position => set { w with position }
  | none => throw (.notMapped a)

def put (data : List UInt8) : Writing Unit := do
  let w ← get
  if w.available < data.length then
    throw (.outOfBounds w.address data.length w.available)
  modify fun w => { w with image := w.image.overwrite w.position data }
  modify fun w => { w with position := w.position + data.length }

/-- Write the low `size` bytes of `value`. -/
def putUnsigned (value size : Nat) : Writing Unit := do
  put ((← get).order.split value size)

end Writing

/-! ## Writing step by step -/

namespace Writer

def seek (w : Writer) (a : Address) : Except ImageError Writer :=
  ((Writing.seek a).attempt w).map Prod.snd

def put (w : Writer) (data : List UInt8) : Except ImageError Writer :=
  ((Writing.put data).attempt w).map Prod.snd

def putUnsigned (w : Writer) (value size : Nat) : Except ImageError Writer :=
  ((Writing.putUnsigned value size).attempt w).map Prod.snd

end Writer

end CodeLift
