-- SUMMARY: Reading an image in sequence.
import CodeLift.ByteOrder
import CodeLift.Image
import CodeLift.InPlace

/-!
# Readers

A reader stands at a position of an image and reads forward, up to a limit. The
operations of `Reading` move it in place; those of the same names in `Reader`
give the moved reader beside the value, to go on with.
-/

namespace CodeLift

structure Reader where
  image : Image
  /-- The first position that may be sought. -/
  first : Nat
  position : Nat
  /-- The position behind the last byte that may be read. -/
  limit : Nat
  order : ByteOrder
  deriving DecidableEq

/-- The outcome of a reading step: a value and the reader behind it. -/
abbrev ReadResult (α : Type) := Except ImageError (α × Reader)

namespace Reader

/-! ## Making readers -/

/-- A reader of the whole image, at its start. -/
def ofImage (m : Image) (order : ByteOrder) : Reader := ⟨m, 0, 0, m.size, order⟩

/-- A reader of the whole image, at an address. -/
def startingAt (m : Image) (a : Address) (order : ByteOrder) : Except ImageError Reader :=
  match m.position? a with
  | some position => .ok ⟨m, 0, position, m.size, order⟩
  | none => .error (.notMapped a)

/-- A reader of the bytes between two addresses. -/
def between (m : Image) (start stop : Address) (order : ByteOrder) : Except ImageError Reader :=
  match m.position? start, m.position? stop with
  | none, _ => .error (.notMapped start)
  | some _, none => .error (.notMapped stop)
  | some first, some last => .ok ⟨m, first, first, max last first, order⟩

/-! ## Views -/

def address (r : Reader) : Address := r.image.addressAt r.position

def remaining (r : Reader) : Nat := r.limit - r.position

def hasMore (r : Reader) : Bool := r.position < r.limit

/-- At most `count` of the bytes to come. -/
def peek (r : Reader) (count : Nat) : List UInt8 :=
  (r.image.bytes.drop r.position).take (min count r.remaining)

def peekByte (r : Reader) : Except ImageError UInt8 :=
  match r.peek 1 with
  | b :: _ => .ok b
  | [] => .error (.outOfBounds r.address 1 0)

end Reader

/-! ## Reading in place -/

/-- An operation that moves a reader. -/
abbrev Reading := InPlace ImageError Reader

namespace Reading

def seek (a : Address) : Reading Unit := do
  let r ← get
  let distance := a.linear - r.image.base.linear
  if r.image.base.linear ≤ a.linear ∧ r.first ≤ distance ∧ distance ≤ r.limit then
    set { r with position := distance }
  else throw (.notMapped a)

/-- Read `count` bytes. -/
def take (count : Nat) : Reading (List UInt8) := do
  let r ← get
  if r.remaining < count then throw (.outOfBounds r.address count r.remaining)
  set { r with position := r.position + count }
  return r.peek count

def skip (count : Nat) : Reading Unit := do
  let _ ← take count

/-- Read an unsigned integer of `size` bytes. -/
def unsigned (size : Nat) : Reading Nat := do
  let order := (← get).order
  return order.assemble (← take size)

/-- Read a two's complement integer of `size` bytes. -/
def signed (size : Nat) : Reading Int := do
  return ((← unsigned size : Nat) : Int).bmod (modulus (8 * size))

end Reading

/-! ## Reading step by step -/

namespace Reader

def seek (r : Reader) (a : Address) : Except ImageError Reader :=
  ((Reading.seek a).attempt r).map Prod.snd

def take (r : Reader) (count : Nat) : ReadResult (List UInt8) := (Reading.take count).attempt r

def skip (r : Reader) (count : Nat) : Except ImageError Reader :=
  ((Reading.skip count).attempt r).map Prod.snd

def unsigned (r : Reader) (size : Nat) : ReadResult Nat := (Reading.unsigned size).attempt r

def signed (r : Reader) (size : Nat) : ReadResult Int := (Reading.signed size).attempt r

end Reader

end CodeLift
