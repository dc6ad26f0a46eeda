-- SUMMARY: The registers of one machine: layout rules and look-up.
import CodeLift.Register

/-!
# Register tables

A table lists the registers of a machine in a fixed order. `check` states the
layout rules: numbers and names are unique, every register fits the greatest
width, and a carved register lies in an owner of its domain.
-/

namespace CodeLift

/-- What is wrong with a register table. -/
inductive LayoutError where
  | duplicateNumber (number : Nat)
  | duplicateName (name : String)
  | tooWide (name : String) (first last limit : Nat)
  | noOwner (name : String)
  | outsideOwner (name owner : String)
  deriving DecidableEq

def LayoutError.message (e : LayoutError) : String :=
  "invalid register table: " ++
    match e with
    | .duplicateNumber number => s!"duplicate register number {number}"
    | .duplicateName name => s!"duplicate register name {name}"
    | .tooWide name first last limit =>
      s!"{name} spans bits {first}..{last}, wider than {limit} bits"
    | .noOwner name => s!"{name} has no domain register"
    | .outsideOwner name owner => s!"{name} is not contained in {owner}"

structure RegisterTable where
  /-- The greatest width of a register. -/
  maxBits : Nat
  registers : List Register
  deriving DecidableEq

namespace RegisterTable

/-! ## Layout rules -/

/-- The rules of a single register against those that precede it. -/
def checkEach (maxBits : Nat) : List Register → List Register → Except LayoutError Unit
  | _, [] => .ok ()
  | seen, r :: rest =>
    if seen.any (·.number == r.number) then .error (.duplicateNumber r.number)
    else if seen.any (·.name == r.name) then .error (.duplicateName r.name)
    else if r.bits = 0 ∨ maxBits < r.countedEnd then
      .error (.tooWide r.name r.offset r.countedEnd maxBits)
    else checkEach maxBits (r :: seen) rest

/-- A carved register lies in the owner of its domain. -/
def checkOwner (registers : List Register) (r : Register) : Except LayoutError Unit :=
  match registers.find? (·.number == r.domain) with
  | none => .error (.noOwner r.name)
  | some owner =>
    if owner.isPart || !owner.covers r then .error (.outsideOwner r.name owner.name) else .ok ()

/-- The layout rules of a table. -/
def check (t : RegisterTable) : Except LayoutError Unit := do
  checkEach t.maxBits [] t.registers
  (t.registers.filter Register.isPart).forM (checkOwner t.registers)

/-! ## Look-up -/

def byNumber? (t : RegisterTable) (number : Nat) : Option Register :=
  t.registers.find? (·.number == number)

def byName? (t : RegisterTable) (name : String) : Option Register :=
  t.registers.find? (·.name == name)

/-- The owner of the register's domain. -/
def owner? (t : RegisterTable) (r : Register) : Option Register := t.byNumber? r.domain

/-- The register of `width` bits at bit `offset` of `r`. -/
def part? (t : RegisterTable) (r : Register) (offset width : Nat) : Option Register :=
  if offset = 0 ∧ width = r.bits then some r
  else if modulus 16 ≤ r.offset + offset then none
  else
    (t.registers.find? fun x =>
      x.domain == r.domain && x.offset == r.offset + offset && x.bits == width).filter (r.covers ·)

/-- The register itself, if one of the registers in use shares a bit with it. -/
def widestInUse? (r : Register) (inUse : List Register) : Option Register :=
  if inUse.any (·.overlaps r) then some r else none

/-- Every register that shares a bit with `r`, in table order. -/
def aliases (t : RegisterTable) (r : Register) : List Register :=
  t.registers.filter (·.overlaps r)

/-- The registers that share no bit with `r`. -/
def withoutAliases (registers : List Register) (r : Register) : List Register :=
  registers.filter fun x => !x.overlaps r

end RegisterTable

end CodeLift
