-- SUMMARY: The meaning of register transfers: what they do to the cells and the memory of a machine.
import CodeLift.ByteOrder
import CodeLift.Rtl.Stmt

/-!
# Machines

A machine gives a value to every cell and a byte to every place of memory. Each
register is a cell of its own, so `eax` and `ax` do not share bits here; the same
holds for flag groups and identifiers. A flag group keeps the value whose
conditions it stands for.

Expressions are evaluated with operators modulo their width, and statements run
in order. Transfers of control change no cell. A cell reads as what was last
written to it (`cell_set_self`, `cell_set_of_ne`), and so does memory
(`load_store_self`, `load_store_of_disjoint`).
-/

namespace CodeLift

/-! ## Cells -/

/-- A place outside memory that keeps a value. -/
inductive Cell where
  | register (r : Register)
  | flags (g : FlagGroup)
  | identifier (id : Identifier)
  deriving DecidableEq

/-- The part of a value that the cell can keep. -/
def Cell.fit : Cell → Nat → Nat
  | .register r, value => value % modulus r.bits
  | .flags _, value => value
  | .identifier id, value => value % modulus id.bits

@[simp] theorem Cell.fit_fit (c : Cell) (value : Nat) : c.fit (c.fit value) = c.fit value := by
  cases c <;> simp [Cell.fit]

/-- The cell that an expression names. -/
def Expr.cell? : Expr → Option Cell
  | .register r => some (.register r)
  | .flags g => some (.flags g)
  | .identifier id => some (.identifier id)
  | _ => none

theorem Expr.isSome_cell? (e : Expr) : e.cell?.isSome = e.isLocation := by
  cases e <;> rfl

/-! ## Operators -/

def BinaryOp.onBits {n : Nat} : BinaryOp → BitVec n → BitVec n → BitVec n
  | .add, x, y => x + y
  | .sub, x, y => x - y
  | .mul, x, y => x * y
  | .and, x, y => x &&& y
  | .or, x, y => x ||| y
  | .xor, x, y => x ^^^ y

def UnaryOp.onBits {n : Nat} : UnaryOp → BitVec n → BitVec n
  | .neg, x => -x
  | .not, x => ~~~x

/-- The value of an operator on operands of `bits` bits. -/
def BinaryOp.value (op : BinaryOp) (x y bits : Nat) : Nat :=
  (op.onBits (BitVec.ofNat bits x) (BitVec.ofNat bits y)).toNat

def UnaryOp.value (op : UnaryOp) (x bits : Nat) : Nat :=
  (op.onBits (BitVec.ofNat bits x)).toNat

theorem BinaryOp.value_lt (op : BinaryOp) (x y bits : Nat) : op.value x y bits < modulus bits := by
  rw [modulus_eq_pow]
  exact BitVec.isLt _

/-! ## Machines -/

structure Machine where
  cell : Cell → Nat
  /-- The bytes in the segment of a selector, or in the memory that has no segments. -/
  memory : Option Nat → Nat → UInt8
  /-- The addresses of imports. -/
  imported : String → Nat
  /-- The condition holds of a value that flags stand for. -/
  holds : Condition → Nat → Bool
  cell_fits : ∀ c, c.fit (cell c) = cell c

namespace Machine

def set (m : Machine) (c : Cell) (value : Nat) : Machine where
  cell c' := if c' = c then c.fit value else m.cell c'
  memory := m.memory
  imported := m.imported
  holds := m.holds
  cell_fits c' := by
    by_cases h : c' = c
    · subst h; simp
    · simp [h, m.cell_fits c']

/-- The unsigned integer in `size` bytes, the least significant byte first. -/
def load (m : Machine) (selector : Option Nat) (place size : Nat) : Nat :=
  littleEndian ((List.range size).map fun i => m.memory selector (place + i))

/-- Write bytes from a place on. -/
def store (m : Machine) (selector : Option Nat) (place : Nat) (bytes : List UInt8) : Machine :=
  { m with
    memory := fun s a =>
      if s = selector ∧ place ≤ a then bytes[a - place]?.getD (m.memory s a) else m.memory s a }

/-- The selector in a segment register. -/
def selector (m : Machine) (segment : Option Register) : Option Nat :=
  segment.map fun r => m.cell (.register r)

@[simp] theorem cell_set_self (m : Machine) (c : Cell) (value : Nat) :
    (m.set c value).cell c = c.fit value := by
  simp [set]

theorem cell_set_of_ne (m : Machine) {c c' : Cell} (value : Nat) (h : c' ≠ c) :
    (m.set c value).cell c' = m.cell c' := by
  simp [set, h]

@[simp] theorem memory_set (m : Machine) (c : Cell) (value : Nat) :
    (m.set c value).memory = m.memory := rfl

@[simp] theorem cell_store (m : Machine) (selector : Option Nat) (place : Nat)
    (bytes : List UInt8) : (m.store selector place bytes).cell = m.cell := rfl

@[simp] theorem load_store_self (m : Machine) (selector : Option Nat) (place : Nat)
    (bytes : List UInt8) :
    (m.store selector place bytes).load selector place bytes.length = littleEndian bytes := by
  have read : ((List.range bytes.length).map fun i =>
      (m.store selector place bytes).memory selector (place + i)) = bytes := by
    apply List.ext_getElem
    · simp
    · intro i h _
      simp at h
      simp [store, h]
  simp [load, read]

theorem load_store_of_disjoint (m : Machine) (selector : Option Nat) {place place' size : Nat}
    (bytes : List UInt8) (h : place' + size ≤ place ∨ place + bytes.length ≤ place') :
    (m.store selector place bytes).load selector place' size = m.load selector place' size := by
  have same : ∀ i < size,
      (m.store selector place bytes).memory selector (place' + i) =
        m.memory selector (place' + i) := by
    intro i hi
    by_cases hp : place ≤ place' + i
    · have : bytes.length ≤ place' + i - place := by omega
      simp [store, List.getElem?_eq_none this]
    · simp [store, hp]
  unfold load
  congr 1
  exact List.map_congr_left fun i hi => same i (List.mem_range.1 hi)

end Machine

/-! ## Evaluation -/

/-- The value of an expression. An unknown constant counts as zero. -/
def Expr.eval (m : Machine) : Expr → Nat
  | .constant .unknown => 0
  | .constant (.known _ value) => value
  | .register r => m.cell (.register r)
  | .flags g => m.cell (.flags g)
  | .identifier id => m.cell (.identifier id)
  | .address a => a.linear
  | .external name => m.imported name
  | .binary op left right bits => op.value (left.eval m) (right.eval m) bits
  | .unary op e bits => op.value (e.eval m) bits
  | .memory segment place bits => m.load (m.selector segment) (place.eval m) (bits / 8)
  | .test condition g => (m.holds condition (m.cell (.flags g))).toNat
  | .conditionOf e => e.eval m

/-! ## Execution -/

namespace Machine

/-- The machine behind a statement. -/
def step (m : Machine) : Stmt → Machine
  | .assign dst src =>
    match dst.cell? with
    | some c => m.set c (src.eval m)
    | none => m
  | .store (.memory segment place bits) src =>
    m.store (m.selector segment) (place.eval m) (littleEndianBytes (bits / 8) (src.eval m))
  | _ => m

/-- The machine behind statements that run in order. -/
def run (m : Machine) (statements : List Stmt) : Machine := statements.foldl step m

@[simp] theorem run_nil (m : Machine) : m.run [] = m := rfl

@[simp] theorem run_cons (m : Machine) (s : Stmt) (rest : List Stmt) :
    m.run (s :: rest) = (m.step s).run rest := rfl

theorem run_append (m : Machine) (first second : List Stmt) :
    m.run (first ++ second) = (m.run first).run second := by
  simp [run]

/-- The machine behind clusters. -/
def runClusters (m : Machine) (clusters : List Cluster) : Machine :=
  m.run (clusters.flatMap Cluster.statements)

end Machine

end CodeLift
