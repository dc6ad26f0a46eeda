-- SUMMARY: Register-transfer expressions and their text.
import CodeLift.Address.Text
import CodeLift.Condition
import CodeLift.Constant
import CodeLift.Storage

/-!
# Register-transfer expressions

An expression denotes a value of some width: a constant, a storage location, an
access to memory, or an operator applied to expressions. Conditions are values
too: `conditionOf e` stands for the flags that computing `e` leaves, and a test
evaluates a branch condition over a flag group.
-/

namespace CodeLift

inductive BinaryOp where
  | add
  | sub
  | mul
  | and
  | or
  | xor
  deriving DecidableEq

inductive UnaryOp where
  | neg
  | not
  deriving DecidableEq

def BinaryOp.all : List BinaryOp := [.add, .sub, .mul, .and, .or, .xor]

/-- The word for an operator in reports. -/
def BinaryOp.name : BinaryOp → String
  | .add => "Add"
  | .sub => "Sub"
  | .mul => "Mul"
  | .and => "And"
  | .or => "Or"
  | .xor => "Xor"

def BinaryOp.ofName? (name : String) : Option BinaryOp :=
  BinaryOp.all.find? fun op => op.name == name

def UnaryOp.all : List UnaryOp := [.neg, .not]

/-- The word for an operator in reports. -/
def UnaryOp.name : UnaryOp → String
  | .neg => "Neg"
  | .not => "Not"

def UnaryOp.ofName? (name : String) : Option UnaryOp :=
  UnaryOp.all.find? fun op => op.name == name

inductive Expr where
  | constant (c : Constant)
  | register (r : Register)
  | flags (g : FlagGroup)
  | identifier (id : Identifier)
  | address (a : Address)
  /-- An imported procedure. -/
  | external (name : String)
  | binary (op : BinaryOp) (left right : Expr) (bits : Nat)
  | unary (op : UnaryOp) (e : Expr) (bits : Nat)
  | memory (segment : Option Register) (place : Expr) (bits : Nat)
  | test (condition : Condition) (g : FlagGroup)
  | conditionOf (e : Expr)
  deriving DecidableEq

namespace Expr

/-! ## Making expressions -/

/-- The sum of an expression and a displacement; a displacement of zero leaves no trace. -/
def displaced (e : Expr) (d : Int) (bits : Nat) : Expr :=
  if d = 0 then e
  else if d < 0 then .binary .sub e (.constant (.ofNat bits d.natAbs)) bits
  else .binary .add e (.constant (.ofNat bits d.natAbs)) bits

/-! ## Views -/

def bits? : Expr → Option Nat
  | .constant c => c.bits?
  | .register r => some r.bits
  | .flags _ => some 1
  | .identifier id => some id.bits
  | .address a => some a.width.bits
  | .external _ => none
  | .binary _ _ _ bits => some bits
  | .unary _ _ bits => some bits
  | .memory _ _ bits => some bits
  | .test _ _ => some 1
  | .conditionOf _ => none

/-- The expression is a storage location that can be assigned. -/
def isLocation : Expr → Bool
  | .register _ | .flags _ | .identifier _ => true
  | _ => false

def isMemory : Expr → Bool
  | .memory _ _ _ => true
  | _ => false

end Expr

/-! ## Printer -/

def BinaryOp.symbol : BinaryOp → String
  | .add => "+"
  | .sub => "-"
  | .mul => "*"
  | .and => "&"
  | .or => "|"
  | .xor => "^"

def UnaryOp.symbol : UnaryOp → String
  | .neg => "-"
  | .not => "~"

def Expr.render : Expr → String
  | .constant c => c.render
  | .register r => r.name
  | .flags g => g.name
  | .identifier id => id.name
  | .address a => a.render
  | .external name => name
  | .binary op left right _ => s!"{left.render} {op.symbol} {right.render}"
  | .unary op e _ => op.symbol ++ e.render
  | .memory (some segment) place bits => s!"Mem[{segment.name}:{place.render}:word{bits}]"
  | .memory none place bits => s!"Mem[{place.render}:word{bits}]"
  | .test condition g => s!"Test({condition.suffix.toUpper},{g.name})"
  | .conditionOf e => s!"cond({e.render})"

end CodeLift
