-- SUMMARY: Register-transfer statements and the clusters that lifting makes of instructions.
import CodeLift.Rtl.Expr

/-!
# Register-transfer statements

Lifting turns an instruction into a cluster: the statements that have its
effect, in order. An instruction that cannot be lifted leaves a cluster with the
statement `invalid`, which still covers its bytes.
-/

namespace CodeLift

inductive Stmt where
  | assign (dst src : Expr)
  | store (dst src : Expr)
  | branch (condition : Expr) (target : Address)
  | goto (target : Expr)
  /-- A call, which returns to the next instruction. -/
  | call (target : Expr) (returnSize : Nat)
  /-- Return, taking the return address and `extra` more bytes off the stack. -/
  | ret (returnSize extra : Nat)
  | nop
  | invalid
  deriving DecidableEq

namespace Stmt

/-- Set `dst` to `src`: a store if `dst` is in memory, else an assignment. -/
def set (dst src : Expr) : Stmt := if dst.isMemory then .store dst src else .assign dst src

def render : Stmt → String
  | .assign dst src => s!"{dst.render} = {src.render}"
  | .store dst src => s!"{dst.render} = {src.render}"
  | .branch condition target => s!"branch {condition.render} {target.render}"
  | .goto target => s!"goto {target.render}"
  | .call target returnSize => s!"call {target.render} ({returnSize})"
  | .ret returnSize extra => s!"return ({returnSize},{extra})"
  | .nop => "nop"
  | .invalid => "<invalid>"

end Stmt

/-- The statements of the instruction at `address`, which is `length` bytes long. -/
structure Cluster where
  address : Address
  length : Nat
  statements : List Stmt
  deriving DecidableEq

namespace Cluster

/-- The address just past the instruction. -/
def next (c : Cluster) : Address := c.address.advance c.length

/-- The instruction could not be lifted. -/
def isInvalid (c : Cluster) : Bool := c.statements.any (· == .invalid)

def render (c : Cluster) : String :=
  s!"{c.address.render}({c.length}):" ++ String.join (c.statements.map fun s => s!" {s.render};")

end Cluster

end CodeLift
