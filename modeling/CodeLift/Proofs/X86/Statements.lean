-- SUMMARY: The ways in which an instruction is lifted, each with its operands and statements.
import CodeLift.X86.Translation

/-!
# Statements of instructions

`Setting.statements?` gives the statements that rewriting an instruction emits, or `none` if
the instruction is refused. It sees the instruction, the mode and the names of imports, and
nothing of what is known about the processor.

`Setting.Emits` lists what an instruction can be lifted into, by its operation and its
operands or flow, and `emits_of_statements?` says that there is nothing else. What holds of
the statements of every lifted instruction is proved by its cases.
-/

namespace CodeLift.X86

theorem sameRegister?_eq_some {operands : List Operand} {r : Register} :
    sameRegister? operands = some r ↔ operands = [.register r, .register r] := by
  unfold sameRegister?
  constructor
  · intro h
    split at h
    · split at h
      · next heq =>
        cases h
        rw [heq]
      · cases h
    · cases h
  · rintro rfl
    exact if_pos rfl

/-! ## Flags -/

/-- The flags that arithmetic sets. -/
def arithmeticFlags : FlagGroup := flagGroup arithmeticMask

/-- The flags that logical operations set from their result. -/
def logicalFlags : FlagGroup := flagGroup logicalMask

/-- The flag that logical operations clear. -/
def clearedFlags : FlagGroup := flagGroup carryFlag

/-- The flags that a condition tests. -/
def conditionFlags (condition : Condition) : FlagGroup := flagGroup (conditionMask condition)

/-! ## Statements -/

namespace Setting

section

variable (s : Setting)

def moveStatements? : List Operand → Option (List Stmt)
  | [dst, src] => if dst.isImmediate then none else some [.set (s.expr dst) (s.expr src)]
  | _ => none

def arithmeticStatements? (op : BinaryOp) : List Operand → Option (List Stmt)
  | [dst, src] => do
    let bits ← dst.bits?
    return [.set (s.expr dst) (.binary op (s.expr dst) (s.expr src) bits),
      .set (.flags arithmeticFlags) (.conditionOf (s.expr dst))]
  | _ => none

def compareStatements? : List Operand → Option (List Stmt)
  | [dst, src] => do
    let bits ← dst.bits?
    return [.set (.flags arithmeticFlags)
      (.conditionOf (.binary .sub (s.expr dst) (s.expr src) bits))]
  | _ => none

def logicalStatements? (op : BinaryOp) : List Operand → Option (List Stmt)
  | [dst, src] => do
    let bits ← dst.bits?
    return [.set (s.expr dst) (.binary op (s.expr dst) (s.expr src) bits),
      .set (.flags logicalFlags) (.conditionOf (s.expr dst)),
      .set (.flags clearedFlags) (.constant (.ofBool false))]
  | _ => none

def zeroStatements? (operands : List Operand) : Option (List Stmt) := do
  let r ← sameRegister? operands
  return [.set (.register r) (.constant (.zero r.bits))]

def pushStatements? : List Operand → Option (List Stmt)
  | [src] => some
    [moveStackPointer s.mode (-s.slotBytes src), .store (s.slotAccess src) (s.expr src)]
  | _ => none

def popStatements? : List Operand → Option (List Stmt)
  | [dst] =>
    if dst.isImmediate then none
    else some [.set (s.expr dst) (s.slotAccess dst), moveStackPointer s.mode (s.slotBytes dst)]
  | _ => none

def callStatements? : List Operand → Option (List Stmt)
  | [target] => some [.call (s.callee target) s.returnSize]
  | _ => none

def jumpStatements? : List Operand → Option (List Stmt)
  | [target] => some [.goto (s.expr target)]
  | _ => none

def branchStatements? : Flow → Option (List Stmt)
  | .branch target condition _ => some [.branch (.test condition (conditionFlags condition)) target]
  | _ => none

def retStatements? : List Operand → Option (List Stmt)
  | [] => some [.ret s.returnSize 0]
  | [.immediate value bits] => some [.ret s.returnSize (immediateBits value bits % modulus 16)]
  | _ => none

/-- The statements of an instruction. -/
def statements? (i : Instruction) : Option (List Stmt) :=
  match i.operation with
  | .nop => some [.nop]
  | .move => s.moveStatements? i.operands
  | .add => s.arithmeticStatements? .add i.operands
  | .sub => s.arithmeticStatements? .sub i.operands
  | .compare => s.compareStatements? i.operands
  | .and => s.logicalStatements? .and i.operands
  | .or => s.logicalStatements? .or i.operands
  | .xor => zeroStatements? i.operands
  | .push => s.pushStatements? i.operands
  | .pop => s.popStatements? i.operands
  | .call => s.callStatements? i.operands
  | .jump => s.jumpStatements? i.operands
  | .conditionalJump => branchStatements? i.flow
  | .ret => s.retStatements? i.operands
  | .addWithCarry | .subWithBorrow | .other _ => none

end

/-- What is called is an import or the target itself. -/
theorem callee_cases (s : Setting) (target : Operand) :
    (∃ name, s.import? target = some name ∧ s.callee target = .external name) ∨
      s.import? target = none ∧ s.callee target = s.expr target := by
  unfold callee
  cases s.import? target with
  | some name => exact .inl ⟨name, rfl, rfl⟩
  | none => exact .inr ⟨rfl, rfl⟩

/-! ## Ways of lifting -/

/-- The statements that an instruction is lifted into. -/
inductive Emits (s : Setting) (i : Instruction) : List Stmt → Prop
  | nop (hoperation : i.operation = .nop) : Emits s i [.nop]
  | move {dst src : Operand} (hoperation : i.operation = .move)
      (hoperands : i.operands = [dst, src]) (hdst : dst.isImmediate = false) :
      Emits s i [.set (s.expr dst) (s.expr src)]
  | arithmetic {op : BinaryOp} {dst src : Operand} {bits : Nat}
      (hoperation : i.operation = .add ∧ op = .add ∨ i.operation = .sub ∧ op = .sub)
      (hoperands : i.operands = [dst, src]) (hbits : dst.bits? = some bits) :
      Emits s i [.set (s.expr dst) (.binary op (s.expr dst) (s.expr src) bits),
        .set (.flags arithmeticFlags) (.conditionOf (s.expr dst))]
  | compare {dst src : Operand} {bits : Nat} (hoperation : i.operation = .compare)
      (hoperands : i.operands = [dst, src]) (hbits : dst.bits? = some bits) :
      Emits s i [.set (.flags arithmeticFlags)
        (.conditionOf (.binary .sub (s.expr dst) (s.expr src) bits))]
  | logical {op : BinaryOp} {dst src : Operand} {bits : Nat}
      (hoperation : i.operation = .and ∧ op = .and ∨ i.operation = .or ∧ op = .or)
      (hoperands : i.operands = [dst, src]) (hbits : dst.bits? = some bits) :
      Emits s i [.set (s.expr dst) (.binary op (s.expr dst) (s.expr src) bits),
        .set (.flags logicalFlags) (.conditionOf (s.expr dst)),
        .set (.flags clearedFlags) (.constant (.ofBool false))]
  | zero {r : Register} (hoperation : i.operation = .xor)
      (hoperands : i.operands = [.register r, .register r]) :
      Emits s i [.set (.register r) (.constant (.zero r.bits))]
  | push {src : Operand} (hoperation : i.operation = .push) (hoperands : i.operands = [src]) :
      Emits s i
        [moveStackPointer s.mode (-s.slotBytes src), .store (s.slotAccess src) (s.expr src)]
  | pop {dst : Operand} (hoperation : i.operation = .pop) (hoperands : i.operands = [dst])
      (hdst : dst.isImmediate = false) :
      Emits s i [.set (s.expr dst) (s.slotAccess dst), moveStackPointer s.mode (s.slotBytes dst)]
  | call {target : Operand} {callee : Expr} (hoperation : i.operation = .call)
      (hoperands : i.operands = [target])
      (hcallee : (∃ name, s.import? target = some name ∧ callee = .external name) ∨
        s.import? target = none ∧ callee = s.expr target) :
      Emits s i [.call callee s.returnSize]
  | jump {target : Operand} (hoperation : i.operation = .jump) (hoperands : i.operands = [target]) :
      Emits s i [.goto (s.expr target)]
  | branch {target next : Address} {condition : Condition}
      (hoperation : i.operation = .conditionalJump)
      (hflow : i.flow = .branch target condition next) :
      Emits s i [.branch (.test condition (conditionFlags condition)) target]
  | ret (extra : Nat) (hoperation : i.operation = .ret) : Emits s i [.ret s.returnSize extra]

variable {s : Setting} {i : Instruction} {statements : List Stmt}

/-- Whatever has statements is lifted in one of these ways. -/
theorem emits_of_statements? (h : s.statements? i = some statements) : s.Emits i statements := by
  unfold statements? at h
  cases hoperation : i.operation with
  | nop =>
    rw [hoperation] at h
    cases h
    exact .nop hoperation
  | move =>
    simp only [hoperation, moveStatements?] at h
    split at h
    · next hoperands =>
      split at h
      · cases h
      · next hdst =>
        cases h
        exact .move hoperation hoperands ((Bool.not_eq_true _).mp hdst)
    · cases h
  | add | sub =>
    simp only [hoperation, arithmeticStatements?] at h
    split at h
    · next hoperands =>
      obtain ⟨bits, hbits, h⟩ := Option.bind_eq_some_iff.1 h
      cases h
      exact .arithmetic (by simp [hoperation]) hoperands hbits
    · cases h
  | compare =>
    simp only [hoperation, compareStatements?] at h
    split at h
    · next hoperands =>
      obtain ⟨bits, hbits, h⟩ := Option.bind_eq_some_iff.1 h
      cases h
      exact .compare hoperation hoperands hbits
    · cases h
  | and | or =>
    simp only [hoperation, logicalStatements?] at h
    split at h
    · next hoperands =>
      obtain ⟨bits, hbits, h⟩ := Option.bind_eq_some_iff.1 h
      cases h
      exact .logical (by simp [hoperation]) hoperands hbits
    · cases h
  | xor =>
    simp only [hoperation, zeroStatements?] at h
    obtain ⟨r, hsame, h⟩ := Option.bind_eq_some_iff.1 h
    cases h
    exact .zero hoperation (sameRegister?_eq_some.1 hsame)
  | push =>
    simp only [hoperation, pushStatements?] at h
    split at h
    · next hoperands =>
      cases h
      exact .push hoperation hoperands
    · cases h
  | pop =>
    simp only [hoperation, popStatements?] at h
    split at h
    · next hoperands =>
      split at h
      · cases h
      · next hdst =>
        cases h
        exact .pop hoperation hoperands ((Bool.not_eq_true _).mp hdst)
    · cases h
  | call =>
    simp only [hoperation, callStatements?] at h
    split at h
    · next target hoperands =>
      cases h
      exact .call hoperation hoperands (s.callee_cases target)
    · cases h
  | jump =>
    simp only [hoperation, jumpStatements?] at h
    split at h
    · next hoperands =>
      cases h
      exact .jump hoperation hoperands
    · cases h
  | conditionalJump =>
    simp only [hoperation, branchStatements?] at h
    split at h
    · next hflow =>
      cases h
      exact .branch hoperation hflow
    · cases h
  | ret =>
    simp only [hoperation, retStatements?] at h
    split at h
    · cases h
      exact .ret _ hoperation
    · cases h
      exact .ret _ hoperation
    · cases h
  | addWithCarry | subWithBorrow | other =>
    simp only [hoperation] at h
    cases h

end Setting

end CodeLift.X86
