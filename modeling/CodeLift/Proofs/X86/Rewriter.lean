-- SUMMARY: What rewriting an instruction comes to: a refusal with nothing changed, or its effect.
import CodeLift.Proofs.X86.Statements
import CodeLift.X86.Run

/-!
# Rewriting told apart

Rewriting mixes checks, statements, identifiers and changes of the state. This file tells
them apart: `Setting.statements?` says what is emitted, if anything is, and
`Setting.execute` what becomes of the progress. `ComesTo` says that a rewriting does that,
and that it changes nothing at all where it refuses the instruction. It is proved operation
by operation (`comesTo_rewrite`), since each has its own checks and its own first change.
-/

namespace CodeLift.X86

/-! ## Effects that do not depend on the mode -/

namespace Progress

def move (p : Progress) : List Operand → Progress
  | [dst, src] => p.withState fun t => setOperand dst (operandValue t src) t
  | _ => p

def arithmetic (p : Progress) (op : BinaryOp) : List Operand → Progress
  | [dst, src] =>
    (p.withFrame (·.addFlags arithmeticFlags)).withState fun t =>
      ((foldInto op dst src t).grow (growthOf op dst src)).setFlag arithmeticFlags .unknown
  | _ => p

def compare (p : Progress) : Progress :=
  (p.withFrame (·.addFlags arithmeticFlags)).withState (·.setFlag arithmeticFlags .unknown)

def logical (p : Progress) (op : BinaryOp) : List Operand → Progress
  | [dst, src] =>
    (p.withFrame fun f => (f.addFlags logicalFlags).addFlags clearedFlags).withState fun t =>
      ((foldInto op dst src t).setFlag logicalFlags .unknown).setFlag clearedFlags (.ofBool false)
  | _ => p

/-- Zero a register by an exclusive or with itself. -/
def zero (p : Progress) (i : Instruction) : Progress × List Event :=
  match sameRegister? i.operands with
  | some r =>
    (p.withState (·.setRegister r (.zero r.bits)),
      [.debug .translator s!"{i.address.render}: {i.mnemonic} zeroes {r.name}"])
  | none => (p, [])

def branch (p : Progress) : Flow → Progress
  | .branch _ condition _ => p.withFrame (·.addFlags (conditionFlags condition))
  | _ => p

end Progress

/-! ## Effects of instructions -/

namespace Setting

variable (s : Setting)

def push (p : Progress) : List Operand → Progress
  | [src] =>
    let bytes : Int := s.slotBytes src
    let moved := shiftStackPointer s.mode (-bytes) p.state
    let grown := moved.grow bytes
    { p with
      state := grown.setSlot grown.top (operandValue moved src)
      frame := p.frame.addLocal grown.top (slotBits s.mode src) }
  | _ => p

def pop (p : Progress) : List Operand → Progress
  | [dst] =>
    let bytes : Int := s.slotBytes dst
    p.withState fun t =>
      (setOperand dst (t.slot t.top) (shiftStackPointer s.mode bytes t)).grow (-bytes)
  | _ => p

def call (i : Instruction) (p : Progress) : Progress × List Event :=
  match i.operands with
  | [target] =>
    let site := p.state.callSite s.returnSize
    let signature := s.calleeSignature? target
    let warnings : List Event :=
      if signature.isNone && (callSlot? s.mode target).isNone then
        [.warned i.address "indirect call to unknown callee"]
      else []
    (p.withState (·.afterCall site signature), warnings ++ State.afterCallEvents site signature)
  | _ => (p, [])

/-- The effect of the operation itself. -/
def perform (i : Instruction) (p : Progress) : Progress × List Event :=
  match i.operation with
  | .move => (p.move i.operands, [])
  | .add => (p.arithmetic .add i.operands, [])
  | .sub => (p.arithmetic .sub i.operands, [])
  | .compare => (p.compare, [])
  | .and => (p.logical .and i.operands, [])
  | .or => (p.logical .or i.operands, [])
  | .xor => p.zero i
  | .push => (s.push p i.operands, [])
  | .pop => (s.pop p i.operands, [])
  | .call => s.call i p
  | .conditionalJump => (p.branch i.flow, [])
  | .nop | .jump | .ret | .addWithCarry | .subWithBorrow | .other _ => (p, [])

/-- The effect of an instruction that has a translation. The slots it addresses are those
before it is executed. -/
def execute (i : Instruction) (p : Progress) : Progress × List Event :=
  let slots := i.operands.filterMap p.slot?
  let (after, events) := s.perform i p
  let named := after.withFrame (s.nameOperands i.operands slots)
  match written? i with
  | some (dst, src) => (named.follow dst src, events)
  | none => (named, events)

end Setting

/-! ## Steps -/

namespace Rewriter

variable {i : Instruction}

@[simp] theorem on_emit (statement : Stmt) (w : Work) :
    (emit statement).on w = (.ok (), { w with statements := w.statements ++ [statement] }) := rfl

@[simp] theorem on_report (events : List Event) (w : Work) :
    (report events).on w = (.ok (), { w with events := w.events ++ events }) := rfl

@[simp] theorem on_state (w : Work) : state.on w = (.ok w.progress.state, w) := rfl

@[simp] theorem on_onState (f : State → State) (w : Work) :
    (onState f).on w = (.ok (), { w with progress := w.progress.withState f }) := rfl

@[simp] theorem on_onFrame (f : Frame → Frame) (w : Work) :
    (onFrame f).on w = (.ok (), { w with progress := w.progress.withFrame f }) := rfl

theorem on_demand {α : Type} {found : Option α} {x : α} (h : found = some x) (w : Work) :
    (demand i found).on w = (.ok x, w) := by
  rw [h]
  rfl

theorem on_demand_none {α : Type} {found : Option α} (h : found = none) (w : Work) :
    (demand i found).on w = (.error (.unsupported i), w) := by
  rw [h]
  rfl

theorem on_operands {dst src : Operand} (h : i.operands = [dst, src]) (w : Work) :
    (operands i).on w = (.ok (dst, src), w) := by
  rw [operands, h]
  rfl

theorem on_operands_of_ne (h : ∀ dst src, i.operands ≠ [dst, src]) (w : Work) :
    (operands i).on w = (.error (.unsupported i), w) := by
  unfold operands
  split
  · next hoperands => exact absurd hoperands (h _ _)
  · rfl

theorem on_operand {o : Operand} (h : i.operands = [o]) (w : Work) :
    (operand i).on w = (.ok o, w) := by
  rw [operand, h]
  rfl

theorem on_operand_of_ne (h : ∀ o, i.operands ≠ [o]) (w : Work) :
    (operand i).on w = (.error (.unsupported i), w) := by
  unfold operand
  split
  · next hoperands => exact absurd hoperands (h _)
  · rfl

end Rewriter

/-! ## Refusals and effects -/

/-- The work with the statements and the effect of an instruction behind it. -/
def Work.passing (w : Work) (statements : List Stmt) (effect : Progress × List Event) : Work :=
  ⟨effect.1, w.statements ++ statements, w.events ++ effect.2⟩

/-- On whatever work, `m` refuses the instruction and leaves the work as it was, or emits the
statements and has the effect. -/
def ComesTo (m : Rewriter Unit) (i : Instruction) (emitted : Option (List Stmt))
    (effect : Progress → Progress × List Event) : Prop :=
  ∀ w, m.on w =
    match emitted with
    | none => (.error (.unsupported i), w)
    | some statements => (.ok (), w.passing statements (effect w.progress))

namespace ComesTo

variable {α : Type} {i : Instruction} {m : Rewriter α} {next : α → Rewriter Unit}
  {emitted : Option (List Stmt)} {effect : Progress → Progress × List Event}

/-- A step that only looks hands on what it has found. -/
theorem bind {x : α} (hm : ∀ w, m.on w = (.ok x, w)) (hnext : ComesTo (next x) i emitted effect) :
    ComesTo (m >>= next) i emitted effect :=
  fun w => (InPlace.on_bind_of_ok (hm w)).trans (hnext w)

/-- A refusal ends the rewriting, so nothing may have been changed before it. -/
theorem refuse (hm : ∀ w, m.on w = (.error (.unsupported i), w)) :
    ComesTo (m >>= next) i none effect :=
  fun w => InPlace.on_bind_of_error (hm w)

end ComesTo

/-! ## Flag groups -/

theorem group?_arithmeticMask (mode : Mode) :
    (processor mode).flags.group? arithmeticMask = some arithmeticFlags := by
  cases mode <;> decide

theorem group?_logicalMask (mode : Mode) :
    (processor mode).flags.group? logicalMask = some logicalFlags := by
  cases mode <;> decide

theorem group?_carryFlag (mode : Mode) :
    (processor mode).flags.group? carryFlag = some clearedFlags := by
  cases mode <;> decide

theorem group?_conditionMask (mode : Mode) (condition : Condition) :
    (processor mode).flags.group? (conditionMask condition) = some (conditionFlags condition) := by
  cases mode <;> cases condition <;> decide

/-! ## Operations -/

namespace Setting

open Rewriter InPlace

variable {s : Setting} {i : Instruction}

theorem comesTo_move :
    ComesTo (s.rewriteMove i) i (s.moveStatements? i.operands)
      fun p => (p.move i.operands, []) := by
  unfold rewriteMove
  match hoperands : i.operands with
  | [dst, src] =>
    refine .bind (on_operands hoperands) ?_
    simp only [moveStatements?]
    split
    · exact .refuse fun _ => rfl
    · intro w
      simp [on_bind, Work.passing, Progress.move]
  | [] | [_] | _ :: _ :: _ :: _ => exact .refuse (on_operands_of_ne (by simp [hoperands]))

theorem comesTo_arithmetic (op : BinaryOp) :
    ComesTo (s.rewriteArithmetic op i) i (s.arithmeticStatements? op i.operands)
      fun p => (p.arithmetic op i.operands, []) := by
  unfold rewriteArithmetic
  match hoperands : i.operands with
  | [dst, src] =>
    refine .bind (on_operands hoperands) ?_
    simp only [arithmeticStatements?]
    cases hbits : dst.bits? with
    | none => exact .refuse (on_demand_none rfl)
    | some bits =>
      refine .bind (on_demand rfl) ?_
      refine .bind (on_demand (group?_arithmeticMask s.mode)) fun w => ?_
      simp [on_bind, Work.passing, Progress.arithmetic, Progress.withFrame, Progress.withState]
  | [] | [_] | _ :: _ :: _ :: _ => exact .refuse (on_operands_of_ne (by simp [hoperands]))

theorem comesTo_compare :
    ComesTo (s.rewriteCompare i) i (s.compareStatements? i.operands)
      fun p => (p.compare, []) := by
  unfold rewriteCompare
  match hoperands : i.operands with
  | [dst, src] =>
    refine .bind (on_operands hoperands) ?_
    simp only [compareStatements?]
    cases hbits : dst.bits? with
    | none => exact .refuse (on_demand_none rfl)
    | some bits =>
      refine .bind (on_demand rfl) ?_
      refine .bind (on_demand (group?_arithmeticMask s.mode)) fun w => ?_
      simp [on_bind, Work.passing, Progress.compare]
  | [] | [_] | _ :: _ :: _ :: _ => exact .refuse (on_operands_of_ne (by simp [hoperands]))

theorem comesTo_logical (op : BinaryOp) :
    ComesTo (s.rewriteLogical op i) i (s.logicalStatements? op i.operands)
      fun p => (p.logical op i.operands, []) := by
  unfold rewriteLogical
  match hoperands : i.operands with
  | [dst, src] =>
    refine .bind (on_operands hoperands) ?_
    simp only [logicalStatements?]
    cases hbits : dst.bits? with
    | none => exact .refuse (on_demand_none rfl)
    | some bits =>
      refine .bind (on_demand rfl) ?_
      refine .bind (on_demand (group?_logicalMask s.mode)) ?_
      refine .bind (on_demand (group?_carryFlag s.mode)) fun w => ?_
      simp [on_bind, Work.passing, Progress.logical, Progress.withFrame, Progress.withState]
  | [] | [_] | _ :: _ :: _ :: _ => exact .refuse (on_operands_of_ne (by simp [hoperands]))

theorem comesTo_xor : ComesTo (rewriteXor i) i (zeroStatements? i.operands) (·.zero i) := by
  unfold rewriteXor zeroStatements?
  cases hsame : sameRegister? i.operands with
  | none => exact .refuse (on_demand_none rfl)
  | some r =>
    refine .bind (on_demand rfl) fun w => ?_
    simp [on_bind, Work.passing, Progress.zero, hsame]

@[simp] theorem on_rewriteStackPointer (bytes : Int) (w : Work) :
    (s.rewriteStackPointer bytes).on w =
      (.ok (), { w with
        statements := w.statements ++ [moveStackPointer s.mode bytes]
        progress := w.progress.withState (shiftStackPointer s.mode bytes) }) := rfl

theorem comesTo_push :
    ComesTo (s.rewritePush i) i (s.pushStatements? i.operands)
      fun p => (s.push p i.operands, []) := by
  unfold rewritePush
  match hoperands : i.operands with
  | [src] =>
    refine .bind (on_operand hoperands) fun w => ?_
    simp [on_bind, Work.passing, push, pushStatements?, Progress.withFrame, Progress.withState]
  | [] | _ :: _ :: _ => exact .refuse (on_operand_of_ne (by simp [hoperands]))

theorem comesTo_pop :
    ComesTo (s.rewritePop i) i (s.popStatements? i.operands)
      fun p => (s.pop p i.operands, []) := by
  unfold rewritePop
  match hoperands : i.operands with
  | [dst] =>
    refine .bind (on_operand hoperands) ?_
    simp only [popStatements?]
    split
    · exact .refuse fun _ => rfl
    · intro w
      -- The slot is read when the stack pointer has moved, which changes no slot.
      have hslot (bytes : Int) (t : State) :
          (shiftStackPointer s.mode bytes t).slot (shiftStackPointer s.mode bytes t).top =
            t.slot t.top := rfl
      simp [on_bind, Work.passing, pop, Progress.withState, hslot]
  | [] | _ :: _ :: _ => exact .refuse (on_operand_of_ne (by simp [hoperands]))

theorem comesTo_call : ComesTo (s.rewriteCall i) i (s.callStatements? i.operands) (s.call i) := by
  unfold rewriteCall call
  match hoperands : i.operands with
  | [target] =>
    refine .bind (on_operand hoperands) fun w => ?_
    cases hunknown : (s.calleeSignature? target).isNone && (callSlot? s.mode target).isNone <;>
      simp only [on_bind, on_state, on_emit, on_onState, on_report, Work.passing, callStatements?,
        hunknown, ↓reduceIte, Bool.false_eq_true, List.append_assoc, List.nil_append]
  | [] | _ :: _ :: _ => exact .refuse (on_operand_of_ne (by simp [hoperands]))

theorem comesTo_jump :
    ComesTo (s.rewriteJump i) i (s.jumpStatements? i.operands) fun p => (p, []) := by
  unfold rewriteJump
  match hoperands : i.operands with
  | [target] =>
    refine .bind (on_operand hoperands) fun w => ?_
    simp [Work.passing, jumpStatements?]
  | [] | _ :: _ :: _ => exact .refuse (on_operand_of_ne (by simp [hoperands]))

theorem comesTo_branch :
    ComesTo (s.rewriteBranch i) i (branchStatements? i.flow) fun p => (p.branch i.flow, []) := by
  unfold rewriteBranch
  cases i.flow with
  | branch target condition next =>
    refine .bind (on_demand (group?_conditionMask s.mode condition)) fun w => ?_
    simp [on_bind, Work.passing, branchStatements?, Progress.branch]
  | _ => exact fun _ => rfl

theorem comesTo_return :
    ComesTo (s.rewriteReturn i) i (s.retStatements? i.operands) fun p => (p, []) := by
  unfold rewriteReturn
  match i.operands with
  | [] | [.immediate value bits] =>
    intro w
    simp [Work.passing, retStatements?]
  | [.register _] | [.memory _] | [.address _] => exact fun _ => rfl
  | o :: _ :: _ => cases o <;> exact fun _ => rfl

/-! ## Instructions -/

/-- Whatever the operation, either the instruction is refused before anything has changed, or all
of its statements are emitted and it has its whole effect. -/
theorem comesTo_rewrite (s : Setting) (i : Instruction) :
    ComesTo (s.rewrite i) i (s.statements? i) (s.perform i) := by
  unfold rewrite statements? perform
  cases i.operation with
  | nop =>
    intro w
    simp [Work.passing]
  | move => exact comesTo_move
  | add => exact comesTo_arithmetic .add
  | sub => exact comesTo_arithmetic .sub
  | compare => exact comesTo_compare
  | and => exact comesTo_logical .and
  | or => exact comesTo_logical .or
  | xor => exact comesTo_xor
  | push => exact comesTo_push
  | pop => exact comesTo_pop
  | call => exact comesTo_call
  | jump => exact comesTo_jump
  | conditionalJump => exact comesTo_branch
  | ret => exact comesTo_return
  | addWithCarry | subWithBorrow | other => exact fun _ => rfl

/-- Identifiers and the frame pointer come last, and are never refused. -/
theorem comesTo_lift (s : Setting) (i : Instruction) :
    ComesTo (s.lift i) i (s.statements? i) (s.execute i) := by
  intro w
  have hrewrite := s.comesTo_rewrite i w
  rw [lift, on_bind_of_ok (on_get w)]
  cases hstatements : s.statements? i with
  | none =>
    rw [hstatements] at hrewrite
    exact on_bind_of_error hrewrite
  | some statements =>
    rw [hstatements] at hrewrite
    rw [on_bind_of_ok hrewrite, commit, on_bind_of_ok (on_onFrame ..)]
    dsimp only [execute]
    cases written? i <;> rfl

theorem single_of_none (h : s.statements? i = none) (p : Progress) :
    s.single i p = (⟨.error (.unsupported i), []⟩, p) := by
  rw [single, s.comesTo_lift i, h]

theorem single_of_some {statements : List Stmt} (h : s.statements? i = some statements)
    (p : Progress) :
    s.single i p =
      (⟨.ok ⟨i.address, i.length, statements⟩, (s.execute i p).2⟩, (s.execute i p).1) := by
  rw [single, s.comesTo_lift i, h]
  rfl

end Setting

end CodeLift.X86
