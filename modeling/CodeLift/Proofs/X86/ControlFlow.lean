-- SUMMARY: Operation, operands, flow and statements tell the same of where control goes.
import CodeLift.Proofs.X86.Coverage

/-!
# Control flow

Where control goes behind an instruction is told four times: by its operation, by its flow, by
its operands and by the statement that it is lifted into. Of a decoded instruction the first
three agree (`Instruction.Coherent`), whatever the form that spells it: near or short, with one
opcode byte or two, direct or indirect. The statement agrees with them wherever the instruction
is lifted, on its own or with what follows, if the host names no imports
(`Setting.transfers_coherent`).
-/

namespace CodeLift

/-! ## Views -/

/-- The address that control goes to, where it is known. -/
def Flow.target? : Flow → Option Address
  | .jump target | .branch target _ _ | .call target _ => some target
  | _ => none

/-- The address that control falls through to or returns to. -/
def Flow.next? : Flow → Option Address
  | .branch _ _ next | .call _ next => some next
  | _ => none

/-- The operations that transfer control. -/
def Operation.transfers : List Operation := [.conditionalJump, .jump, .call, .ret]

/-- The operation by which a statement transfers control. -/
def Stmt.transfer? : Stmt → Option Operation
  | .branch _ _ => some .conditionalJump
  | .goto _ => some .jump
  | .call _ _ => some .call
  | .ret _ _ => some .ret
  | _ => none

/-- Where a statement transfers control to. -/
def Stmt.target? : Stmt → Option Expr
  | .branch _ target => some (.address target)
  | .goto target | .call target _ => some target
  | _ => none

@[simp] theorem Stmt.transfer?_set (dst src : Expr) : (Stmt.set dst src).transfer? = none := by
  unfold Stmt.set
  split <;> rfl

@[simp] theorem Stmt.transfer?_store (dst src : Expr) : (Stmt.store dst src).transfer? = none := rfl

/-! ## Decoded instructions -/

/-- Operation, operands and flow of an instruction tell the same of where control goes. -/
structure Instruction.Coherent (i : Instruction) : Prop where
  branch : i.operation = .conditionalJump ↔
    ∃ target condition next, i.flow = .branch target condition next
  ret : i.operation = .ret ↔ i.flow = .ret
  jump : i.operation = .jump ↔ (∃ target, i.flow = .jump target) ∨ i.flow = .indirectJump
  call : i.operation = .call ↔
    (∃ target next, i.flow = .call target next) ∨ i.flow = .indirectCall
  sequential : i.operation ∉ Operation.transfers ↔ i.flow = .sequential
  /-- Control falls through to, or returns to, what is behind the instruction. -/
  next : ∀ a ∈ i.flow.next?, a = i.next
  space : ∀ target ∈ i.flow.target?, target.space = i.address.space
  /-- The flow has a target exactly if an operand is an address, and then the two are the same. -/
  target : ∀ target, i.flow.target? = some target ↔ .address target ∈ i.operands
  sole : ∀ target, .address target ∈ i.operands → i.operands = [.address target]

theorem Instruction.coherent_sequential {i : Instruction}
    (hoperation : i.operation ∉ Operation.transfers) (hflow : i.flow = .sequential)
    (hoperands : ∀ a, .address a ∉ i.operands) : i.Coherent := by
  simp only [Operation.transfers, List.mem_cons, List.not_mem_nil, or_false, not_or] at hoperation
  obtain ⟨hbranch, hjump, hcall, hret⟩ := hoperation
  exact {
    branch := by simp [hbranch, hflow]
    ret := by simp [hret, hflow]
    jump := by simp [hjump, hflow]
    call := by simp [hcall, hflow]
    sequential := by simp [Operation.transfers, hbranch, hjump, hcall, hret, hflow]
    next := by simp [hflow, Flow.next?]
    space := by simp [hflow, Flow.target?]
    target := fun a => by simp [hflow, Flow.target?, hoperands a]
    sole := fun a ha => absurd ha (hoperands a) }

namespace X86

theorem Bank.Admits.ne_address {bank : Bank} {o : Operand} (h : bank.Admits o) (a : Address) :
    .address a ≠ o := by
  rintro rfl
  exact h

theorem IsSlotOperand.ne_address {o : Operand} (h : IsSlotOperand o) (a : Address) :
    .address a ≠ o := by
  rintro rfl
  obtain ⟨_, -, hadmits⟩ | ⟨_, -, hr⟩ := h
  · exact hadmits
  · cases hr

theorem Body.coherent_sequential {mnemonic : String} {operation : Operation}
    {operands : List Operand} (hoperation : operation ∉ Operation.transfers)
    (hoperands : ∀ x, .address x ∉ operands) (a : Address) (bytes : List UInt8) :
    ((Body.sequential mnemonic operation operands).place a bytes).Coherent :=
  Instruction.coherent_sequential hoperation rfl hoperands

/-- Wherever it is placed, a body that bytes can spell is coherent. -/
theorem Body.Formed.coherent {body : Body} (h : body.Formed) (a : Address) (bytes : List UInt8) :
    (body.place a bytes).Coherent := by
  cases h with
  | alu op hbits hdst hsrc =>
    have hoperation : op.operation ∉ Operation.transfers := by cases op <;> decide
    refine coherent_sequential hoperation (fun x => ?_) a bytes
    obtain hsrc | ⟨_, rfl⟩ := hsrc
    · simp [hdst.ne_address, hsrc.ne_address]
    · simp [hdst.ne_address]
  | move hbits hdst hsrc =>
    refine coherent_sequential (by decide) (fun x => ?_) a bytes
    obtain hsrc | ⟨_, rfl⟩ := hsrc
    · simp [hdst.ne_address, hsrc.ne_address]
    · simp [hdst.ne_address]
  | loadSegment _ ho | storeSegment _ ho | push ho | pop ho =>
    exact coherent_sequential (by decide) (fun x => by simp [ho.ne_address]) a bytes
  | exclusiveOr _ hdst hsrc =>
    refine coherent_sequential (by decide) (fun x => ?_) a bytes
    simp [hdst.ne_address, hsrc.ne_address]
  | pushImmediate | nop => exact coherent_sequential (by decide) (by simp) a bytes
  | ret | retMore =>
    constructor <;> simp [place, Operation.transfers, Flow.target?, Flow.next?]
  | call _ htarget | jump _ htarget =>
    constructor <;>
      simp [place, Operation.transfers, Flow.target?, Flow.next?, htarget.ne_address]
  | relative transfer distance =>
    cases transfer <;>
      constructor <;>
        simp [place, Operation.transfers, Flow.target?, Flow.next?, Instruction.next,
          Instruction.length, eq_comm]

theorem coherent_of_decode {mode : Mode} {a : Address} {bytes : List UInt8} {i : Instruction}
    (h : decode mode a bytes = .ok i) : i.Coherent := by
  obtain ⟨-, -, -, body, hformed, hplace⟩ := decode_eq_ok h
  rw [hplace]
  exact hformed.coherent a i.bytes

/-! ## Statements -/

namespace Setting

variable {s : Setting} {i : Instruction} {statements : List Stmt}

/-- A statement goes where the instruction does: to its target, or to what its operand says. -/
def GoesAs (s : Setting) (i : Instruction) (st : Stmt) : Prop :=
  (∀ target ∈ i.flow.target?, st.target? = some (.address target)) ∧
    (i.flow = .indirectJump ∨ i.flow = .indirectCall →
      ∃ o, i.operands = [o] ∧ st.target? = some (s.expr o))

theorem goesAs_operand (hi : i.Coherent) {o : Operand} (hoperands : i.operands = [o]) {st : Stmt}
    (hst : st.target? = some (s.expr o)) : s.GoesAs i st := by
  refine ⟨fun target htarget => ?_, fun _ => ⟨o, hoperands, hst⟩⟩
  have hmem := (hi.target target).1 htarget
  rw [hoperands, List.mem_singleton] at hmem
  rw [hst, ← hmem]
  rfl

theorem import?_of_unnamed (himports : ∀ a, s.host.importName? a = none) (o : Operand) :
    s.import? o = none := by
  unfold import?
  cases callSlot? s.mode o with
  | none => rfl
  | some a => exact himports a

/-- What transfers control is lifted into one statement, which transfers it in the same way. -/
theorem exists_transfer_of_statements? (hi : i.Coherent)
    (himports : ∀ a, s.host.importName? a = none) (h : s.statements? i = some statements)
    (hoperation : i.operation ∈ Operation.transfers) :
    ∃ st, statements = [st] ∧ st.transfer? = some i.operation ∧ s.GoesAs i st := by
  cases emits_of_statements? h with
  | call hcall hoperands hcallee =>
    obtain ⟨name, himport, -⟩ | ⟨-, rfl⟩ := hcallee
    · rw [import?_of_unnamed himports] at himport
      cases himport
    · exact ⟨_, rfl, hcall ▸ rfl, goesAs_operand hi hoperands rfl⟩
  | jump hjump hoperands => exact ⟨_, rfl, hjump ▸ rfl, goesAs_operand hi hoperands rfl⟩
  | branch hbranch hflow =>
    refine ⟨_, rfl, hbranch ▸ rfl, ?_, ?_⟩
    · simp [hflow, Flow.target?, Stmt.target?]
    · simp [hflow]
  | ret _ hret =>
    have hflow := hi.ret.1 hret
    exact ⟨_, rfl, hret ▸ rfl, by simp [hflow, Flow.target?], by simp [hflow]⟩
  | arithmetic hother | logical hother =>
    obtain ⟨hother, -⟩ | ⟨hother, -⟩ := hother <;> rw [hother] at hoperation <;>
      simp [Operation.transfers] at hoperation
  | nop hother | move hother | compare hother | zero hother | push hother | pop hother =>
    rw [hother] at hoperation
    simp [Operation.transfers] at hoperation

/-- What does not transfer control is lifted into statements that do not. -/
theorem transfer?_eq_none_of_statements? (h : s.statements? i = some statements)
    (hoperation : i.operation ∉ Operation.transfers) : ∀ st ∈ statements, st.transfer? = none := by
  cases emits_of_statements? h with
  | call hother | jump hother | branch hother | ret _ hother =>
    rw [hother] at hoperation
    simp [Operation.transfers] at hoperation
  | push | pop => simp [moveStackPointer]
  | nop => simp [Stmt.transfer?]
  | move | arithmetic | compare | logical | zero => simp

theorem not_isRefused_of_mem_transfers (h : i.operation ∈ Operation.transfers) :
    ¬ IsRefused i := by
  refine not_isRefused ?_ ?_ ?_ <;> rintro hother <;> rw [hother] at h <;>
    simp [Operation.transfers] at h

/-- A step at an instruction that transfers control gives one statement, which transfers it in the
same way. -/
theorem Step.exists_transfer {r r' : Run} {result : Except LiftError Cluster}
    (hstep : s.Step r result r') (hr : r.instruction? = some i) (hencodes : s.mode.Encodes i)
    (hi : i.Coherent) (himports : ∀ a, s.host.importName? a = none)
    (hoperation : i.operation ∈ Operation.transfers) :
    ∃ c st, result = .ok c ∧ c.statements = [st] ∧ st.transfer? = some i.operation ∧
      s.GoesAs i st := by
  obtain ⟨hnone, -⟩ | ⟨statements, hstatements, hresult⟩ | ⟨_, _, _, _, hcopy, -⟩ :=
    hstep.of_instruction? hr
  · exact absurd ((statements?_eq_none_iff hencodes).1 hnone)
      (not_isRefused_of_mem_transfers hoperation)
  · obtain ⟨st, hsole, hst⟩ := exists_transfer_of_statements? hi himports hstatements hoperation
    exact ⟨_, st, hresult, hsole, hst⟩
  · have hpush := (soleRegister?_eq_some.1 (copy?_eq_some.1 hcopy).2.1).1
    rw [hpush] at hoperation
    simp [Operation.transfers] at hoperation

/-- A step at any other instruction gives no statement that transfers control. -/
theorem Step.transfer?_eq_none {r r' : Run} {result : Except LiftError Cluster} {c : Cluster}
    (hstep : s.Step r result r') (hr : r.instruction? = some i)
    (hoperation : i.operation ∉ Operation.transfers) (hc : result = .ok c) :
    ∀ st ∈ c.statements, st.transfer? = none := by
  obtain ⟨-, herror⟩ | ⟨statements, hstatements, hresult⟩ | ⟨_, _, _, _, -, hresult⟩ :=
    hstep.of_instruction? hr
  · cases hc.symm.trans herror
  · cases hc.symm.trans hresult
    exact transfer?_eq_none_of_statements? hstatements hoperation
  · cases hc.symm.trans hresult
    simp [copyCluster]

/-- Operation, operands, flow and statements of a decoded instruction tell the same of where control
goes, wherever it is lifted, if the host names no imports. The flow is coherent with operation and
operands; the operations that transfer control are lifted into the statement of their kind, alone,
which goes to the target or to what the operand says; no other operation is lifted into one. -/
theorem transfers_coherent {s : Setting} {a : Address} {bytes : List UInt8} {i : Instruction}
    (h : decode s.mode a bytes = .ok i) (himports : ∀ x, s.host.importName? x = none) :
    i.address = a ∧ i.Coherent ∧
      ∀ r : Run, r.instruction? = some i → ∃ outcome r', s.next? r = some (outcome, r') ∧
        (∀ operation ∈ Operation.transfers,
          (∃ c, outcome.result = .ok c ∧ ∃ st ∈ c.statements, st.transfer? = some operation) ↔
            i.operation = operation) ∧
        ∀ c, outcome.result = .ok c → ∀ st ∈ c.statements, st.transfer? ≠ none →
          c.statements = [st] ∧ s.GoesAs i st := by
  have haddress := (decode_eq_ok h).1
  have hi := coherent_of_decode h
  have hencodes : s.mode.Encodes i := ⟨bytes, by rwa [haddress]⟩
  refine ⟨haddress, hi, fun r hr => ?_⟩
  obtain ⟨outcome, r', hnext⟩ := exists_next?_of_instruction? (s := s) hr
  refine ⟨outcome, r', hnext, ?_⟩
  have hstep := step_of_next? hnext
  by_cases hoperation : i.operation ∈ Operation.transfers
  · obtain ⟨c, st, hresult, hsole, htransfer, hgoes⟩ :=
      hstep.exists_transfer hr hencodes hi himports hoperation
    simp [hresult, hsole, htransfer, hgoes]
  · have hnone := fun c => hstep.transfer?_eq_none (c := c) hr hoperation
    refine ⟨fun operation hmem => iff_of_false ?_ ?_, fun c hc st hst hne => ?_⟩
    · rintro ⟨c, hc, st, hst, htransfer⟩
      cases (hnone c hc st hst).symm.trans htransfer
    · rintro rfl
      exact hoperation hmem
    · exact absurd (hnone c hc st hst) hne

/-- `call [ebx + ecx * 4]` has no direct target; it is lifted to one call, of what stands in
memory. -/
theorem transfers_coherent_call_memory :
    let s : Setting := ⟨.protected32, .silent⟩
    let a : Address := ⟨.flat .w32, 0x1000, by decide⟩
    let slot : Operand := .memory ⟨some ebx, some ecx, 4, 0, 32, none⟩
    let i : Instruction := ⟨a, [0xFF, 0x14, 0x8B], "call", .call, [slot],
      .indirectCall⟩
    let p : Progress := ⟨State.initial (processor .protected32) none, .empty 32, none⟩
    decode s.mode a i.bytes = .ok i ∧ (∀ x, s.host.importName? x = none) ∧
      ∃ outcome r' c st, s.next? (.start p (.items [.ok i])) = some (outcome, r') ∧
        outcome.result = .ok c ∧ c.statements = [st] ∧ st.transfer? = some .call ∧
          st.target? = some (s.expr slot) := by
  intro s a slot i p
  have hi : decode s.mode a i.bytes = .ok i := rfl
  have hsilent : ∀ x, s.host.importName? x = none := fun _ => rfl
  obtain ⟨-, -, hruns⟩ := transfers_coherent hi hsilent
  obtain ⟨outcome, r', hnext, hiff, hsole⟩ := hruns (.start p (.items [.ok i])) rfl
  obtain ⟨c, hc, st, hst, htransfer⟩ := (hiff .call (by decide)).2 rfl
  obtain ⟨hstatements, -, hindirect⟩ := hsole c hc st hst (by simp [htransfer])
  obtain ⟨o, hoperands, htarget⟩ := hindirect (.inr rfl)
  cases hoperands
  exact ⟨hi, hsilent, outcome, r', c, st, hnext, hc, hstatements, htransfer, htarget⟩

end Setting

end X86

end CodeLift
