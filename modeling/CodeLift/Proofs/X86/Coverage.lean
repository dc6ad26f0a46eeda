-- SUMMARY: Which decoded instructions are lifted, and that their clusters are proper.
import CodeLift.Proofs.X86.Statements
import CodeLift.Proofs.X86.Steps

/-!
# What is lifted

The decoder and the translation of instructions are two case analyses that have to
fit: whatever operands an encoding can give, the translation of its operation must
take them. Of the instructions that bytes spell, carry arithmetic and exclusive or
are refused, the latter but for a register with itself (`statements?_eq_none_iff`);
every other one is lifted, into statements that are all valid.
-/

namespace CodeLift.X86

/-- The decoded instructions that are not lifted: carry arithmetic, and every exclusive or but that
of a register with itself. -/
def IsRefused (i : Instruction) : Prop :=
  i.operation = .addWithCarry ∨ i.operation = .subWithBorrow ∨
    i.operation = .xor ∧ ∀ r, i.operands ≠ [.register r, .register r]

theorem not_isRefused {i : Instruction} (hadc : i.operation ≠ .addWithCarry)
    (hsbb : i.operation ≠ .subWithBorrow) (hxor : i.operation ≠ .xor) : ¬ IsRefused i := by
  rintro (h | h | ⟨h, -⟩)
  · exact hadc h
  · exact hsbb h
  · exact hxor h

/-! ## Operands -/

theorem Bank.Admits.isImmediate {bank : Bank} {o : Operand} (h : bank.Admits o) :
    o.isImmediate = false := by
  cases o with
  | register | memory => rfl
  | immediate | address => cases h

theorem Bank.Admits.bits? {bank : Bank} {o : Operand} (h : bank.Admits o) :
    ∃ bits, o.bits? = some bits := by
  cases o with
  | register | memory => exact ⟨_, rfl⟩
  | immediate | address => cases h

theorem IsSlotOperand.isImmediate {o : Operand} (h : IsSlotOperand o) :
    o.isImmediate = false := by
  rcases h with ⟨_, -, hadmits⟩ | ⟨r, -, rfl⟩
  · exact hadmits.isImmediate
  · rfl

namespace Setting

variable {s : Setting} {i : Instruction} {statements : List Stmt}

/-! ## Refused instructions -/

theorem zeroStatements?_eq_none_iff {operands : List Operand} :
    zeroStatements? operands = none ↔ ∀ r, operands ≠ [.register r, .register r] := by
  unfold zeroStatements?
  cases hsame : sameRegister? operands with
  | none =>
    refine iff_of_true rfl fun r hr => ?_
    rw [sameRegister?_eq_some.2 hr] at hsame
    cases hsame
  | some r => exact iff_of_false nofun fun h => h r (sameRegister?_eq_some.1 hsame)

theorem statements?_of_xor (hoperation : i.operation = .xor) :
    s.statements? i = none ↔ IsRefused i := by
  rw [statements?, hoperation]
  refine zeroStatements?_eq_none_iff.trans ⟨fun h => .inr (.inr ⟨hoperation, h⟩), ?_⟩
  rintro (h | h | ⟨-, h⟩)
  · cases hoperation.symm.trans h
  · cases hoperation.symm.trans h
  · exact h

/-- Of the regular block, what is not refused is lifted into any destination that has a width. -/
theorem statements?_of_alu {op : Alu} {dst src : Operand} (hoperation : i.operation = op.operation)
    (hoperands : i.operands = [dst, src]) (hdst : ∃ bits, dst.bits? = some bits) :
    s.statements? i = none ↔ IsRefused i := by
  obtain ⟨bits, hbits⟩ := hdst
  cases op with
  | adc =>
    refine iff_of_true ?_ (.inl hoperation)
    rw [statements?, hoperation]
    rfl
  | sbb =>
    refine iff_of_true ?_ (.inr (.inl hoperation))
    rw [statements?, hoperation]
    rfl
  | xor => exact statements?_of_xor hoperation
  | add | sub | and | or | cmp =>
    refine iff_of_false ?_ ?_
    · simp [statements?, hoperation, hoperands, Alu.operation, arithmeticStatements?,
        logicalStatements?, compareStatements?, hbits]
    · exact not_isRefused (by rw [hoperation]; decide) (by rw [hoperation]; decide)
        (by rw [hoperation]; decide)

theorem moveStatements?_ne_none {dst : Operand} (hdst : dst.isImmediate = false) (src : Operand) :
    s.moveStatements? [dst, src] ≠ none := by
  simp [moveStatements?, hdst]

theorem popStatements?_ne_none {dst : Operand} (hdst : dst.isImmediate = false) :
    s.popStatements? [dst] ≠ none := by
  simp [popStatements?, hdst]

/-- Of the instructions that bytes spell, exactly the refused ones have no statements. -/
theorem statements?_eq_none_iff (hi : s.mode.Encodes i) :
    s.statements? i = none ↔ IsRefused i := by
  obtain ⟨bytes, hdecode⟩ := hi
  obtain ⟨-, -, -, body, hformed, hplace⟩ := decode_eq_ok hdecode
  rw [hplace]
  cases hformed with
  | alu op _ hdst => exact statements?_of_alu rfl rfl hdst.bits?
  | exclusiveOr => exact statements?_of_xor rfl
  | move _ hdst | storeSegment _ hdst =>
    exact iff_of_false (moveStatements?_ne_none hdst.isImmediate _)
      (not_isRefused nofun nofun nofun)
  | pop hdst =>
    exact iff_of_false (popStatements?_ne_none hdst.isImmediate) (not_isRefused nofun nofun nofun)
  | loadSegment | push | pushImmediate | ret | retMore | nop | call | jump =>
    exact iff_of_false nofun (not_isRefused nofun nofun nofun)
  | relative transfer =>
    cases transfer <;> exact iff_of_false nofun (not_isRefused nofun nofun nofun)

/-! ## Statements of lifted instructions -/

@[simp] theorem invalid_ne_set (dst src : Expr) : Stmt.invalid ≠ .set dst src := by
  unfold Stmt.set
  split <;> nofun

/-- What is lifted has statements, and all of them are valid. -/
theorem proper_of_statements? (h : s.statements? i = some statements) :
    statements ≠ [] ∧ .invalid ∉ statements := by
  cases emits_of_statements? h with
  | push | pop => simp [moveStackPointer]
  | nop | move | arithmetic | compare | logical | zero | call | jump | branch | ret => simp

/-! ## Instructions on their own -/

/-- An exclusive or of a register with itself is one assignment of zero. -/
theorem statements?_self_xor {r : Register} (hoperation : i.operation = .xor)
    (hoperands : i.operands = [.register r, .register r]) :
    s.statements? i = some [.assign (.register r) (.constant (.zero r.bits))] := by
  rw [statements?, hoperation, hoperands, zeroStatements?, sameRegister?_eq_some.2 rfl]
  rfl

theorem flags_arrive (p : Progress) (i : Instruction) :
    (p.arrive i).state.flags = p.state.flags := by
  obtain ⟨registers, hstate⟩ := p.state_arrive_eq i
  rw [hstate]

theorem flags_execute_xor (hoperation : i.operation = .xor) (p : Progress) :
    (s.execute i p).1.state.flags = p.state.flags := by
  rw [state_execute, perform, hoperation]
  simp only [Progress.zero]
  split <;> rfl

/-- With nothing behind it, an instruction is lifted on its own, and then nothing is left. -/
theorem next?_start_singleton (s : Setting) (p : Progress) (i : Instruction) :
    s.next? (.start p (.items [.ok i])) =
      some ((s.single i (p.arrive i)).1, .start (s.single i (p.arrive i)).2 (.items [])) := by
  have hstep : s.instructionStep i (p.arrive i) (.items []) =
      s.singleStep i (p.arrive i) none (.items []) := by
    unfold instructionStep
    split <;> rfl
  change some (s.instructionStep i (p.arrive i) (.items [])) = _
  rw [hstep]
  rfl

/-- Exactly the refused ones of the instructions that bytes spell fail when they are lifted on their
own. Every other one gives one cluster with valid statements; an exclusive or of a register with
itself only zeroes it, and leaves what is known of the flags. -/
theorem next?_decoded {s : Setting} {a : Address} {bytes : List UInt8} {i : Instruction}
    (h : decode s.mode a bytes = .ok i) (p : Progress) :
    ∃ outcome r', s.next? (.start p (.items [.ok i])) = some (outcome, r') ∧ s.next? r' = none ∧
      ((∃ e, outcome.result = .error e) ↔ IsRefused i) ∧
      (∀ e, outcome.result = .error e →
        e = .unsupported i ∧ e.address = i.address ∧ e.length = i.length) ∧
      ∀ c, outcome.result = .ok c →
        c.address = i.address ∧ c.length = i.length ∧
          c.statements ≠ [] ∧ .invalid ∉ c.statements ∧
            ∀ r, i.operation = .xor → i.operands = [.register r, .register r] →
              c.statements = [.assign (.register r) (.constant (.zero r.bits))] ∧
                r'.progress.state.flags = p.state.flags := by
  refine ⟨_, _, next?_start_singleton s p i, rfl, ?_⟩
  rw [← statements?_eq_none_iff ⟨bytes, by rwa [(decode_eq_ok h).1]⟩]
  cases hstatements : s.statements? i with
  | none =>
    rw [single_of_none hstatements]
    refine ⟨iff_of_true ⟨_, rfl⟩ rfl, ?_, nofun⟩
    rintro e he
    cases he
    exact ⟨rfl, rfl, rfl⟩
  | some statements =>
    rw [single_of_some hstatements]
    refine ⟨iff_of_false ?_ (Option.some_ne_none _), ?_, ?_⟩
    · rintro ⟨e, he⟩
      cases he
    · rintro e he
      cases he
    · rintro c hc
      cases hc
      obtain ⟨hsome, hvalid⟩ := proper_of_statements? hstatements
      refine ⟨rfl, rfl, hsome, hvalid, fun r hoperation hoperands => ?_⟩
      rw [statements?_self_xor hoperation hoperands] at hstatements
      cases hstatements
      exact ⟨rfl, (flags_execute_xor hoperation _).trans (flags_arrive p i)⟩

/-- `pxor xmm3, xmm3` is lifted to one assignment of 128 zero bits, and keeps a known flag. -/
theorem next?_decoded_pxor :
    let s : Setting := ⟨.protected32, .silent⟩
    let a : Address := ⟨.flat .w32, 0x1000, by decide⟩
    let p : Progress :=
      ⟨(State.initial (processor .protected32) none).setFlag clearedFlags (.ofBool false),
        .empty 32, none⟩
    let i : Instruction := ⟨a, [0x66, 0x0F, 0xEF, 0xDB], "pxor", .xor,
      [.register (xmm 3), .register (xmm 3)], .sequential⟩
    decode s.mode a i.bytes = .ok i ∧ ∃ outcome r' c,
      s.next? (.start p (.items [.ok i])) = some (outcome, r') ∧ outcome.result = .ok c ∧
        c.statements = [.assign (.register (xmm 3)) (.constant (.zero 128))] ∧
          r'.progress.state.flags = p.state.flags := by
  intro s a p i
  have hi : decode s.mode a i.bytes = .ok i := rfl
  obtain ⟨outcome, r', hnext, -, hfails, -, hlifted⟩ := next?_decoded hi p
  obtain ⟨c, hc⟩ : ∃ c, outcome.result = .ok c := by
    cases hresult : outcome.result with
    | ok c => exact ⟨c, rfl⟩
    | error e =>
      rcases hfails.1 ⟨e, hresult⟩ with hadc | hsbb | ⟨-, hxor⟩
      · cases hadc
      · cases hsbb
      · exact absurd rfl (hxor (xmm 3))
  obtain ⟨-, -, -, -, hzero⟩ := hlifted c hc
  exact ⟨hi, outcome, r', c, hnext, hc, hzero (xmm 3) rfl rfl⟩

end Setting

end CodeLift.X86
