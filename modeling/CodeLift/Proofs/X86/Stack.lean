-- SUMMARY: What the statements of pushes and pops do to a machine.
import CodeLift.Proofs.Rtl.Regions
import CodeLift.Proofs.X86.RegisterConstants

/-!
# Pushes and pops on a machine

A push lowers the stack pointer and then stores its operand at the new top of the
stack; a pop loads its operand from the top and then raises the stack pointer. A
value that is pushed comes back with the pop of a slot of the same size.

The operand of a push is read behind the move of the stack pointer, and the stack
pointer is moved behind the load of a pop: what is pushed or popped is one thing
when it is the stack pointer, and another when it is not.
-/

namespace CodeLift.X86

/-! ## Operands of pushes and pops -/

/-- An encoded push takes a slot operand or an immediate value. -/
theorem Mode.Encodes.operands_push {mode : Mode} {i : Instruction} (hi : mode.Encodes i)
    (hoperation : i.operation = .push) :
    ∃ src, i.operands = [src] ∧
      (IsSlotOperand src ∨ ∃ value, ∃ bits ∈ [16, 32], src = .immediate value bits) := by
  obtain ⟨bytes, hdecode⟩ := hi
  obtain ⟨-, -, -, body, hformed, hplace⟩ := decode_eq_ok hdecode
  rw [hplace] at hoperation ⊢
  cases hformed with
  | alu op => cases op <;> cases hoperation
  | push hsrc => exact ⟨_, rfl, .inl hsrc⟩
  | pushImmediate value hbits => exact ⟨_, rfl, .inr ⟨value, _, hbits, rfl⟩⟩
  | relative transfer => cases transfer <;> cases hoperation
  | _ => cases hoperation

/-- An encoded pop fills a slot operand. -/
theorem Mode.Encodes.operands_pop {mode : Mode} {i : Instruction} (hi : mode.Encodes i)
    (hoperation : i.operation = .pop) : ∃ dst, i.operands = [dst] ∧ IsSlotOperand dst := by
  obtain ⟨bytes, hdecode⟩ := hi
  obtain ⟨-, -, -, body, hformed, hplace⟩ := decode_eq_ok hdecode
  rw [hplace] at hoperation ⊢
  cases hformed with
  | alu op => cases op <;> cases hoperation
  | pop hdst => exact ⟨_, rfl, hdst⟩
  | relative transfer => cases transfer <;> cases hoperation
  | _ => cases hoperation

theorem kind_general {bits n : Nat} (hbits : bits ∈ [16, 32]) (hn : n < 8) :
    (general n bits).kind ≠ .segment := by
  have h : ∀ bits ∈ [16, 32], ∀ n < 8, (general n bits).kind ≠ .segment := by decide
  exact h bits hbits n hn

theorem kind_segment {r : Register} (hr : r ∈ segments) : r.kind = .segment := by
  have h : ∀ r ∈ segments, r.kind = .segment := by decide
  exact h r hr

/-- The slot of a general operand is as wide as the operand, that of a segment register as a word of
the mode. -/
theorem IsSlotOperand.slotBits_eq (mode : Mode) {o : Operand} (h : IsSlotOperand o) :
    (∃ bits ∈ [16, 32], o.bits? = some bits ∧ slotBits mode o = bits) ∨
      ∃ r ∈ segments, o = .register r ∧ slotBits mode o = mode.bits := by
  rcases h with ⟨bits, hbits, hadmits⟩ | ⟨r, hr, rfl⟩
  · have ho := bits_of_admits_general (List.mem_cons_of_mem 8 hbits) hadmits
    refine .inl ⟨bits, hbits, ho, ?_⟩
    cases o with
    | register r =>
      obtain ⟨n, hn, rfl⟩ := hadmits
      rw [slotBits, Bank.register, if_neg (kind_general hbits hn)]
      exact bits_general (List.mem_cons_of_mem 8 hbits) hn
    | memory place => exact congrArg (Option.getD · mode.bits) ho
    | immediate | address => cases hadmits
  · exact .inr ⟨r, hr, rfl, by rw [slotBits, if_pos (kind_segment hr)]⟩

/-- The slot of an operand is a word or a double word, and the operand fits in it. -/
theorem IsSlotOperand.bits (mode : Mode) {o : Operand} (h : IsSlotOperand o) :
    slotBits mode o ∈ [16, 32] ∧
      ∃ bits ∈ [16, 32], o.bits? = some bits ∧ bits ≤ slotBits mode o := by
  have hmode : mode.bits ∈ [16, 32] := by cases mode <;> decide
  rcases h.slotBits_eq mode with ⟨bits, hbits, ho, hslot⟩ | ⟨r, hr, rfl, hslot⟩
  · exact ⟨hslot ▸ hbits, bits, hbits, ho, hslot.ge⟩
  · refine ⟨hslot ▸ hmode, 16, by decide, congrArg some (bits_segment hr), ?_⟩
    rw [hslot]
    cases mode <;> decide

/-- A slot has two or four bytes. -/
theorem IsSlotOperand.slotBytes (s : Setting) {o : Operand} (h : IsSlotOperand o) :
    8 * s.slotBytes o = slotBits s.mode o ∧ (s.slotBytes o = 2 ∨ s.slotBytes o = 4) := by
  have hslot := (h.bits s.mode).1
  unfold Setting.slotBytes
  simp only [List.mem_cons, List.not_mem_nil, or_false] at hslot
  omega

/-- A slot is not empty, and smaller than the stack. -/
theorem IsSlotOperand.slotBytes_lt (s : Setting) {o : Operand} (h : IsSlotOperand o) :
    0 < s.slotBytes o ∧ s.slotBytes o < modulus (stackPointer s.mode.bits).bits := by
  have hmodulus : 4 < modulus (stackPointer s.mode.bits).bits := by cases s.mode <;> decide
  have hsize := (h.slotBytes s).2
  omega

/-- A slot operand is made of whole bytes, as many as its slot has or fewer. -/
theorem IsSlotOperand.size (s : Setting) {o : Operand} (h : IsSlotOperand o) :
    ∃ size ≤ 4, o.bits? = some (8 * size) ∧ size ≤ s.slotBytes o := by
  obtain ⟨-, bits, hbits, ho, hle⟩ := h.bits s.mode
  have hslot := (h.slotBytes s).1
  simp only [List.mem_cons, List.not_mem_nil, or_false] at hbits
  refine ⟨bits / 8, by omega, ?_, by omega⟩
  rw [ho, show 8 * (bits / 8) = bits by omega]

/-- The operand of an encoded push is made of whole bytes, as many as its slot has or fewer. -/
theorem Mode.Encodes.size_push {s : Setting} {i : Instruction} (hi : s.mode.Encodes i)
    (hoperation : i.operation = .push) :
    ∃ src, i.operands = [src] ∧ ∃ size ≤ 4, src.bits? = some (8 * size) ∧
      size ≤ s.slotBytes src := by
  obtain ⟨src, hoperands, hsrc | ⟨value, bits, hbits, rfl⟩⟩ := hi.operands_push hoperation
  · exact ⟨src, hoperands, hsrc.size s⟩
  · have hslot : s.slotBytes (.immediate value bits) = bits / 8 := rfl
    simp only [List.mem_cons, List.not_mem_nil, or_false] at hbits
    refine ⟨_, hoperands, bits / 8, by omega, ?_, hslot.ge⟩
    rw [Operand.bits?, show 8 * (bits / 8) = bits by omega]

/-! ## The stack pointer -/

/-- Moving the stack pointer down and up again restores it. -/
theorem cell_moveStackPointer_neg (mode : Mode) (m : Machine) (bytes : Int) :
    ((m.step (moveStackPointer mode (-bytes))).cell (.register (stackPointer mode.bits)) + bytes) %
      modulus (stackPointer mode.bits).bits =
        (m.cell (.register (stackPointer mode.bits)) : Int) := by
  have hlt := m.cell_lt (stackPointer mode.bits)
  rw [cell_moveStackPointer, Int.emod_add_emod, neg_add_cancel_right]
  exact Int.emod_eq_of_lt (by omega) (by exact_mod_cast hlt)

/-- Moving the stack pointer changes no other register. -/
theorem cell_moveStackPointer_of_ne {mode : Mode} (m : Machine) (bytes : Int) {r : Register}
    (hr : r ≠ stackPointer mode.bits) :
    (m.step (moveStackPointer mode bytes)).cell (.register r) = m.cell (.register r) :=
  Machine.cell_set_of_ne _ _ (by simpa using hr)

/-- The segment register of stack accesses. -/
def stackSegment : Mode → Option Register
  | .real16 => some ss
  | .protected32 => none

/-- The access to the top of the stack. -/
theorem stackAccess_zero (mode : Mode) (bits : Nat) :
    stackAccess mode 0 bits =
      .memory (stackSegment mode) (.register (stackPointer mode.bits)) bits := by
  cases mode <;> rfl

/-! ## Pushes and pops -/

namespace Setting

variable (s : Setting)

/-- The machine on which a push reads its operand. -/
def lowered (m : Machine) (src : Operand) : Machine :=
  m.step (moveStackPointer s.mode (-s.slotBytes src))

/-- The bytes that a push stores. -/
def pushedBytes (m : Machine) (src : Operand) : List UInt8 :=
  littleEndianBytes (s.slotBytes src) ((s.expr src).eval (s.lowered m src))

/-- The bytes at the top of the stack. -/
def topRegion (m : Machine) (size : Nat) : Region :=
  ⟨m.selector (stackSegment s.mode), m.cell (.register (stackPointer s.mode.bits)), size⟩

variable {s}

theorem run_push (m : Machine) {src : Operand} {statements : List Stmt}
    (hs : s.pushStatements? [src] = some statements) :
    m.run statements =
      (s.lowered m src).store ((s.lowered m src).selector (stackSegment s.mode))
        ((s.lowered m src).cell (.register (stackPointer s.mode.bits))) (s.pushedBytes m src) := by
  cases hs
  rw [Machine.run_cons, Machine.run_cons, Machine.run_nil, slotAccess, stackAccess_zero]
  rfl

theorem cell_run_push (m : Machine) {src : Operand} {statements : List Stmt}
    (hs : s.pushStatements? [src] = some statements) (c : Cell) :
    (m.run statements).cell c = (s.lowered m src).cell c := by
  rw [run_push m hs]
  rfl

/-- A push writes the slot at the new top of the stack. -/
theorem written_push (m : Machine) {src : Operand} {statements : List Stmt}
    (hs : s.pushStatements? [src] = some statements) :
    m.written statements = [s.topRegion (s.lowered m src) (s.slotBytes src)] := by
  cases hs
  rw [slotAccess, stackAccess_zero]
  rfl

theorem topRegion_push (m : Machine) {src : Operand} {statements : List Stmt}
    (hs : s.pushStatements? [src] = some statements) (size : Nat) :
    s.topRegion (m.run statements) size = s.topRegion (s.lowered m src) size := by
  rw [run_push m hs]
  rfl

/-- The first bytes of the slot that a push writes have the low bits of the operand's value. -/
theorem value_push (m : Machine) {src : Operand} {statements : List Stmt} {size : Nat}
    (hs : s.pushStatements? [src] = some statements) (hsize : size ≤ s.slotBytes src) :
    (m.run statements).value (s.topRegion (m.run statements) size) =
      (s.expr src).eval (s.lowered m src) % modulus (8 * size) := by
  have hlength : s.slotBytes src = (s.pushedBytes m src).length :=
    (length_littleEndianBytes _ _).symm
  have hslot : (m.run statements).load ((s.lowered m src).selector (stackSegment s.mode))
      ((s.lowered m src).cell (.register (stackPointer s.mode.bits))) (s.slotBytes src) =
        (s.expr src).eval (s.lowered m src) % modulus (8 * s.slotBytes src) := by
    rw [run_push m hs, hlength, Machine.load_store_self, ← hlength]
    exact littleEndian_littleEndianBytes _ _
  rw [topRegion_push m hs, Machine.value, topRegion, ← Machine.load_mod _ _ _ hsize, hslot]
  exact Nat.mod_mod_of_dvd _ (modulus_dvd (by omega))

theorem run_pop (m : Machine) {dst : Register} {statements : List Stmt}
    (hs : s.popStatements? [.register dst] = some statements) :
    m.run statements =
      (m.set (.register dst) (m.value (s.topRegion m (s.slotBytes (.register dst))))).step
        (moveStackPointer s.mode (s.slotBytes (.register dst))) := by
  cases hs
  rw [Machine.run_cons, Machine.run_cons, Machine.run_nil, slotAccess, stackAccess_zero]
  rfl

/-! ## Pushes and pops on a state -/

theorem depth_arrive (p : Progress) (i : Instruction) :
    (p.arrive i).state.depth = p.state.depth := by
  obtain ⟨registers, hstate⟩ := p.state_arrive_eq i
  rw [hstate]

variable {i : Instruction} {p : Progress} {o : Operand}

theorem state_execute_push (hoperation : i.operation = .push) (hoperands : i.operands = [o]) :
    (s.execute i p).1.state = (s.push p [o]).state := by
  rw [state_execute, perform, hoperation, hoperands]

theorem state_execute_pop (hoperation : i.operation = .pop) (hoperands : i.operands = [o]) :
    (s.execute i p).1.state = (s.pop p [o]).state := by
  rw [state_execute, perform, hoperation, hoperands]

theorem depth_push (s : Setting) (p : Progress) (src : Operand) :
    (s.push p [src]).state.depth = wrap32 (p.state.depth + s.slotBytes src) := rfl

/-- A push notes what it knows of its operand at the new top of the stack. -/
theorem stack_push (s : Setting) (p : Progress) (src : Operand) :
    (s.push p [src]).state.stack = p.state.stack.set (s.push p [src]).state.top
      (operandValue (shiftStackPointer s.mode (-s.slotBytes src) p.state) src) := rfl

theorem depth_pop (s : Setting) (p : Progress) (dst : Operand) :
    (s.pop p [dst]).state.depth = wrap32 (p.state.depth - s.slotBytes dst) := by
  cases dst <;> rfl

end Setting

end CodeLift.X86
