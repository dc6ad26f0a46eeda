-- SUMMARY: The registers that a state knows have the values that the statements leave in them.
import CodeLift.Proofs.Rtl.Constants
import CodeLift.Proofs.X86.Steps

/-!
# Known registers

A state follows an instruction by its effect, a machine by its statements. The
two keep step: a machine that matches the known registers of a state before an
instruction matches those of the state behind it. This is proved for every
operand form once (`matches_set`), then for the operations by the shapes that a
body can have.

Calls are left out, for the statements of the callee are not at hand. Pops are
too: what is known of the stack is another matter.
-/

namespace CodeLift.X86

/-! ## Widths -/

theorem bits_general {bits n : Nat} (hbits : bits ∈ [8, 16, 32]) (hn : n < 8) :
    (general n bits).bits = bits := by
  have h : ∀ bits ∈ [8, 16, 32], ∀ n < 8, (general n bits).bits = bits := by decide
  exact h bits hbits n hn

theorem bits_segment {r : Register} (hr : r ∈ segments) : r.bits = 16 := by
  have h : ∀ r ∈ segments, r.bits = 16 := by decide
  exact h r hr

theorem bits_of_admits_general {bits : Nat} {o : Operand} (hbits : bits ∈ [8, 16, 32])
    (h : (Bank.general bits).Admits o) : o.bits? = some bits := by
  cases o with
  | register r =>
    obtain ⟨n, hn, rfl⟩ := h
    exact congrArg some (bits_general hbits hn)
  | memory place => exact congrArg some h
  | immediate | address => cases h

/-! ## Operands -/

section

variable {m : Machine} {t : State} (mode : Mode)

/-- What is known of an operand describes the low bits of its value. -/
theorem describes_operand (h : m.Matches t.registers) {o : Operand} {bits : Nat}
    (ho : o.bits? = some bits) (hbits : bits ≤ 128) :
    (operandValue t o).Describes bits ((operandExpr mode o).eval m % modulus bits) := by
  cases o with
  | register r =>
    cases ho
    rw [operandExpr, Expr.eval, m.cell_mod]
    exact h r
  | immediate value bits' =>
    cases ho
    have hpos := cast_modulus_pos bits
    have hlow := Int.emod_nonneg value hpos.ne'
    have hhigh := Int.emod_lt_of_pos value hpos
    rw [operandExpr, Constant.ofInt, Expr.eval, Nat.min_eq_left hbits, operandValue,
      Nat.mod_eq_of_lt (by omega)]
    exact Constant.describes_ofInt hbits value
  | memory => exact Constant.describes_unknown _ _
  | address => cases ho

/-- Setting an operand keeps to what is known, if what is known of it describes its value. -/
theorem matches_set (h : m.Matches t.registers) {o : Operand} {bits : Nat} {c : Constant}
    {e : Expr} (ho : o.bits? = some bits)
    (hc : c.Describes bits (e.eval m % modulus bits)) :
    (m.step (.set (operandExpr mode o) e)).Matches (setOperand o c t).registers := by
  cases o with
  | register r =>
    cases ho
    exact h.set hc
  | immediate => exact h
  | memory => exact h
  | address => cases ho

theorem matches_set_flags {registers : Store Register} (h : m.Matches registers) (g : FlagGroup)
    (e : Expr) : (m.step (.set (.flags g) e)).Matches registers := h.set_flags g _

theorem foldInto_eq (op : BinaryOp) {dst : Operand} {bits : Nat} (hdst : dst.bits? = some bits)
    (src : Operand) (t : State) :
    foldInto op dst src t =
      setOperand dst (op.fold (operandValue t dst) (operandValue t src) bits) t := by
  cases dst with
  | register r =>
    cases hdst
    rfl
  | immediate | memory | address => rfl

/-- Folding an operator into an operand keeps step with its value. -/
theorem matches_foldInto (op : BinaryOp) (h : m.Matches t.registers) {dst src : Operand}
    {bits : Nat} (hdst : dst.bits? = some bits) (hsrc : src.bits? = some bits)
    (hbits : bits ≤ 64) :
    (m.step (.set (operandExpr mode dst)
      (.binary op (operandExpr mode dst) (operandExpr mode src) bits))).Matches
        (foldInto op dst src t).registers := by
  have hfold := Constant.describes_fold op hbits
    (describes_operand mode h hdst (by omega))
    (describes_operand mode h hsrc (by omega))
  rw [foldInto_eq op hdst]
  refine matches_set mode h hdst ?_
  rw [Expr.eval, BinaryOp.value_lt_self]
  exact hfold

theorem bits_stackPointer_le (mode : Mode) : (stackPointer mode.bits).bits ≤ 128 := by
  cases mode <;> decide

/-- Moving the stack pointer adds to it, modulo its width. -/
theorem cell_moveStackPointer (m : Machine) (bytes : Int) :
    ((m.step (moveStackPointer mode bytes)).cell (.register (stackPointer mode.bits)) : Int) =
      (m.cell (.register (stackPointer mode.bits)) + bytes) %
        modulus (stackPointer mode.bits).bits := by
  have hvalue := Expr.eval_displaced m (e := .register (stackPointer mode.bits))
    (bits_stackPointer_le mode) (m.cell_lt _) bytes
  change (((m.set _ _).cell _ : Nat) : Int) = _
  rw [Machine.cell_set_self, Cell.fit, Int.natCast_mod, hvalue, Expr.eval, Int.emod_emod]

/-- Moving the stack pointer keeps step with its value. -/
theorem matches_shiftStackPointer (h : m.Matches t.registers) (bytes : Int) :
    (m.step (moveStackPointer mode bytes)).Matches (shiftStackPointer mode bytes t).registers := by
  have hcell : (m.step (moveStackPointer mode bytes)).cell (.register (stackPointer mode.bits)) =
      _ % modulus _ := Machine.cell_set_self m _ _
  have hdescribes := Constant.describes_displace (bits_stackPointer_le mode)
    (h (stackPointer mode.bits)) bytes
  rw [← cell_moveStackPointer, Int.toNat_natCast, hcell] at hdescribes
  exact h.set hdescribes

end

/-! ## Operations -/

section

variable {s : Setting} {m : Machine} {p : Progress} {dst src : Operand} {bits : Nat}
  {statements : List Stmt}

theorem matches_move (h : m.Matches p.state.registers) (hdst : dst.bits? = some bits)
    (hsrc : src.bits? = some bits) (hbits : bits ≤ 64)
    (hs : s.moveStatements? [dst, src] = some statements) :
    (m.run statements).Matches (p.move [dst, src]).state.registers := by
  simp only [Setting.moveStatements?] at hs
  split at hs
  · cases hs
  · cases hs
    exact matches_set s.mode h hdst (describes_operand s.mode h hsrc (by omega))

theorem matches_arithmetic (op : BinaryOp) (h : m.Matches p.state.registers)
    (hdst : dst.bits? = some bits) (hsrc : src.bits? = some bits) (hbits : bits ≤ 64)
    (hs : s.arithmeticStatements? op [dst, src] = some statements) :
    (m.run statements).Matches (p.arithmetic op [dst, src]).state.registers := by
  rw [Setting.arithmeticStatements?, hdst] at hs
  cases hs
  exact matches_set_flags (matches_foldInto s.mode op h hdst hsrc hbits) _ _

theorem matches_logical (op : BinaryOp) (h : m.Matches p.state.registers)
    (hdst : dst.bits? = some bits) (hsrc : src.bits? = some bits) (hbits : bits ≤ 64)
    (hs : s.logicalStatements? op [dst, src] = some statements) :
    (m.run statements).Matches (p.logical op [dst, src]).state.registers := by
  rw [Setting.logicalStatements?, hdst] at hs
  cases hs
  have hfold := matches_foldInto s.mode op h hdst hsrc hbits
  exact matches_set_flags (matches_set_flags hfold _ _) _ _

theorem matches_compare (h : m.Matches p.state.registers) (hdst : dst.bits? = some bits)
    (hs : s.compareStatements? [dst, src] = some statements) :
    (m.run statements).Matches p.compare.state.registers := by
  rw [Setting.compareStatements?, hdst] at hs
  cases hs
  exact matches_set_flags h _ _

theorem matches_zero {i : Instruction} (h : m.Matches p.state.registers)
    (hs : Setting.zeroStatements? i.operands = some statements) :
    (m.run statements).Matches (p.zero i).1.state.registers := by
  unfold Setting.zeroStatements? at hs
  unfold Progress.zero
  cases hsame : sameRegister? i.operands with
  | none =>
    rw [hsame] at hs
    cases hs
  | some r =>
    rw [hsame] at hs
    cases hs
    have hvalue : (Expr.constant (.zero r.bits)).eval m = 0 := rfl
    refine h.set ?_
    rw [hvalue, Nat.zero_mod]
    exact Constant.describes_known _ _

theorem matches_push (h : m.Matches p.state.registers)
    (hs : s.pushStatements? [src] = some statements) :
    (m.run statements).Matches (s.push p [src]).state.registers := by
  cases hs
  exact matches_shiftStackPointer s.mode h _

/-- The operations of the regular block. -/
theorem matches_alu {op : Alu} {i : Instruction} (h : m.Matches p.state.registers)
    (hoperation : i.operation = op.operation) (hoperands : i.operands = [dst, src])
    (hdst : dst.bits? = some bits) (hsrc : src.bits? = some bits) (hbits : bits ≤ 64)
    (hs : s.statements? i = some statements) :
    (m.run statements).Matches (s.perform i p).1.state.registers := by
  unfold Setting.statements? at hs
  unfold Setting.perform
  rw [hoperation, hoperands] at hs ⊢
  cases op with
  | add => exact matches_arithmetic .add h hdst hsrc hbits hs
  | or => exact matches_logical .or h hdst hsrc hbits hs
  | adc => cases hs
  | sbb => cases hs
  | and => exact matches_logical .and h hdst hsrc hbits hs
  | sub => exact matches_arithmetic .sub h hdst hsrc hbits hs
  | xor => exact matches_zero h (by rwa [hoperands])
  | cmp => exact matches_compare h hdst hs

end

/-! ## Instructions -/

namespace Setting

variable {s : Setting} {m : Machine} {p : Progress} {i : Instruction} {statements : List Stmt}

/-- An instruction that bytes spell keeps step, unless it is a call or a pop. -/
theorem matches_execute (hi : s.mode.Encodes i) (hs : s.statements? i = some statements)
    (hcall : i.operation ≠ .call) (hpop : i.operation ≠ .pop)
    (h : m.Matches p.state.registers) :
    (m.run statements).Matches (s.execute i p).1.state.registers := by
  rw [state_execute]
  obtain ⟨bytes, hdecode⟩ := hi
  obtain ⟨-, -, -, body, hformed, hplace⟩ := decode_eq_ok hdecode
  rw [hplace] at hs hcall hpop ⊢
  cases hformed with
  | alu op hbits hdst hsrc =>
    have hdst := bits_of_admits_general hbits hdst
    have hsrc := hsrc.elim (bits_of_admits_general hbits) fun ⟨_, hvalue⟩ => hvalue ▸ rfl
    exact matches_alu h rfl rfl hdst hsrc (by simp at hbits; omega) hs
  | move hbits hdst hsrc =>
    have hdst := bits_of_admits_general hbits hdst
    have hsrc := hsrc.elim (bits_of_admits_general hbits) fun ⟨_, hvalue⟩ => hvalue ▸ rfl
    exact matches_move h hdst hsrc (by simp at hbits; omega) hs
  | loadSegment hr hsrc =>
    have hdst : (Operand.register _).bits? = some 16 := congrArg some (bits_segment hr)
    exact matches_move h hdst (bits_of_admits_general (by decide) hsrc) (by decide) hs
  | storeSegment hr hdst =>
    have hsrc : (Operand.register _).bits? = some 16 := congrArg some (bits_segment hr)
    exact matches_move h (bits_of_admits_general (by decide) hdst) hsrc (by decide) hs
  | exclusiveOr => exact matches_zero h hs
  | push | pushImmediate => exact matches_push h hs
  | pop => exact absurd rfl hpop
  | ret | retMore | nop | jump =>
    cases hs
    exact h
  | call => exact absurd rfl hcall
  | relative transfer distance =>
    cases transfer with
    | jump | branch =>
      cases hs
      exact h
    | call => exact absurd rfl hcall

/-! ## Steps -/

/-- Arriving at an instruction in a segment tells the code segment register, and no more. -/
theorem matches_arrive (h : m.Matches p.state.registers)
    (hprocessor : p.state.processor = processor s.mode)
    (hcs : s.mode = .real16 → ∀ selector, i.address.selector? = some selector →
      m.cell (.register cs) = selector.toNat) :
    m.Matches (p.arrive i).state.registers := by
  change m.Matches (p.state.setPointer i.address).registers
  unfold State.setPointer
  rw [hprocessor]
  split
  · next r selector hsegment hselector =>
    cases hmode : s.mode with
    | real16 =>
      rw [hmode] at hsegment
      cases hsegment
      have hlow : selector.toNat % modulus cs.bits = selector.toNat :=
        Nat.mod_eq_of_lt selector.toNat_lt
      have hdescribes := Constant.describes_ofNat (show cs.bits ≤ 128 by decide) selector.toNat
      rw [hlow] at hdescribes
      refine h.learn ?_
      rw [hcs hmode selector hselector]
      exact hdescribes
    | protected32 =>
      rw [hmode] at hsegment
      cases hsegment
  · exact h

theorem matches_copy {src dst : Register} (hbits : dst.bits = src.bits)
    (h : m.Matches p.state.registers) :
    (m.step (.set (.register dst) (.register src))).Matches (p.copy src dst).state.registers := by
  unfold Progress.copy
  rw [Progress.state_follow]
  refine h.set ?_
  have hvalue : (Expr.register src).eval m = m.cell (.register src) := rfl
  rw [hvalue, hbits, m.cell_mod]
  exact h src

/-- A machine that matches the known registers of a run matches those behind the next cluster when
it has executed the statements, unless the cluster is that of a call or a pop. In real mode the
code segment register has to hold the selector of the cluster. -/
theorem matches_next? {r r' : Run} {outcome : Outcome} {c : Cluster} (hr : r.Encoded s.mode)
    (hprocessor : r.progress.state.processor = processor s.mode)
    (hnext : s.next? r = some (outcome, r')) (hresult : outcome.result = .ok c)
    (hcall : ∀ i, r.instruction? = some i → i.operation ≠ .call)
    (hpop : ∀ i, r.instruction? = some i → i.operation ≠ .pop)
    (hcs : s.mode = .real16 → ∀ selector, c.address.selector? = some selector →
      m.cell (.register cs) = selector.toNat)
    (h : m.Matches r.progress.state.registers) :
    (m.run c.statements).Matches r'.progress.state.registers := by
  have hstep := step_of_next? hnext
  rw [hresult] at hstep
  cases hstep with
  | lifted hitem hok hstatements hprogress =>
    have hinstruction := Run.instruction?_eq hitem hok
    rw [hprogress]
    exact matches_execute ((hr.item? hitem).1 _ hok) hstatements (hcall _ hinstruction)
      (hpop _ hinstruction) (matches_arrive h hprocessor hcs)
  | copied hitem hok hnext' hcopy hprogress =>
    obtain ⟨-, -, -, hbits, -⟩ := copy?_eq_some.1 hcopy
    rw [hprogress]
    exact matches_copy hbits (matches_arrive h hprocessor hcs)

/-- Behind `add ax, 3` a register that held its greatest value is known to hold 2. -/
theorem matches_next?_add :
    let s : Setting := ⟨.real16, .silent⟩
    let i : Instruction := ⟨⟨.segment 0x1000, 0, by decide⟩, [0x05, 0x03, 0x00], "add", .add,
      [.register ax, .immediate 3 16], .sequential⟩
    let known := (State.initial (processor .real16) none).setRegister ax (.known 16 0xFFFF)
    let r : Run := .start ⟨known, .empty 16, none⟩ (.items [.ok i])
    let m := (Machine.blank.set (.register cs) 0x1000).set (.register ax) 0xFFFF
    r.Encoded .real16 ∧ m.Matches known.registers ∧
      ∃ outcome r' c, s.next? r = some (outcome, r') ∧ outcome.result = .ok c ∧
        r'.progress.state.register ax = .known 16 2 ∧
          (m.run c.statements).Matches r'.progress.state.registers := by
  intro s i known r m
  have hi : r.instruction? = some i := rfl
  have hr : r.Encoded s.mode := by
    refine (Run.resumes_start _ _).encoded fun j hj => ?_
    have hj : j = i := by simpa using hj
    rw [hj]
    exact ⟨[0x05, 0x03, 0x00], by decide +kernel⟩
  have hm : m.Matches known.registers :=
    (Machine.matches_empty _).set (Constant.describes_known 16 0xFFFF)
  obtain ⟨outcome, r', c, hnext, hresult, hax, haddress⟩ : ∃ outcome r' c,
      s.next? r = some (outcome, r') ∧ outcome.result = .ok c ∧
        r'.progress.state.register ax = .known 16 2 ∧ c.address = i.address :=
    ⟨_, _, _, next?_start_items rfl rfl, rfl, by decide +kernel, rfl⟩
  refine ⟨hr, hm, outcome, r', c, hnext, hresult, hax, ?_⟩
  refine matches_next? hr rfl hnext hresult ?_ ?_ ?_ hm
  · intro j hj
    rw [hi] at hj
    cases hj
    decide
  · intro j hj
    rw [hi] at hj
    cases hj
    decide
  · intro _ selector hselector
    rw [haddress] at hselector
    cases hselector
    decide

end Setting

end CodeLift.X86
