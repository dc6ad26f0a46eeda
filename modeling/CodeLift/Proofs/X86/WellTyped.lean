-- SUMMARY: Lifted statements agree in their widths, but for segment registers in wide stack slots.
import CodeLift.Proofs.X86.Coverage
import CodeLift.Proofs.X86.References
import CodeLift.Proofs.X86.Stack

/-!
# Widths of statements

An expression is uniform if both operands of every operator in it are as wide as the operator
says. A statement is typed if it is made of uniform expressions and writes what can be written;
it keeps the width if it writes a value as wide as its destination. All statements of lifted
instructions are typed, and all keep the width but those that carry a segment register through a
stack slot of protected mode, which is twice as wide (`Setting.next?_typed`).
-/

namespace CodeLift

/-! ## Expressions -/

/-- Both operands of every operator have the width that the operator says. -/
@[simp] def Expr.Uniform : Expr → Prop
  | .binary _ left right bits =>
    left.bits? = some bits ∧ right.bits? = some bits ∧ left.Uniform ∧ right.Uniform
  | .unary _ e _ | .memory _ e _ | .conditionOf e => e.Uniform
  | _ => True

namespace Expr

theorem bits?_displaced {e : Expr} {bits : Nat} (he : e.bits? = some bits) (d : Int) :
    (e.displaced d bits).bits? = some bits := by
  unfold displaced
  split
  · exact he
  · split <;> rfl

theorem Uniform.displaced {e : Expr} {bits : Nat} (h : e.Uniform) (he : e.bits? = some bits)
    (d : Int) : (e.displaced d bits).Uniform := by
  unfold Expr.displaced
  split
  · exact h
  · split <;> exact ⟨he, rfl, h, trivial⟩

end Expr

/-! ## Statements -/

namespace Stmt

/-- The expressions of a statement. -/
def exprs : Stmt → List Expr
  | .assign dst src | .store dst src => [dst, src]
  | .branch condition _ => [condition]
  | .goto target | .call target _ => [target]
  | .ret _ _ | .nop | .invalid => []

/-- The statement assigns to locations, stores to memory, and is made of uniform expressions. -/
structure Typed (st : Stmt) : Prop where
  assign : ∀ dst src, st = .assign dst src → dst.isLocation = true
  store : ∀ dst src, st = .store dst src → dst.isMemory = true
  exprs : ∀ e ∈ st.exprs, e.Uniform

/-- What is written to a register or to memory is as wide as that. -/
def KeepsWidth : Stmt → Prop
  | .assign (.register r) src => src.bits? = some r.bits
  | .store dst src => ∃ bits, dst.bits? = some bits ∧ src.bits? = some bits
  | _ => True

theorem typed_assign {dst src : Expr} (hlocation : dst.isLocation = true) (hsrc : src.Uniform) :
    (Stmt.assign dst src).Typed where
  assign := by
    intro _ _ h
    cases h
    exact hlocation
  store := nofun
  exprs := by
    intro e he
    simp only [exprs, List.mem_cons, List.not_mem_nil, or_false] at he
    obtain rfl | rfl := he
    · cases e <;> trivial
    · exact hsrc

theorem typed_store {dst src : Expr} (hmemory : dst.isMemory = true) (hdst : dst.Uniform)
    (hsrc : src.Uniform) : (Stmt.store dst src).Typed where
  assign := nofun
  store := by
    intro _ _ h
    cases h
    exact hmemory
  exprs := by simp [exprs, hdst, hsrc]

/-- The statement is typed, and what it writes is as wide as its destination. -/
def Fits (st : Stmt) : Prop := st.Typed ∧ st.KeepsWidth

/-- A statement that writes nothing fits if its expressions are uniform. -/
theorem fits_of_exprs {st : Stmt} (hassign : ∀ dst src, st ≠ .assign dst src)
    (hstore : ∀ dst src, st ≠ .store dst src) (hexprs : ∀ e ∈ st.exprs, e.Uniform) : st.Fits := by
  refine ⟨⟨fun dst src h => absurd h (hassign dst src), fun dst src h => absurd h (hstore dst src),
    hexprs⟩, ?_⟩
  cases st with
  | assign dst src => exact absurd rfl (hassign dst src)
  | store dst src => exact absurd rfl (hstore dst src)
  | _ => trivial

theorem typed_set {dst src : Expr} (hplace : dst.isLocation = true ∨ dst.isMemory = true)
    (hdst : dst.Uniform) (hsrc : src.Uniform) : (Stmt.set dst src).Typed := by
  unfold set
  split
  · next hmemory => exact typed_store hmemory hdst hsrc
  · next hmemory => exact typed_assign (hplace.resolve_right hmemory) hsrc

theorem fits_set {dst src : Expr} {bits : Nat}
    (hplace : dst.isLocation = true ∨ dst.isMemory = true) (hdst : dst.bits? = some bits)
    (hsrc : src.bits? = some bits) (hdst' : dst.Uniform) (hsrc' : src.Uniform) :
    (Stmt.set dst src).Fits := by
  refine ⟨typed_set hplace hdst' hsrc', ?_⟩
  unfold set
  split
  · exact ⟨bits, hdst, hsrc⟩
  · cases dst with
    | register r => exact hsrc.trans hdst.symm
    | _ => trivial

end Stmt

namespace X86

/-! ## Operands -/

/-- The address of a memory reference is uniform, and as wide as its registers. -/
theorem uniform_effectiveAddress (mode : Mode) {ref : MemoryRef} {bits : Nat}
    (h : ref.Spelled bits) (hbits : bits ∈ [16, 32]) :
    (effectiveAddress mode ref).Uniform := by
  have hregister := fun r => @bits_eq_addressBits bits ref h hbits mode r
  unfold effectiveAddress
  generalize addressBits mode ref = width at hregister
  have hscaled : ∀ r ∈ ref.index, (scaledIndex width ref.scale r).Uniform ∧
      (scaledIndex width ref.scale r).bits? = some width := by
    intro r hr
    have hwidth : (Expr.register r).bits? = some width := congrArg some (hregister r (.inr hr))
    unfold scaledIndex
    split
    · exact ⟨⟨hwidth, rfl, trivial, trivial⟩, rfl⟩
    · exact ⟨trivial, hwidth⟩
  cases hbase : ref.base with
  | none =>
    cases hindex : ref.index with
    | none => trivial
    | some i => exact (hscaled i hindex).1.displaced (hscaled i hindex).2 _
  | some b =>
    have hwidth : (Expr.register b).bits? = some width := congrArg some (hregister b (.inl hbase))
    cases hindex : ref.index with
    | none => exact Expr.Uniform.displaced (e := .register b) trivial hwidth _
    | some i =>
      obtain ⟨huniform, hscale⟩ := hscaled i hindex
      have hsum : (Expr.binary .add (.register b) (scaledIndex width ref.scale i) width).Uniform :=
        ⟨hwidth, hscale, trivial, huniform⟩
      exact hsum.displaced rfl _

theorem Mode.Encodes.uniform {mode : Mode} {i : Instruction} (hi : mode.Encodes i) {o : Operand}
    (ho : o ∈ i.operands) : (operandExpr mode o).Uniform := by
  cases o with
  | memory ref =>
    exact uniform_effectiveAddress mode (hi.spelled _ ho) (mode.addressSize_mem i.bytes)
  | register | immediate | address => trivial

theorem bits?_operandExpr (mode : Mode) {o : Operand} {bits : Nat} (h : o.bits? = some bits) :
    (operandExpr mode o).bits? = some bits := by
  cases o with
  | register | immediate | memory => exact h
  | address => cases h

/-- Every operand that has a width and is no immediate value can be written. -/
theorem isLocation_or_isMemory_operandExpr (mode : Mode) {o : Operand} {bits : Nat}
    (h : o.bits? = some bits) (himmediate : o.isImmediate = false) :
    (operandExpr mode o).isLocation = true ∨ (operandExpr mode o).isMemory = true := by
  cases o with
  | register => exact .inl rfl
  | memory => exact .inr rfl
  | immediate => cases himmediate
  | address => cases h

theorem bits_of_admits_vector {bank : Bank} {o : Operand} (hbank : bank ∈ [.mmx, .xmm])
    (h : bank.Admits o) : o.bits? = some bank.bits := by
  simp only [List.mem_cons, List.not_mem_nil, or_false] at hbank
  cases o with
  | register r =>
    obtain ⟨n, -, rfl⟩ := h
    obtain rfl | rfl := hbank <;> rfl
  | memory place => exact congrArg some h
  | immediate | address => cases h

/-- Two operands of an encoded instruction have one width, and the first can be written. -/
theorem Mode.Encodes.operands_two {mode : Mode} {i : Instruction} (hi : mode.Encodes i)
    {dst src : Operand} (hoperands : i.operands = [dst, src]) :
    dst.isImmediate = false ∧ ∃ bits, dst.bits? = some bits ∧ src.bits? = some bits := by
  obtain ⟨bytes, hdecode⟩ := hi
  obtain ⟨-, -, -, body, hformed, hplace⟩ := decode_eq_ok hdecode
  rw [hplace] at hoperands
  cases hformed with
  | alu op hbits hdst hsrc | move hbits hdst hsrc =>
    cases hoperands
    exact ⟨hdst.isImmediate, _, bits_of_admits_general hbits hdst,
      hsrc.elim (bits_of_admits_general hbits) fun ⟨_, hvalue⟩ => hvalue ▸ rfl⟩
  | loadSegment hr hsrc =>
    cases hoperands
    exact ⟨rfl, 16, congrArg some (bits_segment hr), bits_of_admits_general (by decide) hsrc⟩
  | storeSegment hr hdst =>
    cases hoperands
    exact ⟨hdst.isImmediate, 16, bits_of_admits_general (by decide) hdst,
      congrArg some (bits_segment hr)⟩
  | exclusiveOr hbank hdst hsrc =>
    cases hoperands
    exact ⟨hdst.isImmediate, _, bits_of_admits_vector hbank hdst, bits_of_admits_vector hbank hsrc⟩
  | relative transfer => cases transfer <;> cases hoperands
  | _ => cases hoperands

/-! ## Lifted instructions -/

namespace Setting

variable {s : Setting} {i : Instruction} {statements : List Stmt}

/-- The instruction is a push or a pop of a segment register in protected mode, and the statement
the transfer between the register and its slot of 32 bits. -/
def CarriesSegment (s : Setting) (i : Instruction) (st : Stmt) : Prop :=
  s.mode = .protected32 ∧ ∃ r ∈ segments, i.operands = [.register r] ∧
    (i.operation = .push ∧ st = .store (.memory none (.register esp) 32) (.register r) ∨
      i.operation = .pop ∧ st = .assign (.register r) (.memory none (.register esp) 32))

/-- The statement is typed, and keeps the width unless it carries a segment register. -/
def Allows (s : Setting) (i : Instruction) (st : Stmt) : Prop :=
  st.Typed ∧ (st.KeepsWidth ∨ s.CarriesSegment i st)

theorem allows_of_fits {st : Stmt} (h : st.Fits) : s.Allows i st := h.imp_right .inl

theorem CarriesSegment.not_keepsWidth {st : Stmt} (h : s.CarriesSegment i st) :
    ¬ st.KeepsWidth := by
  obtain ⟨-, r, hr, -, ⟨-, rfl⟩ | ⟨-, rfl⟩⟩ := h
  · rintro ⟨bits, hslot, hsource⟩
    cases hslot
    cases hsource.symm.trans (congrArg some (bits_segment hr))
  · intro hslot
    cases hslot.trans (congrArg some (bits_segment hr))

theorem uniform_expr (hi : s.mode.Encodes i) {o : Operand} (ho : o ∈ i.operands) :
    (s.expr o).Uniform :=
  hi.uniform ho

theorem fits_moveStackPointer (mode : Mode) (bytes : Int) :
    (moveStackPointer mode bytes).Fits :=
  Stmt.fits_set (.inl rfl) rfl (Expr.bits?_displaced rfl bytes) trivial
    (Expr.Uniform.displaced (e := .register _) trivial rfl bytes)

theorem fits_flags (g : FlagGroup) {e : Expr} (he : e.Uniform) : (Stmt.set (.flags g) e).Fits :=
  ⟨Stmt.typed_assign rfl he, trivial⟩

/-- Of two operands, the first can be written with any value as wide as the second. -/
theorem fits_set_expr (hi : s.mode.Encodes i) {dst src : Operand}
    (hoperands : i.operands = [dst, src]) {e : Expr} (he : e.Uniform)
    (hbits : e.bits? = src.bits?) : (Stmt.set (s.expr dst) e).Fits := by
  obtain ⟨himmediate, bits, hdst, hsrc⟩ := hi.operands_two hoperands
  exact Stmt.fits_set (isLocation_or_isMemory_operandExpr s.mode hdst himmediate)
    (bits?_operandExpr s.mode hdst) (hbits.trans hsrc) (uniform_expr hi (by simp [hoperands])) he

/-- An operator on two operands is uniform, and as wide as both. -/
theorem uniform_binary (hi : s.mode.Encodes i) {dst src : Operand}
    (hoperands : i.operands = [dst, src]) (op : BinaryOp) {bits : Nat}
    (hbits : dst.bits? = some bits) :
    (Expr.binary op (s.expr dst) (s.expr src) bits).Uniform ∧ src.bits? = some bits := by
  obtain ⟨-, bits', hdst, hsrc⟩ := hi.operands_two hoperands
  cases hbits.symm.trans hdst
  exact ⟨⟨bits?_operandExpr s.mode hdst, bits?_operandExpr s.mode hsrc,
    uniform_expr hi (by simp [hoperands]), uniform_expr hi (by simp [hoperands])⟩, hsrc⟩

/-- The slot of an operand is as wide as the operand, unless that is a segment register in
protected mode. -/
theorem bits?_slotAccess (s : Setting) {o : Operand} (h : IsSlotOperand o) :
    (∃ bits, o.bits? = some bits ∧ (s.slotAccess o).bits? = some bits) ∨
      s.mode = .protected32 ∧ ∃ r ∈ segments, o = .register r ∧
        s.slotAccess o = .memory none (.register esp) 32 := by
  rw [slotAccess, stackAccess_zero]
  obtain ⟨bits, -, ho, hslot⟩ | ⟨r, hr, rfl, hslot⟩ := h.slotBits_eq s.mode
  · exact .inl ⟨bits, ho, congrArg some hslot⟩
  · rw [hslot]
    cases hmode : s.mode with
    | real16 => exact .inl ⟨16, congrArg some (bits_segment hr), rfl⟩
    | protected32 => exact .inr ⟨rfl, r, hr, rfl, rfl⟩

theorem allows_push (hi : s.mode.Encodes i) {src : Operand} (hpush : i.operation = .push)
    (hoperands : i.operands = [src]) : s.Allows i (.store (s.slotAccess src) (s.expr src)) := by
  have hmemory : (s.slotAccess src).isMemory = true := rfl
  have hplace : (s.slotAccess src).Uniform := by simp [slotAccess, stackAccess_zero]
  refine ⟨Stmt.typed_store hmemory hplace (uniform_expr hi (by simp [hoperands])), ?_⟩
  obtain ⟨src', hsrc', hslot⟩ := hi.operands_push hpush
  cases hoperands.symm.trans hsrc'
  obtain hslot | ⟨value, bits, -, rfl⟩ := hslot
  · obtain ⟨bits, hbits, haccess⟩ | ⟨hmode, r, hr, rfl, haccess⟩ := bits?_slotAccess s hslot
    · exact .inl ⟨bits, haccess, bits?_operandExpr s.mode hbits⟩
    · rw [haccess]
      exact .inr ⟨hmode, r, hr, hoperands, .inl ⟨hpush, rfl⟩⟩
  · exact .inl ⟨bits, rfl, rfl⟩

theorem allows_pop (hi : s.mode.Encodes i) {dst : Operand} (hpop : i.operation = .pop)
    (hoperands : i.operands = [dst]) : s.Allows i (.set (s.expr dst) (s.slotAccess dst)) := by
  have hplace : (s.slotAccess dst).Uniform := by simp [slotAccess, stackAccess_zero]
  have hdst := uniform_expr hi (show dst ∈ i.operands by simp [hoperands])
  obtain ⟨dst', hdst', hslot⟩ := hi.operands_pop hpop
  cases hoperands.symm.trans hdst'
  obtain ⟨bits, hbits, haccess⟩ | ⟨hmode, r, hr, rfl, haccess⟩ := bits?_slotAccess s hslot
  · have hwritten := isLocation_or_isMemory_operandExpr s.mode hbits hslot.isImmediate
    have hwidth := bits?_operandExpr s.mode hbits
    exact allows_of_fits (Stmt.fits_set hwritten hwidth haccess hdst hplace)
  · refine ⟨Stmt.typed_assign rfl hplace, ?_⟩
    rw [haccess]
    exact .inr ⟨hmode, r, hr, hoperands, .inr ⟨hpop, rfl⟩⟩

/-- An encoded instruction is lifted into such statements alone. -/
theorem allows_of_statements? (hi : s.mode.Encodes i) (h : s.statements? i = some statements) :
    ∀ st ∈ statements, s.Allows i st := by
  have huniform : ∀ o ∈ i.operands, (s.expr o).Uniform := fun o => uniform_expr hi
  cases emits_of_statements? h with
  | nop | ret =>
    rw [List.forall_mem_singleton]
    exact allows_of_fits (Stmt.fits_of_exprs nofun nofun (by simp [Stmt.exprs]))
  | move _ hoperands =>
    rw [List.forall_mem_singleton]
    obtain ⟨-, bits, -, hsrc⟩ := hi.operands_two hoperands
    refine allows_of_fits (fits_set_expr hi hoperands (huniform _ (by simp [hoperands])) ?_)
    rw [hsrc]
    exact bits?_operandExpr s.mode hsrc
  | arithmetic _ hoperands hbits =>
    rw [List.forall_mem_cons, List.forall_mem_singleton]
    obtain ⟨hvalue, hsrc⟩ := uniform_binary hi hoperands _ hbits
    exact ⟨allows_of_fits (fits_set_expr hi hoperands hvalue hsrc.symm),
      allows_of_fits (fits_flags _ (huniform _ (by simp [hoperands])))⟩
  | compare _ hoperands hbits =>
    rw [List.forall_mem_singleton]
    obtain ⟨hvalue, -⟩ := uniform_binary hi hoperands .sub hbits
    exact allows_of_fits (fits_flags _ hvalue)
  | logical _ hoperands hbits =>
    rw [List.forall_mem_cons, List.forall_mem_cons, List.forall_mem_singleton]
    obtain ⟨hvalue, hsrc⟩ := uniform_binary hi hoperands _ hbits
    exact ⟨allows_of_fits (fits_set_expr hi hoperands hvalue hsrc.symm),
      allows_of_fits (fits_flags _ (huniform _ (by simp [hoperands]))),
      allows_of_fits (fits_flags _ (by simp))⟩
  | zero =>
    rw [List.forall_mem_singleton]
    exact allows_of_fits ⟨Stmt.typed_assign rfl trivial, rfl⟩
  | push hpush hoperands =>
    rw [List.forall_mem_cons, List.forall_mem_singleton]
    exact ⟨allows_of_fits (fits_moveStackPointer _ _), allows_push hi hpush hoperands⟩
  | pop hpop hoperands =>
    rw [List.forall_mem_cons, List.forall_mem_singleton]
    exact ⟨allows_pop hi hpop hoperands, allows_of_fits (fits_moveStackPointer _ _)⟩
  | @call target _ _ hoperands hcallee =>
    rw [List.forall_mem_singleton]
    have htarget := huniform target (by simp [hoperands])
    refine allows_of_fits (Stmt.fits_of_exprs nofun nofun ?_)
    obtain ⟨name, -, rfl⟩ | ⟨-, rfl⟩ := hcallee
    · simp [Stmt.exprs]
    · simpa [Stmt.exprs] using htarget
  | @jump target _ hoperands =>
    rw [List.forall_mem_singleton]
    have htarget := huniform target (by simp [hoperands])
    exact allows_of_fits (Stmt.fits_of_exprs nofun nofun (by simpa [Stmt.exprs] using htarget))
  | branch =>
    rw [List.forall_mem_singleton]
    exact allows_of_fits (Stmt.fits_of_exprs nofun nofun (by simp [Stmt.exprs]))

/-- All statements of a lifted instruction are typed, on its own or merged with what is behind it.
Exactly those that carry a segment register through a stack slot of protected mode do not keep the
width. -/
theorem next?_typed {s : Setting} {r r' : Run} {outcome : Outcome} {c : Cluster}
    (hr : r.Encoded s.mode) (hnext : s.next? r = some (outcome, r'))
    (hc : outcome.result = .ok c) :
    ∀ st ∈ c.statements, st.Typed ∧
      (¬ st.KeepsWidth ↔ ∃ i, r.instruction? = some i ∧ s.CarriesSegment i st) := by
  suffices h : ∀ st ∈ c.statements, st.Typed ∧
      (st.KeepsWidth ∨ ∃ i, r.instruction? = some i ∧ s.CarriesSegment i st) by
    intro st hst
    obtain ⟨htyped, hwidth⟩ := h st hst
    refine ⟨htyped, fun hnot => hwidth.resolve_left hnot, ?_⟩
    rintro ⟨i, -, hcarries⟩
    exact hcarries.not_keepsWidth
  have hstep := step_of_next? hnext
  rw [hc] at hstep
  cases hstep with
  | lifted hitem hok hstatements =>
    intro st hst
    have hi := (hr.item? hitem).1 _ hok
    obtain ⟨htyped, hwidth⟩ := allows_of_statements? hi hstatements st hst
    exact ⟨htyped, hwidth.imp_right fun hcarries => ⟨_, Run.instruction?_eq hitem hok, hcarries⟩⟩
  | copied _ _ _ hcopy =>
    have hbits := (copy?_eq_some.1 hcopy).2.2.2.1
    simp only [copyCluster, List.forall_mem_singleton]
    exact ⟨Stmt.typed_assign rfl trivial, .inl (congrArg some hbits.symm)⟩

/-- `push ds` in protected mode is typed, but does not keep the width: it stores 16 bits to a slot
of 32. -/
theorem next?_typed_push_ds :
    let s : Setting := ⟨.protected32, .silent⟩
    let image : Image := ⟨⟨.flat .w32, 0x1000, by decide⟩, [0x1E]⟩
    let p : Progress := ⟨.initial (processor .protected32) none, .empty 32, none⟩
    let r : Run := .start p (.code .protected32 (.ofImage image .little))
    ∃ outcome r' c, s.next? r = some (outcome, r') ∧ outcome.result = .ok c ∧
      (∀ st ∈ c.statements, st.Typed) ∧ ∃ st ∈ c.statements, ¬ st.KeepsWidth := by
  intro s image p r
  have hr : r.Encoded s.mode := (Run.resumes_start _ _).encoded rfl
  obtain ⟨outcome, r', c, i, hnext, hc, hi, hcarries⟩ :
      ∃ outcome r' c i, s.next? r = some (outcome, r') ∧ outcome.result = .ok c ∧
        r.instruction? = some i ∧ ∃ st ∈ c.statements, s.CarriesSegment i st :=
    ⟨_, _, _, _, rfl, rfl, rfl, .store (.memory none (.register esp) 32) (.register ds),
      List.mem_cons_of_mem _ (List.mem_singleton.2 rfl), rfl, ds, by decide, rfl, .inl ⟨rfl, rfl⟩⟩
  have htyped := next?_typed hr hnext hc
  obtain ⟨st, hst, hcarries⟩ := hcarries
  exact ⟨outcome, r', c, hnext, hc, fun st hst => (htyped st hst).1, st, hst,
    (htyped st hst).2.2 ⟨i, hi, hcarries⟩⟩

end Setting

end X86

end CodeLift
