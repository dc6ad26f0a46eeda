-- SUMMARY: What instructions do to the stack pointer, to the depth and to the frame pointer.
import CodeLift.Proofs.Composition
import CodeLift.Proofs.Rtl.Constants
import CodeLift.Proofs.X86.Coverage
import CodeLift.Proofs.X86.Items
import CodeLift.Proofs.X86.TrackedStack

/-!
# The stack pointer and the depth

What is known of the stack is kept in three places: the value of the stack pointer, the
depth, and the depth at which the frame pointer was loaded. Each instruction changes them
in its own part of the effect. Here is what an instruction does to each of them, told from
its statements: a register that no statement assigns keeps its value
(`register_execute`), the depth stays where no statement assigns a register in the domain
of the stack pointer (`depth_execute`), and the depth of the frame pointer comes only from
a copy of the stack pointer (`frameDepth_execute`).
-/

namespace CodeLift.X86

/-- The frame pointer of a width. -/
def framePointer (bits : Nat) : Register := if bits = 16 then bp else ebp

theorem Mode.bits_stackPointer (mode : Mode) : (stackPointer mode.bits).bits = mode.bits := by
  cases mode <;> rfl

theorem isStackPointer_stackPointer (bits : Nat) : isStackPointer (stackPointer bits) = true := by
  unfold stackPointer
  split <;> rfl

theorem isFramePointer_framePointer (bits : Nat) : isFramePointer (framePointer bits) = true := by
  unfold framePointer
  split <;> rfl

theorem isStackPointer_framePointer (bits : Nat) : isStackPointer (framePointer bits) = false := by
  unfold framePointer
  split <;> rfl

theorem isFramePointer_stackPointer (bits : Nat) : isFramePointer (stackPointer bits) = false := by
  unfold stackPointer
  split <;> rfl

theorem ne_stackPointer_of_isStackPointer {r : Register} (h : isStackPointer r = false)
    (bits : Nat) : r ≠ stackPointer bits := by
  rintro rfl
  rw [isStackPointer_stackPointer] at h
  cases h

theorem stackPointer_ne_cs (bits : Nat) : stackPointer bits ≠ cs := by
  unfold stackPointer
  split <;> decide

theorem framePointer_ne_cs (bits : Nat) : framePointer bits ≠ cs := by
  unfold framePointer
  split <;> decide

/-! ## Distances from the entry -/

/-- The progress at the entry of a procedure whose stack pointer is known to be `entry` there. -/
structure Progress.Enters (p : Progress) (mode : Mode) (entry : Int) : Prop where
  processor : p.state.processor = processor mode
  depth : p.state.depth = 0
  stack : p.state.register (stackPointer mode.bits) = .ofInt mode.bits entry
  frameDepth : p.frameDepth = none

/-- Depths that agree in 32 bits are the same to the stack pointer. -/
theorem ofInt_sub_congr (mode : Mode) (entry : Int) {depth depth' : Int}
    (h : depth ≡ depth' [ZMOD modulus 32]) :
    Constant.ofInt mode.bits (entry - depth) = .ofInt mode.bits (entry - depth') := by
  have hbits := mode.bits_le
  have hdvd : (modulus mode.bits : Int) ∣ modulus 32 :=
    Int.natCast_dvd_natCast.2 (modulus_dvd hbits)
  exact Constant.ofInt_congr (by omega) ((h.of_dvd hdvd).sub_left entry)

/-- The constant of a word is known, and has the value modulo the word. -/
theorem ofInt_mode (mode : Mode) (v : Int) :
    ∃ c : Nat, Constant.ofInt mode.bits v = .known mode.bits c ∧
      c ≡ v [ZMOD modulus mode.bits] := by
  have hbits := mode.bits_le
  refine ⟨_, by rw [Constant.ofInt, Nat.min_eq_left (by omega)], ?_⟩
  rw [Constant.cast_toNat_emod]
  exact Int.mod_modEq v _

/-- Arriving at an instruction changes no register but that of the code segment. -/
theorem register_arrive {p : Progress} {mode : Mode} {r : Register}
    (hprocessor : p.state.processor = processor mode) (hr : r ≠ cs) (i : Instruction) :
    (p.arrive i).state.register r = p.state.register r := by
  refine (p.moved_arrive i).register r (.inl ?_)
  rw [hprocessor]
  cases mode with
  | real16 => exact fun h => hr (Option.some.inj h).symm
  | protected32 => exact nofun

/-! ## Statements -/

namespace Setting

/-- What the piece lifts on its own has its statements. -/
def IsPiece (s : Setting) (piece : Piece) : Prop :=
  ∀ i statements, piece = .lifted i statements → s.statements? i = some statements

theorem isPiece_of_piece? {s : Setting} {r : Run} {piece : Piece} (h : s.piece? r = some piece) :
    s.IsPiece piece := by
  rintro i statements rfl
  exact statements?_of_piece? h

/-- The step that takes a piece leads past it. -/
theorem progress_of_piece? {s : Setting} {r r' : Run} {piece : Piece} {outcome : Outcome}
    (hpiece : s.piece? r = some piece) (hnext : s.next? r = some (outcome, r')) :
    r'.progress = s.pass r.progress piece := by
  obtain ⟨taken, htaken, -, hprogress⟩ := (step_of_next? hnext).piece?
  cases hpiece.symm.trans htaken
  exact hprogress

variable {s : Setting} {i : Instruction} {statements : List Stmt} {p : Progress} {r : Register}

/-- A push, a pop and a call are lifted with one operand only. -/
theorem exists_operand
    (hoperation : i.operation = .push ∨ i.operation = .pop ∨ i.operation = .call)
    (hs : s.statements? i = some statements) : ∃ o, i.operands = [o] := by
  cases emits_of_statements? hs with
  | push _ hoperands | pop _ hoperands | call _ hoperands => exact ⟨_, hoperands⟩
  | _ => grind

/-- An operand that is set and is a register is assigned. -/
theorem ne_register_of_set {dst : Operand} {e : Expr}
    (h : ∀ e, .assign (.register r) e ∉ statements) (hset : .set (s.expr dst) e ∈ statements) :
    dst ≠ .register r := by
  rintro rfl
  exact h e hset

/-! ## Registers -/

theorem register_setOperand {o : Operand} (h : o ≠ .register r) (c : Constant) (t : State) :
    (setOperand o c t).register r = t.register r := by
  cases o with
  | register q => exact Store.get_set_of_ne _ _ fun heq => h (congrArg Operand.register heq.symm)
  | _ => rfl

theorem register_foldInto {dst : Operand} (h : dst ≠ .register r) (op : BinaryOp) (src : Operand)
    (t : State) : (foldInto op dst src t).register r = t.register r := by
  cases dst with
  | register q => exact Store.get_set_of_ne _ _ fun heq => h (congrArg Operand.register heq.symm)
  | _ => rfl

theorem register_shiftStackPointer (mode : Mode) (bytes : Int) (t : State) :
    (shiftStackPointer mode bytes t).register (stackPointer mode.bits) =
      (t.register (stackPointer mode.bits)).displace bytes := Store.get_set_self _ _ _

theorem register_shiftStackPointer_of_ne {mode : Mode} (h : r ≠ stackPointer mode.bits)
    (bytes : Int) (t : State) : (shiftStackPointer mode bytes t).register r = t.register r :=
  Store.get_set_of_ne _ _ h

/-- Comparisons, transfers and no-ops change flags at most. -/
theorem state_perform_control (s : Setting)
    (h : i.operation ∈ [.compare, .nop, .jump, .conditionalJump, .ret]) (p : Progress) :
    ∃ flags, (s.perform i p).1.state = { p.state with flags := flags } := by
  have hcases : i.operation = .compare ∨ i.operation = .nop ∨ i.operation = .jump ∨
      i.operation = .conditionalJump ∨ i.operation = .ret := by simpa using h
  unfold perform
  rcases hcases with hop | hop | hop | hop | hop
  · rw [hop]
    exact ⟨_, rfl⟩
  · rw [hop]
    exact ⟨_, rfl⟩
  · rw [hop]
    exact ⟨_, rfl⟩
  · rw [hop]
    change ∃ flags, (p.branch i.flow).state = { p.state with flags := flags }
    unfold Progress.branch
    split <;> exact ⟨_, rfl⟩
  · rw [hop]
    exact ⟨_, rfl⟩

/-- A register that no statement assigns keeps its value, but for what a call does. -/
theorem register_execute (hs : s.statements? i = some statements) (hcall : i.operation ≠ .call)
    (hr : ∀ e, .assign (.register r) e ∉ statements) :
    (s.execute i p).1.state.register r = p.state.register r := by
  rw [state_execute, perform]
  cases emits_of_statements? hs with
  | move hoperation hoperands =>
    rw [hoperation, hoperands]
    exact register_setOperand (ne_register_of_set hr List.mem_cons_self) _ _
  | arithmetic hoperation hoperands =>
    have hdst := register_foldInto (ne_register_of_set hr List.mem_cons_self)
    rcases hoperation with ⟨hoperation, rfl⟩ | ⟨hoperation, rfl⟩
    all_goals
      rw [hoperation, hoperands]
      exact hdst _ _ _
  | logical hoperation hoperands =>
    have hdst := register_foldInto (ne_register_of_set hr List.mem_cons_self)
    rcases hoperation with ⟨hoperation, rfl⟩ | ⟨hoperation, rfl⟩
    all_goals
      rw [hoperation, hoperands]
      exact hdst _ _ _
  | zero hoperation hoperands =>
    rw [hoperation]
    simp only [Progress.zero, sameRegister?_eq_some.2 hoperands]
    refine Store.get_set_of_ne _ _ ?_
    rintro rfl
    exact hr _ (List.mem_singleton_self _)
  | push hoperation hoperands =>
    have hsp : r ≠ stackPointer s.mode.bits := by
      rintro rfl
      exact hr _ (List.mem_cons_self ..)
    rw [hoperation, hoperands]
    exact register_shiftStackPointer_of_ne hsp _ _
  | pop hoperation hoperands =>
    have hsp : r ≠ stackPointer s.mode.bits := by
      rintro rfl
      exact hr _ (List.mem_cons_of_mem _ (List.mem_singleton_self _))
    rw [hoperation, hoperands]
    exact (register_setOperand (ne_register_of_set hr List.mem_cons_self) _ _).trans
      (register_shiftStackPointer_of_ne hsp _ _)
  | call hoperation => exact absurd hoperation hcall
  | compare hoperation | nop hoperation | jump hoperation | branch hoperation
  | ret _ hoperation =>
    obtain ⟨flags, hstate⟩ := s.state_perform_control (i := i) (by rw [hoperation]; decide) p
    rw [← perform, hstate]
    rfl

/-! ## Calls -/

theorem state_execute_call (hoperation : i.operation = .call) {target : Operand}
    (hoperands : i.operands = [target]) (p : Progress) :
    (s.execute i p).1.state =
      p.state.afterCall (p.state.callSite s.returnSize) (s.calleeSignature? target) := by
  rw [state_execute, perform, hoperation]
  simp only [call, hoperands]
  rfl

theorem register_clear (t : State) (r : Register) : t.clear.register r = t.register r := by
  unfold State.clear
  split <;> rfl

theorem depth_clear (t : State) : t.clear.depth = t.depth := by
  unfold State.clear
  split <;> rfl

theorem processor_clear (t : State) : t.clear.processor = t.processor := by
  unfold State.clear
  split <;> rfl

theorem processor_applyCall (t : State) (site : CallSite) (signature : Signature) :
    (t.applyCall site signature).processor = t.processor :=
  List.foldlRecOn (motive := fun t' : State => t'.processor = t.processor) _ _ rfl
    fun _ h _ _ => h

/-- Behind a call the registers that it loses are unknown. -/
theorem register_applyCall (t : State) (site : CallSite) (signature : Signature) (r : Register) :
    (t.applyCall site signature).register r =
      if r ∈ signature.trashed ++ signature.result.toList then .unknown else t.register r := by
  change (List.foldl _ t _).register r = _
  induction signature.trashed ++ signature.result.toList generalizing t with
  | nil => simp
  | cons lost rest ih =>
    rw [List.foldl_cons, ih]
    by_cases heq : r = lost
    · subst heq
      have hlost : (t.setRegister r .unknown).register r = .unknown := Store.get_set_self _ _ _
      simp [hlost]
    · have hkept : (t.setRegister lost .unknown).register r = t.register r :=
        Store.get_set_of_ne _ _ heq
      simp [heq, hkept]

/-- A call keeps a register or loses it. -/
theorem register_afterCall (t : State) (site : CallSite) (signature : Option Signature)
    (r : Register) :
    (t.afterCall site signature).register r = .unknown ∨
      (t.afterCall site signature).register r = t.register r := by
  cases signature with
  | none => exact .inr (register_clear t r)
  | some signature =>
    have hregister := register_applyCall t site signature r
    rw [← register_clear] at hregister
    unfold State.afterCall
    rw [hregister]
    split
    · exact .inl rfl
    · exact .inr rfl

theorem processor_afterCall (t : State) (site : CallSite) (signature : Option Signature) :
    (t.afterCall site signature).processor = t.processor := by
  cases signature with
  | none => exact processor_clear t
  | some signature => exact (processor_clear _).trans (processor_applyCall t site signature)

/-- No instruction changes what processor the state is of. -/
theorem processor_execute (hs : s.statements? i = some statements) (p : Progress) :
    (s.execute i p).1.state.processor = p.state.processor := by
  by_cases hpush : i.operation = .push
  · obtain ⟨src, hoperands⟩ := exists_operand (.inl hpush) hs
    rw [state_execute_push hpush hoperands]
    rfl
  by_cases hcall : i.operation = .call
  · obtain ⟨target, hoperands⟩ := exists_operand (.inr (.inr hcall)) hs
    rw [state_execute_call hcall hoperands, processor_afterCall]
  · exact (keepsStack_execute s p hpush hcall).2

/-! ## What is assigned -/

theorem eq_register_of_assign_eq_set {dst : Operand} {e e' : Expr}
    (h : Stmt.assign (.register r) e = .set (s.expr dst) e') : dst = .register r := by
  cases dst with
  | register q =>
    cases h
    rfl
  | immediate | memory | address => cases h

theorem eq_stackPointer_of_assign_eq_move {mode : Mode} {bytes : Int} {e : Expr}
    (h : Stmt.assign (.register r) e = moveStackPointer mode bytes) :
    r = stackPointer mode.bits := by
  cases h
  rfl

/-- A register that is assigned is the operand that the instruction writes, or the stack pointer
that a push or a pop moves. -/
theorem assigned (hs : s.statements? i = some statements) (hcall : i.operation ≠ .call) {e : Expr}
    (h : .assign (.register r) e ∈ statements) :
    (∃ src, written? i = some (.register r, src)) ∨
      (i.operation = .push ∨ i.operation = .pop) ∧ r = stackPointer s.mode.bits := by
  cases emits_of_statements? hs with
  | move hoperation hoperands =>
    cases eq_register_of_assign_eq_set (List.mem_singleton.1 h)
    exact .inl ⟨_, by rw [written?, hoperation, hoperands]⟩
  | arithmetic hoperation hoperands =>
    obtain hset | hflags : _ ∨ Stmt.assign (.register r) e = .set (.flags _) _ := by simpa using h
    · cases eq_register_of_assign_eq_set hset
      rcases hoperation with ⟨hoperation, -⟩ | ⟨hoperation, -⟩
      all_goals exact .inl ⟨_, by rw [written?, hoperation, hoperands]⟩
    · cases hflags
  | logical hoperation hoperands =>
    obtain hset | hflags | hflags : _ ∨ Stmt.assign (.register r) e = .set (.flags _) _ ∨
        Stmt.assign (.register r) e = .set (.flags _) _ := by simpa using h
    · cases eq_register_of_assign_eq_set hset
      rcases hoperation with ⟨hoperation, -⟩ | ⟨hoperation, -⟩
      all_goals exact .inl ⟨_, by rw [written?, hoperation, hoperands]⟩
    · cases hflags
    · cases hflags
  | zero hoperation hoperands =>
    cases List.mem_singleton.1 h
    exact .inl ⟨_, by rw [written?, hoperation, hoperands]⟩
  | push hoperation hoperands =>
    rcases List.mem_cons.1 h with hmove | hstore
    · exact .inr ⟨.inl hoperation, eq_stackPointer_of_assign_eq_move hmove⟩
    · cases List.mem_singleton.1 hstore
  | pop hoperation hoperands =>
    obtain hset | hmove := List.mem_cons.1 h
    · cases eq_register_of_assign_eq_set hset
      exact .inl ⟨_, by rw [written?, hoperation, hoperands]⟩
    · exact .inr ⟨.inr hoperation, eq_stackPointer_of_assign_eq_move (List.mem_singleton.1 hmove)⟩
  | call hoperation => exact absurd hoperation hcall
  | compare | nop | jump | branch | ret => simp [Stmt.set, Expr.isMemory] at h

/-- A push assigns the stack pointer, and so no register in the domain of the frame pointer. -/
theorem isFramePointer_of_push (hs : s.statements? i = some statements)
    (hoperation : i.operation = .push) {e : Expr} (h : .assign (.register r) e ∈ statements) :
    isFramePointer r = false := by
  have hcall : i.operation ≠ .call := by
    rw [hoperation]
    decide
  have hwritten : written? i = none := by
    unfold written?
    rw [hoperation]
  rcases assigned hs hcall h with ⟨_, hsome⟩ | ⟨-, rfl⟩
  · cases hwritten.symm.trans hsome
  · exact isFramePointer_stackPointer _

/-! ## The depth -/

theorem depth_setOperand (o : Operand) (c : Constant) (t : State) :
    (setOperand o c t).depth = t.depth := by
  cases o <;> rfl

theorem depth_foldInto (op : BinaryOp) (dst src : Operand) (t : State) :
    (foldInto op dst src t).depth = t.depth := by
  cases dst <;> rfl

theorem depth_arithmetic (p : Progress) (op : BinaryOp) (dst src : Operand) :
    (p.arithmetic op [dst, src]).state.depth = wrap32 (p.state.depth + growthOf op dst src) := by
  change wrap32 ((foldInto op dst src p.state).depth + _) = _
  rw [depth_foldInto]

theorem growthOf_eq_zero {dst : Operand} (h : ∀ r, dst = .register r → isStackPointer r = false)
    (op : BinaryOp) (src : Operand) : growthOf op dst src = 0 := by
  unfold growthOf
  split
  · next r value _ => rw [h r rfl, if_neg (by decide)]
  · rfl

/-- The depth stays the same, in its 32 bits, where no statement assigns a register in the domain of
the stack pointer. -/
theorem depth_execute (hs : s.statements? i = some statements) (hcall : i.operation ≠ .call)
    (hsp : ∀ r e, isStackPointer r = true → .assign (.register r) e ∉ statements) :
    (s.execute i p).1.state.depth ≡ p.state.depth [ZMOD modulus 32] := by
  rw [state_execute, perform]
  cases emits_of_statements? hs with
  | move hoperation hoperands =>
    rw [hoperation, hoperands]
    exact congrArg (· % (modulus 32 : Int)) (depth_setOperand _ _ _)
  | @arithmetic op dst src bits hoperation hoperands =>
    have hgrowth : growthOf op dst src = 0 := by
      refine growthOf_eq_zero (fun r hr => ?_) op src
      subst hr
      exact Bool.eq_false_iff.2 fun h => hsp r _ h List.mem_cons_self
    have hdepth : (p.arithmetic op [dst, src]).state.depth ≡ p.state.depth [ZMOD modulus 32] := by
      rw [depth_arithmetic, hgrowth, Int.add_zero]
      exact wrap32_modEq (Nat.le_refl _) _
    rcases hoperation with ⟨hoperation, rfl⟩ | ⟨hoperation, rfl⟩
    all_goals
      rw [hoperation, hoperands]
      exact hdepth
  | @logical op dst src bits hoperation hoperands =>
    rcases hoperation with ⟨hoperation, rfl⟩ | ⟨hoperation, rfl⟩
    all_goals
      rw [hoperation, hoperands]
      exact congrArg (· % (modulus 32 : Int)) (depth_foldInto _ dst src p.state)
  | zero hoperation hoperands =>
    rw [hoperation]
    simp only [Progress.zero, sameRegister?_eq_some.2 hoperands]
    rfl
  | push => exact absurd List.mem_cons_self (hsp _ _ (isStackPointer_stackPointer _))
  | @pop dst =>
    have hmove : moveStackPointer s.mode (s.slotBytes dst) ∈
        [.set (s.expr dst) (s.slotAccess dst), moveStackPointer s.mode (s.slotBytes dst)] :=
      List.mem_cons_of_mem _ (List.mem_singleton_self _)
    exact absurd hmove (hsp _ _ (isStackPointer_stackPointer _))
  | call hoperation => exact absurd hoperation hcall
  | compare hoperation | nop hoperation | jump hoperation | branch hoperation
  | ret _ hoperation =>
    obtain ⟨flags, hstate⟩ := s.state_perform_control (i := i) (by rw [hoperation]; decide) p
    rw [← perform, hstate]

/-! ## The frame pointer -/

theorem frameDepth_perform (s : Setting) (i : Instruction) (p : Progress) :
    (s.perform i p).1.frameDepth = p.frameDepth := by
  unfold perform
  cases i.operation with
  | move =>
    simp only [Progress.move]
    split <;> rfl
  | add | sub =>
    simp only [Progress.arithmetic]
    split <;> rfl
  | and | or =>
    simp only [Progress.logical]
    split <;> rfl
  | xor =>
    simp only [Progress.zero]
    split <;> rfl
  | push =>
    simp only [push]
    split <;> rfl
  | pop =>
    simp only [pop]
    split <;> rfl
  | call =>
    simp only [call]
    split <;> rfl
  | conditionalJump =>
    simp only [Progress.branch]
    split <;> rfl
  | compare | nop | jump | ret | addWithCarry | subWithBorrow | other => rfl

theorem frameDepth_execute_of_written?_eq_none (h : written? i = none) (p : Progress) :
    (s.execute i p).1.frameDepth = p.frameDepth := by
  unfold execute
  rw [h]
  exact frameDepth_perform s i p

theorem written?_call (hoperation : i.operation = .call) : written? i = none := by
  unfold written?
  rw [hoperation]

/-- Behind a write the frame pointer has the depth that it had, if the write does not touch it, or
that of the stack pointer of which it is a copy. -/
theorem follow_eq_some {dst : Operand} {src : Option Operand} {depth : Int}
    (h : (p.follow dst src).frameDepth = some depth) :
    (p.frameDepth = some depth ∧ ∀ r, dst = .register r → isFramePointer r = false) ∨
      ∃ r source, dst = .register r ∧ src = some (.register source) ∧ isFramePointer r = true ∧
        isStackPointer source = true ∧ depth = p.state.depth := by
  unfold Progress.follow at h
  split at h
  · next r =>
    split at h
    · next hframe =>
      split at h
      · next source =>
        dsimp only at h
        split at h
        · next hsource =>
          cases h
          exact .inr ⟨r, source, rfl, rfl, hframe, hsource, rfl⟩
        · cases h
      · cases h
    · next hframe =>
      refine .inl ⟨h, ?_⟩
      rintro _ ⟨⟩
      exact Bool.eq_false_iff.2 hframe
  · next hdst => exact .inl ⟨h, fun r hr => absurd hr (hdst r)⟩

/-- Only a move copies an operand to where it writes. -/
theorem written?_eq_some_some {dst src : Operand} (h : written? i = some (dst, some src)) :
    i.operation = .move ∧ ∃ rest, i.operands = dst :: src :: rest := by
  unfold written? at h
  split at h
  · next rest hoperation hoperands =>
    obtain ⟨rfl, hsrc⟩ := Prod.mk.inj (Option.some.inj h)
    obtain ⟨rest, rfl⟩ := List.head?_eq_some_iff.1 hsrc
    exact ⟨hoperation, rest, hoperands⟩
  all_goals cases h

/-- Behind an instruction the frame pointer has the depth that it had, and then no statement assigns
a register in its domain, or that of the stack pointer from which it was moved. -/
theorem frameDepth_execute (hs : s.statements? i = some statements) (hcall : i.operation ≠ .call)
    {depth : Int} (h : (s.execute i p).1.frameDepth = some depth) :
    (p.frameDepth = some depth ∧
        ∀ r e, isFramePointer r = true → .assign (.register r) e ∉ statements) ∨
      ∃ r source, i.operation = .move ∧ i.operands = [.register r, .register source] ∧
        isFramePointer r = true ∧ isStackPointer source = true ∧ depth = p.state.depth := by
  have hassigned : ∀ {r e}, isFramePointer r = true → .assign (.register r) e ∈ statements →
      ∃ src, written? i = some (.register r, src) := by
    intro r e hframe hassign
    rcases assigned hs hcall hassign with hwritten | ⟨-, rfl⟩
    · exact hwritten
    · cases hframe.symm.trans (isFramePointer_stackPointer _)
  cases hwritten : written? i with
  | none =>
    rw [frameDepth_execute_of_written?_eq_none hwritten] at h
    refine .inl ⟨h, fun r e hframe hassign => ?_⟩
    obtain ⟨src, hsrc⟩ := hassigned hframe hassign
    cases hwritten.symm.trans hsrc
  | some written =>
    obtain ⟨dst, src⟩ := written
    unfold execute at h
    simp only [hwritten] at h
    rcases follow_eq_some h with ⟨hdepth, hkeeps⟩ | ⟨r, source, rfl, rfl, hframe, hsource, hdepth⟩
    · refine .inl ⟨(frameDepth_perform s i p).symm.trans hdepth, fun r e hframe hassign => ?_⟩
      obtain ⟨src', hsrc⟩ := hassigned hframe hassign
      cases hwritten.symm.trans hsrc
      cases hframe.symm.trans (hkeeps r rfl)
    · obtain ⟨hoperation, rest, hoperands⟩ := written?_eq_some_some hwritten
      -- The depth is noted behind the move, which has not changed it.
      have hstate : (s.perform i p).1.state.depth = p.state.depth := by
        rw [perform, hoperation, hoperands]
        cases rest with
        | nil => exact depth_setOperand _ _ _
        | cons => rfl
      cases emits_of_statements? hs with
      | move _ hoperands' =>
        cases hoperands.symm.trans hoperands'
        exact .inr ⟨r, source, hoperation, hoperands, hframe, hsource, hdepth.trans hstate⟩
      | arithmetic h => rcases h with ⟨h, -⟩ | ⟨h, -⟩ <;> cases hoperation.symm.trans h
      | logical h => rcases h with ⟨h, -⟩ | ⟨h, -⟩ <;> cases hoperation.symm.trans h
      | zero h | push h | pop h | compare h | nop h | jump h | branch h | ret _ h =>
        cases hoperation.symm.trans h
      | call h => exact absurd h hcall

/-! ## Moves of the stack pointer -/

/-- The instruction moves the stack pointer by a distance: it is a push, a pop that does not fill
the stack pointer, or adds or subtracts an immediate value of the width of the stack pointer, as
whatever is decoded does (`movesStack_of_encodes`). -/
inductive MovesStack (s : Setting) (i : Instruction) : Prop
  | push (hoperation : i.operation = .push)
  | pop (hoperation : i.operation = .pop)
      (hother : ∀ r, i.operands = [.register r] → isStackPointer r = false)
  | arithmetic (value : Int) (hoperation : i.operation = .add ∨ i.operation = .sub)
      (hoperands : i.operands =
        [.register (stackPointer s.mode.bits), .immediate value s.mode.bits])

/-- Bytes spell an immediate value in the width of the register that it is added to or subtracted
from. -/
theorem movesStack_of_encodes (h : s.mode.Encodes i)
    (hoperation : i.operation = .add ∨ i.operation = .sub) {value : Int} {bits : Nat}
    (hoperands : i.operands = [.register (stackPointer s.mode.bits), .immediate value bits]) :
    s.MovesStack i := by
  obtain ⟨bytes, hdecode⟩ := h
  obtain ⟨-, -, -, body, hformed, hplace⟩ := decode_eq_ok hdecode
  rw [hplace] at hoperation hoperands
  cases hformed with
  | @alu op bits' dst src hbits hdst hsrc =>
    obtain ⟨rfl, rfl⟩ : dst = .register (stackPointer s.mode.bits) ∧
        src = .immediate value bits := by simpa [Body.place, Body.sequential] using hoperands
    have hwidth : s.mode.bits = bits' := by
      rw [← s.mode.bits_stackPointer]
      exact Option.some.inj (bits_of_admits_general hbits hdst)
    rcases hsrc with hadmits | ⟨_, ⟨⟩⟩
    · exact hadmits.elim
    · subst hwidth
      rw [hplace]
      exact .arithmetic value hoperation hoperands
  | relative transfer =>
    cases transfer <;> rcases hoperation with h | h <;> cases h
  | _ => rcases hoperation with h | h <;> cases h

/-- From one state to the other the stack pointer moves by a distance, as far as its value is known,
and the depth with it. -/
structure Shifts (mode : Mode) (distance : Int) (t t' : State) : Prop where
  known : ∀ v, t.register (stackPointer mode.bits) = .ofInt mode.bits v →
    t'.register (stackPointer mode.bits) = .ofInt mode.bits (v + distance)
  unknown : t.register (stackPointer mode.bits) = .unknown →
    t'.register (stackPointer mode.bits) = .unknown
  depth : t'.depth ≡ t.depth - distance [ZMOD modulus 32]

theorem Shifts.of_displace {mode : Mode} {distance : Int} {t t' : State}
    (hregister : t'.register (stackPointer mode.bits) =
      (t.register (stackPointer mode.bits)).displace distance)
    (hdepth : t'.depth = wrap32 (t.depth - distance)) : Shifts mode distance t t' where
  known := by
    have hbits : mode.bits ≤ 128 := Nat.le_trans mode.bits_le (by decide)
    intro v hv
    rw [hregister, hv, Constant.displace_ofInt hbits]
  unknown := by
    intro hunknown
    rw [hregister, hunknown]
    rfl
  depth := by
    rw [hdepth]
    exact wrap32_modEq (Nat.le_refl _) _

/-- A stack pointer that is as far below that at entry as the depth says stays so. -/
theorem Shifts.stack {mode : Mode} {distance entry : Int} {t t' : State}
    (h : Shifts mode distance t t')
    (hstack : t.register (stackPointer mode.bits) = .ofInt mode.bits (entry - t.depth)) :
    t'.register (stackPointer mode.bits) = .ofInt mode.bits (entry - t'.depth) := by
  have hdistance : entry - t.depth + distance = entry - (t.depth - distance) := by omega
  rw [h.known _ hstack, ofInt_sub_congr mode entry h.depth, hdistance]

theorem shifts_push (hoperation : i.operation = .push) {src : Operand}
    (hoperands : i.operands = [src]) (p : Progress) :
    Shifts s.mode (-s.slotBytes src) p.state (s.execute i p).1.state := by
  rw [state_execute_push hoperation hoperands]
  refine .of_displace (register_shiftStackPointer s.mode _ _) ?_
  rw [depth_push, sub_neg_eq_add]

theorem shifts_pop (hoperation : i.operation = .pop) {dst : Operand}
    (hoperands : i.operands = [dst]) (hdst : dst ≠ .register (stackPointer s.mode.bits))
    (p : Progress) : Shifts s.mode (s.slotBytes dst) p.state (s.execute i p).1.state := by
  rw [state_execute_pop hoperation hoperands]
  refine .of_displace ?_ (depth_pop s p dst)
  exact (register_setOperand hdst _ _).trans (register_shiftStackPointer s.mode _ _)

/-- An immediate value that is added to the stack pointer or subtracted from it moves it. -/
theorem shifts_arithmetic {op : BinaryOp} (hop : op = .add ∨ op = .sub) {value : Int}
    {dst src : Operand} (hdst : dst = .register (stackPointer s.mode.bits))
    (hsrc : src = .immediate value s.mode.bits) (p : Progress) :
    Shifts s.mode (-growthOf op dst src) p.state (p.arithmetic op [dst, src]).state := by
  subst hdst hsrc
  have hbits : s.mode.bits ≤ 64 := Nat.le_trans s.mode.bits_le (by decide)
  have hregister : (p.arithmetic op [.register (stackPointer s.mode.bits),
        .immediate value s.mode.bits]).state.register (stackPointer s.mode.bits) =
      op.fold (p.state.register (stackPointer s.mode.bits)) (.ofInt s.mode.bits value)
        (stackPointer s.mode.bits).bits := Store.get_set_self _ _ _
  rw [s.mode.bits_stackPointer] at hregister
  refine ⟨fun v hv => ?_, fun hv => ?_, ?_⟩
  · rw [hregister, hv]
    simp only [growthOf, isStackPointer_stackPointer, if_true]
    rcases hop with rfl | rfl
    · rw [Constant.fold_add_ofInt hbits, neg_neg]
    · rw [Constant.fold_sub_ofInt hbits, sub_eq_add_neg]
  · rw [hregister, hv]
    rfl
  · rw [depth_arithmetic, sub_neg_eq_add]
    exact wrap32_modEq (Nat.le_refl _) _

/-- Such an instruction moves stack pointer and depth by the same distance. -/
theorem MovesStack.shifts (h : s.MovesStack i) (hs : s.statements? i = some statements)
    (p : Progress) : ∃ distance, Shifts s.mode distance p.state (s.execute i p).1.state := by
  cases h with
  | push hoperation =>
    obtain ⟨src, hoperands⟩ := exists_operand (.inl hoperation) hs
    exact ⟨_, shifts_push hoperation hoperands p⟩
  | pop hoperation hother =>
    obtain ⟨dst, hoperands⟩ := exists_operand (.inr (.inl hoperation)) hs
    have hdst : dst ≠ .register (stackPointer s.mode.bits) := by
      rintro rfl
      cases (isStackPointer_stackPointer _).symm.trans (hother _ hoperands)
    exact ⟨_, shifts_pop hoperation hoperands hdst p⟩
  | arithmetic value hoperation hoperands =>
    rw [state_execute, perform, hoperands]
    rcases hoperation with hoperation | hoperation
    · rw [hoperation]
      exact ⟨_, shifts_arithmetic (.inl rfl) rfl rfl p⟩
    · rw [hoperation]
      exact ⟨_, shifts_arithmetic (.inr rfl) rfl rfl p⟩

/-- If the stack pointer is assigned by moves alone, it moves with the depth. -/
theorem shifts_execute (hs : s.statements? i = some statements) (hcall : i.operation ≠ .call)
    (hstack : ∀ r e, isStackPointer r = true → .assign (.register r) e ∈ statements →
      s.MovesStack i) (p : Progress) :
    ∃ distance, Shifts s.mode distance p.state (s.execute i p).1.state := by
  by_cases hmoves : s.MovesStack i
  · exact hmoves.shifts hs p
  · have hkept : ∀ r e, isStackPointer r = true → .assign (.register r) e ∉ statements :=
      fun r e hr hassign => hmoves (hstack r e hr hassign)
    have hregister : (s.execute i p).1.state.register (stackPointer s.mode.bits) =
        p.state.register (stackPointer s.mode.bits) :=
      register_execute hs hcall fun e => hkept _ e (isStackPointer_stackPointer _)
    refine ⟨0, fun v hv => ?_, fun hv => ?_, ?_⟩
    · rw [hregister, hv, Int.add_zero]
    · rw [hregister, hv]
    · rw [Int.sub_zero]
      exact depth_execute hs hcall hkept

end Setting

/-! ## Register copies -/

theorem state_copy (p : Progress) (src dst : Register) :
    (p.copy src dst).state = p.state.setRegister dst (p.state.register src) := by
  rw [Progress.copy, Progress.state_follow]
  rfl

theorem register_copy_self (p : Progress) (src dst : Register) :
    (p.copy src dst).state.register dst = p.state.register src := by
  rw [state_copy]
  exact Store.get_set_self _ _ _

theorem register_copy_of_ne (p : Progress) (src : Register) {dst r : Register} (h : r ≠ dst) :
    (p.copy src dst).state.register r = p.state.register r := by
  rw [state_copy]
  exact Store.get_set_of_ne _ _ h

/-- No piece changes what processor the state is of. -/
theorem Setting.processor_pass {s : Setting} {piece : Piece} (p : Progress)
    (hlifted : s.IsPiece piece) :
    (s.pass p piece).state.processor = p.state.processor := by
  cases piece with
  | undecodable => rfl
  | unsupported i => exact (p.moved_arrive i).processor
  | lifted i statements =>
    exact (processor_execute (hlifted i statements rfl) _).trans (p.moved_arrive i).processor
  | copied push pop src dst =>
    change ((p.arrive push).copy src dst).state.processor = p.state.processor
    rw [state_copy]
    exact (p.moved_arrive push).processor

/-- Behind a register copy the frame pointer has the depth that it had, if the copy does not touch
it, or that of the stack pointer of which it is a copy. -/
theorem frameDepth_copy {p : Progress} {src dst : Register} {depth : Int}
    (h : (p.copy src dst).frameDepth = some depth) :
    (p.frameDepth = some depth ∧ isFramePointer dst = false) ∨
      isFramePointer dst = true ∧ isStackPointer src = true ∧ depth = p.state.depth := by
  rcases Setting.follow_eq_some h with ⟨hdepth, hkeeps⟩ | ⟨_, _, ⟨⟩, ⟨⟩, hframe, hsource, hdepth⟩
  · exact .inl ⟨hdepth, hkeeps dst rfl⟩
  · exact .inr ⟨hframe, hsource, hdepth⟩

end CodeLift.X86
