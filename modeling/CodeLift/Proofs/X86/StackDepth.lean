-- SUMMARY: When the depth of the stack says where the stack pointer is.
import CodeLift.Proofs.X86.StackPointer

/-!
# The depth and the stack pointer

The depth and the value of the stack pointer tell the same thing twice: the stack pointer
is below that at entry by the depth. Pushes, pops and immediate arithmetic move both
(`Setting.shifts_execute`). Two instructions change only one of them. Moving the frame
pointer back to the stack pointer changes the value and leaves the depth. A call of a
procedure that takes arguments off the stack lowers the depth and leaves the value.

So the two stay together along a run exactly if each such instruction happens to find them
together: the frame pointer is moved back at the depth at which it was loaded, and no
argument is taken off (`Setting.in_step_iff`).
-/

namespace CodeLift.X86

/-! ## Runs that restore the stack pointer -/

namespace Setting

/-- The instruction loads the frame pointer from the stack pointer. -/
def Loads (s : Setting) (i : Instruction) : Prop :=
  i.operation = .move ∧
    i.operands = [.register (framePointer s.mode.bits), .register (stackPointer s.mode.bits)]

/-- The instruction moves the frame pointer back to the stack pointer. -/
def Restores (s : Setting) (i : Instruction) : Prop :=
  i.operation = .move ∧
    i.operands = [.register (stackPointer s.mode.bits), .register (framePointer s.mode.bits)]

/-- The domain of the stack pointer is assigned by pushes, pops into other registers, immediate
arithmetic, and by moving the frame pointer back while it is held. -/
def Permits (s : Setting) (held : Option Int) (piece : Piece) : Prop :=
  ∀ r e, isStackPointer r = true → .assign (.register r) e ∈ piece.cluster.statements →
    ∃ i statements, piece = .lifted i statements ∧
      (s.MovesStack i ∨ s.Restores i ∧ held.isSome = true)

/-- Behind a piece the frame pointer is held from the depth at which the piece has loaded it, from
that at which it was held before if the piece does not assign it, or not at all. -/
inductive Holds (s : Setting) (piece : Piece) (depth : Int) (held : Option Int) :
    Option Int → Prop
  | loaded {i : Instruction} {statements : List Stmt} (hpiece : piece = .lifted i statements)
      (hloads : s.Loads i) : Holds s piece depth held (some depth)
  | kept (hkept : ∀ r e, isFramePointer r = true →
      .assign (.register r) e ∉ piece.cluster.statements) : Holds s piece depth held held
  | lost : Holds s piece depth held none

/-- The run is reached along permitted pieces, with the depth from which the frame pointer is held
there. -/
inductive Reaches (s : Setting) (start : Run) : Option Int → Run → Prop
  | start : Reaches s start none start
  | step {held held' : Option Int} {r r' : Run} {piece : Piece} {outcome : Outcome}
      (hreaches : Reaches s start held r) (hpiece : s.piece? r = some piece)
      (hpermits : s.Permits held piece)
      (hholds : s.Holds piece r.progress.state.depth held held')
      (hnext : s.next? r = some (outcome, r')) : Reaches s start held' r'

end Setting

/-- If the stack pointer is known, it is below that at entry by the depth. -/
def InStep (mode : Mode) (entry : Int) (p : Progress) : Prop :=
  ∀ bits v, p.state.register (stackPointer mode.bits) = .known bits v →
    entry - v ≡ p.state.depth [ZMOD modulus mode.bits]

/-- Where the frame pointer is moved back with a known value, the depth is that at which it was
loaded, and what is called with a known stack pointer takes no arguments off the stack. -/
structure Setting.Balanced (s : Setting) (held : Option Int) (p : Progress) (piece : Piece) :
    Prop where
  restore : ∀ i statements depth, piece = .lifted i statements → s.Restores i →
    held = some depth → p.state.register (framePointer s.mode.bits) ≠ .unknown →
      depth ≡ p.state.depth [ZMOD modulus s.mode.bits]
  call : ∀ i statements target signature, piece = .lifted i statements → i.operation = .call →
    i.operands = [target] → s.calleeSignature? target = some signature →
      p.state.register (stackPointer s.mode.bits) ≠ .unknown →
        stackPointer s.mode.bits ∉ signature.trashed ++ signature.result.toList →
          signature.extraBytes s.returnSize ≡ 0 [ZMOD modulus s.mode.bits]

/-! ## Values -/

/-- As far as it is known, the register has the value. -/
def MayHold (t : State) (mode : Mode) (r : Register) (v : Int) : Prop :=
  t.register r = .unknown ∨ t.register r = .ofInt mode.bits v

section

variable {mode : Mode} {entry v : Int} {p : Progress}

theorem MayHold.of_eq {t t' : State} {r : Register} (h : MayHold t mode r v)
    (heq : t'.register r = t.register r) : MayHold t' mode r v := by
  unfold MayHold
  rw [heq]
  exact h

theorem Setting.Shifts.mayHold {distance : Int} {t t' : State}
    (h : Setting.Shifts mode distance t t')
    (hstack : MayHold t mode (stackPointer mode.bits) (entry - t.depth)) :
    MayHold t' mode (stackPointer mode.bits) (entry - t'.depth) :=
  hstack.imp h.unknown h.stack

/-- A stack pointer is in step if its value is as far below that at entry as the depth says. -/
theorem inStep_iff (h : MayHold p.state mode (stackPointer mode.bits) v) :
    InStep mode entry p ↔ (p.state.register (stackPointer mode.bits) ≠ .unknown →
      entry - v ≡ p.state.depth [ZMOD modulus mode.bits]) := by
  obtain ⟨c, hofInt, hvalue⟩ := ofInt_mode mode v
  unfold InStep
  rcases h with hunknown | hknown
  · simp [hunknown]
  · rw [hknown, hofInt]
    constructor
    · intro hstep _
      exact (hvalue.sub_left entry).symm.trans (hstep _ _ rfl)
    · rintro hdepth _ _ ⟨⟩
      exact (hvalue.sub_left entry).trans (hdepth nofun)

theorem inStep_of_stack
    (h : MayHold p.state mode (stackPointer mode.bits) (entry - p.state.depth)) :
    InStep mode entry p := by
  refine (inStep_iff h).2 fun _ => ?_
  rw [Int.sub_sub_self]

theorem MayHold.of_inStep (h : MayHold p.state mode (stackPointer mode.bits) v)
    (hstep : InStep mode entry p) :
    MayHold p.state mode (stackPointer mode.bits) (entry - p.state.depth) := by
  have hbits := mode.bits_le
  by_cases hunknown : p.state.register (stackPointer mode.bits) = .unknown
  · exact .inl hunknown
  · have hdepth := (inStep_iff h).1 hstep hunknown
    have hv : v ≡ entry - p.state.depth [ZMOD modulus mode.bits] := by
      have hsub := hdepth.sub_left entry
      rwa [Int.sub_sub_self] at hsub
    rcases h with h | h
    · exact .inl h
    · exact .inr (h.trans (Constant.ofInt_congr (by omega) hv))

end

/-! ## The invariant -/

/-- As far as they are known, the stack pointer is below that at entry by the depth, and the frame
pointer by the depth from which it is held. -/
structure Accounts (mode : Mode) (entry : Int) (held : Option Int) (p : Progress) : Prop where
  processor : p.state.processor = processor mode
  stack : MayHold p.state mode (stackPointer mode.bits) (entry - p.state.depth)
  frame : ∀ depth, held = some depth →
    MayHold p.state mode (framePointer mode.bits) (entry - depth)

section

variable {s : Setting} {entry : Int} {held held' : Option Int} {p : Progress} {piece : Piece}
  {i : Instruction} {statements : List Stmt}

theorem Progress.Enters.accounts (h : p.Enters s.mode entry) :
    Accounts s.mode entry none p := by
  refine ⟨h.processor, .inr ?_, nofun⟩
  rw [h.stack, h.depth, Int.sub_zero]

theorem Accounts.arrive {mode : Mode} (h : Accounts mode entry held p) (i : Instruction) :
    Accounts mode entry held (p.arrive i) := by
  have hmoved := p.moved_arrive i
  refine ⟨hmoved.processor.trans h.processor, ?_, fun depth hdepth => ?_⟩
  · rw [hmoved.depth]
    exact h.stack.of_eq (register_arrive h.processor (stackPointer_ne_cs _) i)
  · exact (h.frame depth hdepth).of_eq (register_arrive h.processor (framePointer_ne_cs _) i)

/-! ## The stack pointer behind a piece -/

/-- Pieces that neither move the frame pointer back nor call anything are balanced. -/
theorem Setting.balanced_of_not (hrestores : ∀ i statements, piece = .lifted i statements →
      ¬ s.Restores i)
    (hcall : ∀ i statements, piece = .lifted i statements → i.operation ≠ .call) :
    s.Balanced held p piece where
  restore i statements _ hpiece h := absurd h (hrestores i statements hpiece)
  call i statements _ _ hpiece h := absurd h (hcall i statements hpiece)

theorem Setting.balanced_of_ne_lifted (h : ∀ i statements, piece ≠ .lifted i statements) :
    s.Balanced held p piece :=
  balanced_of_not (fun i statements hpiece => absurd hpiece (h i statements))
    fun i statements hpiece => absurd hpiece (h i statements)

/-- Arriving at an instruction does not change whether a piece is balanced. -/
theorem Accounts.balanced_arrive (h : Accounts s.mode entry held p) (i : Instruction) :
    s.Balanced held (p.arrive i) piece ↔ s.Balanced held p piece := by
  have hsp := register_arrive h.processor (stackPointer_ne_cs s.mode.bits) i
  have hfp := register_arrive h.processor (framePointer_ne_cs s.mode.bits) i
  have hdepth := (p.moved_arrive i).depth
  constructor
  · rintro ⟨hrestore, hcall⟩
    rw [hfp, hdepth] at hrestore
    rw [hsp] at hcall
    exact ⟨hrestore, hcall⟩
  · rintro ⟨hrestore, hcall⟩
    rw [← hfp, ← hdepth] at hrestore
    rw [← hsp] at hcall
    exact ⟨hrestore, hcall⟩

/-- The frame pointer is moved back only while it is held. -/
theorem Setting.Permits.held_of_restores (hpermits : s.Permits held (.lifted i statements))
    (hs : s.statements? i = some statements) (hrestores : s.Restores i) :
    ∃ depth, held = some depth := by
  obtain ⟨hoperation, hoperands⟩ := hrestores
  rw [Setting.statements?, hoperation, hoperands] at hs
  cases hs
  obtain ⟨_, _, ⟨⟩, hmoves | ⟨-, hheld⟩⟩ :=
    hpermits _ _ (isStackPointer_stackPointer _) (List.mem_singleton_self _)
  · rcases hmoves with h | ⟨h, -⟩ | ⟨-, h | h, -⟩ <;> cases hoperation.symm.trans h
  · exact Option.isSome_iff_exists.1 hheld

/-- A call is balanced if what is called with a stack pointer that stays known takes no arguments
off the stack. -/
theorem Setting.balanced_call_iff (hcall : i.operation = .call) {target : Operand}
    (hoperands : i.operands = [target]) :
    s.Balanced held p (.lifted i statements) ↔
      ∀ signature, s.calleeSignature? target = some signature →
        p.state.register (stackPointer s.mode.bits) ≠ .unknown →
          stackPointer s.mode.bits ∉ signature.trashed ++ signature.result.toList →
            signature.extraBytes s.returnSize ≡ 0 [ZMOD modulus s.mode.bits] := by
  constructor
  · intro h signature
    exact h.call i statements target signature rfl hcall hoperands
  · intro h
    refine ⟨?_, ?_⟩
    · rintro _ _ _ ⟨⟩ hrestores
      cases hcall.symm.trans hrestores.1
    · rintro _ _ target' signature ⟨⟩ - hoperands'
      cases hoperands.symm.trans hoperands'
      exact h signature

/-- Moving a frame pointer back is balanced if a known one is at the depth from which it is held. -/
theorem Setting.balanced_restore_iff {depth : Int} (hrestores : s.Restores i) :
    s.Balanced (some depth) p (.lifted i statements) ↔
      (p.state.register (framePointer s.mode.bits) ≠ .unknown →
        depth ≡ p.state.depth [ZMOD modulus s.mode.bits]) := by
  constructor
  · intro h
    exact h.restore i statements depth rfl hrestores rfl
  · intro h
    refine ⟨?_, ?_⟩
    · rintro _ _ _ ⟨⟩ - ⟨⟩
      exact h
    · rintro _ _ _ _ ⟨⟩ hcall
      cases hcall.symm.trans hrestores.1

/-- A call keeps the stack pointer or forgets it, and takes the arguments off the depth alone. -/
theorem Accounts.inStep_call (h : Accounts s.mode entry held p)
    (hs : s.statements? i = some statements) (hcall : i.operation = .call) :
    (∃ v, MayHold (s.execute i p).1.state s.mode (stackPointer s.mode.bits) v) ∧
      (InStep s.mode entry (s.execute i p).1 ↔ s.Balanced held p (.lifted i statements)) := by
  obtain ⟨target, hoperands⟩ := Setting.exists_operand (.inr (.inr hcall)) hs
  rw [Setting.balanced_call_iff hcall hoperands]
  cases hsignature : s.calleeSignature? target with
  | none =>
    have hstate : (s.execute i p).1.state = p.state.clear := by
      rw [Setting.state_execute_call hcall hoperands, hsignature]
      rfl
    have hstack : MayHold (s.execute i p).1.state s.mode (stackPointer s.mode.bits)
        (entry - (s.execute i p).1.state.depth) := by
      rw [hstate, Setting.depth_clear]
      exact h.stack.of_eq (Setting.register_clear _ _)
    exact ⟨⟨_, hstack⟩, iff_of_true (inStep_of_stack hstack) nofun⟩
  | some signature =>
    have hstate : (s.execute i p).1.state =
        (p.state.applyCall (p.state.callSite s.returnSize) signature).clear := by
      rw [Setting.state_execute_call hcall hoperands, hsignature]
      rfl
    have hdepth : (s.execute i p).1.state.depth =
        wrap32 (p.state.depth - signature.extraBytes s.returnSize) := by
      rw [hstate, Setting.depth_clear]
      rfl
    have hregister := Setting.register_applyCall p.state (p.state.callSite s.returnSize) signature
      (stackPointer s.mode.bits)
    rw [← Setting.register_clear, ← hstate] at hregister
    by_cases hlost : stackPointer s.mode.bits ∈ signature.trashed ++ signature.result.toList
    · rw [if_pos hlost] at hregister
      have hstack : MayHold (s.execute i p).1.state s.mode (stackPointer s.mode.bits) 0 :=
        .inl hregister
      refine ⟨⟨0, hstack⟩, iff_of_true ((inStep_iff hstack).2 (absurd hregister)) ?_⟩
      rintro _ ⟨⟩ - hkept
      exact absurd hlost hkept
    · rw [if_neg hlost] at hregister
      have hstack := h.stack.of_eq hregister
      refine ⟨⟨_, hstack⟩, ?_⟩
      rw [inStep_iff hstack, hregister, Int.sub_sub_self, hdepth,
        modEq_wrap32_sub_iff s.mode.bits_le]
      constructor
      · rintro hbalanced _ ⟨⟩ hknown -
        exact hbalanced hknown
      · intro hbalanced hknown
        exact hbalanced signature rfl hknown hlost

/-- Moving the frame pointer back takes the value from which it is held, and leaves the depth. -/
theorem Accounts.inStep_restore (h : Accounts s.mode entry held p)
    (hpermits : s.Permits held (.lifted i statements)) (hs : s.statements? i = some statements)
    (hrestores : s.Restores i) :
    (∃ v, MayHold (s.execute i p).1.state s.mode (stackPointer s.mode.bits) v) ∧
      (InStep s.mode entry (s.execute i p).1 ↔ s.Balanced held p (.lifted i statements)) := by
  obtain ⟨depth, rfl⟩ := hpermits.held_of_restores hs hrestores
  have hstate : (s.execute i p).1.state = p.state.setRegister (stackPointer s.mode.bits)
      (p.state.register (framePointer s.mode.bits)) := by
    rw [Setting.state_execute, Setting.perform, hrestores.1, hrestores.2]
    rfl
  have hregister : (s.execute i p).1.state.register (stackPointer s.mode.bits) =
      p.state.register (framePointer s.mode.bits) := by
    rw [hstate]
    exact Store.get_set_self _ _ _
  have hstack : MayHold (s.execute i p).1.state s.mode (stackPointer s.mode.bits)
      (entry - depth) := by
    unfold MayHold
    rw [hregister]
    exact h.frame depth rfl
  refine ⟨⟨_, hstack⟩, ?_⟩
  rw [inStep_iff hstack, hregister, Int.sub_sub_self, hstate,
    Setting.balanced_restore_iff hrestores]
  rfl

/-- Behind a permitted piece the stack pointer has a value, as far as it is known, and that is in
step exactly if the piece is balanced. -/
theorem Accounts.inStep_pass (h : Accounts s.mode entry held p) (hpermits : s.Permits held piece)
    (hlifted : s.IsPiece piece) :
    (∃ v, MayHold (s.pass p piece).state s.mode (stackPointer s.mode.bits) v) ∧
      (InStep s.mode entry (s.pass p piece) ↔ s.Balanced held p piece) := by
  -- All pieces but calls and restoring moves keep the two in step, and are balanced.
  have htame : ∀ {q : Progress},
      MayHold q.state s.mode (stackPointer s.mode.bits) (entry - q.state.depth) →
        s.Balanced held p piece →
          (∃ v, MayHold q.state s.mode (stackPointer s.mode.bits) v) ∧
            (InStep s.mode entry q ↔ s.Balanced held p piece) :=
    fun hstack hbalanced => ⟨⟨_, hstack⟩, iff_of_true (inStep_of_stack hstack) hbalanced⟩
  cases piece with
  | undecodable => exact htame h.stack (Setting.balanced_of_ne_lifted (by simp))
  | unsupported i => exact htame (h.arrive i).stack (Setting.balanced_of_ne_lifted (by simp))
  | copied push pop src dst =>
    have hdst : isStackPointer dst = false := by
      refine Bool.eq_false_iff.2 fun hdst => ?_
      obtain ⟨_, _, ⟨⟩, _⟩ := hpermits dst _ hdst (List.mem_singleton_self _)
    refine htame (q := (p.arrive push).copy src dst) ?_
      (Setting.balanced_of_ne_lifted (by simp))
    rw [state_copy]
    exact (h.arrive push).stack.of_eq
      (Store.get_set_of_ne _ _ (ne_stackPointer_of_isStackPointer hdst _).symm)
  | lifted i statements =>
    have hs := hlifted i statements rfl
    by_cases hcall : i.operation = .call
    · rw [← h.balanced_arrive i]
      exact (h.arrive i).inStep_call hs hcall
    by_cases hrestores : s.Restores i
    · rw [← h.balanced_arrive i]
      exact (h.arrive i).inStep_restore hpermits hs hrestores
    · have hmoves : ∀ r e, isStackPointer r = true → .assign (.register r) e ∈ statements →
          s.MovesStack i := by
        intro r e hr hassign
        obtain ⟨_, _, ⟨⟩, hmoves | ⟨hrestores', -⟩⟩ := hpermits r e hr hassign
        · exact hmoves
        · exact absurd hrestores' hrestores
      obtain ⟨distance, hshifts⟩ := Setting.shifts_execute hs hcall hmoves (p.arrive i)
      refine htame (hshifts.mayHold (h.arrive i).stack) (Setting.balanced_of_not ?_ ?_)
      · rintro _ _ ⟨⟩
        exact hrestores
      · rintro _ _ ⟨⟩
        exact hcall

/-! ## The frame pointer behind a piece -/

/-- A register that a piece does not assign keeps its value or, in a call, loses it. -/
theorem register_pass {r : Register} (hprocessor : p.state.processor = processor s.mode)
    (hr : r ≠ cs)
    (hlifted : s.IsPiece piece)
    (hkept : ∀ e, .assign (.register r) e ∉ piece.cluster.statements) :
    (s.pass p piece).state.register r = .unknown ∨
      (s.pass p piece).state.register r = p.state.register r := by
  cases piece with
  | undecodable => exact .inr rfl
  | unsupported i => exact .inr (register_arrive hprocessor hr i)
  | copied push pop src dst =>
    have hne : r ≠ dst := by
      rintro rfl
      exact hkept _ (List.mem_singleton_self _)
    exact .inr ((register_copy_of_ne _ src hne).trans (register_arrive hprocessor hr push))
  | lifted i statements =>
    have hs := hlifted i statements rfl
    by_cases hcall : i.operation = .call
    · obtain ⟨target, hoperands⟩ := Setting.exists_operand (.inr (.inr hcall)) hs
      have hafter := Setting.register_afterCall (p.arrive i).state
        ((p.arrive i).state.callSite s.returnSize) (s.calleeSignature? target) r
      rw [← Setting.state_execute_call hcall hoperands] at hafter
      exact hafter.imp_right fun hsame => hsame.trans (register_arrive hprocessor hr i)
    · exact .inr ((Setting.register_execute hs hcall hkept).trans
        (register_arrive hprocessor hr i))

/-- Behind a piece the frame pointer has the value from which it is held there, or a call has lost
it. -/
theorem Accounts.frame_pass (h : Accounts s.mode entry held p)
    (hlifted : s.IsPiece piece)
    (hholds : s.Holds piece p.state.depth held held') {depth : Int} (hheld : held' = some depth) :
    MayHold (s.pass p piece).state s.mode (framePointer s.mode.bits) (entry - depth) := by
  cases hholds with
  | lost => cases hheld
  | kept hkept =>
    rcases register_pass h.processor (framePointer_ne_cs _) hlifted
      (fun e => hkept _ e (isFramePointer_framePointer _)) with hunknown | hsame
    · exact .inl hunknown
    · exact (h.frame depth hheld).of_eq hsame
  | @loaded i statements hpiece hloads =>
    cases hheld
    subst hpiece
    have hregister : (s.pass p (.lifted i statements)).state.register (framePointer s.mode.bits) =
        p.state.register (stackPointer s.mode.bits) := by
      change (s.execute i (p.arrive i)).1.state.register _ = _
      rw [Setting.state_execute, Setting.perform, hloads.1, hloads.2]
      exact (Store.get_set_self _ _ _).trans
        (register_arrive h.processor (stackPointer_ne_cs _) i)
    unfold MayHold
    rw [hregister]
    exact h.stack

/-! ## Runs -/

/-- The invariant is kept behind a permitted piece that leaves the two in step. -/
theorem Accounts.pass (h : Accounts s.mode entry held p) (hpermits : s.Permits held piece)
    (hlifted : s.IsPiece piece)
    (hholds : s.Holds piece p.state.depth held held')
    (hstep : InStep s.mode entry (s.pass p piece)) :
    Accounts s.mode entry held' (s.pass p piece) := by
  obtain ⟨⟨_, hvalue⟩, -⟩ := h.inStep_pass hpermits hlifted
  exact ⟨(Setting.processor_pass p hlifted).trans h.processor, hvalue.of_inStep hstep,
    fun _ => h.frame_pass hlifted hholds⟩

end

namespace Setting

variable {s : Setting} {entry : Int} {held : Option Int} {p : Progress} {r : Run}

/-- The invariant holds along a run for as long as each step leaves the two in step. -/
theorem Reaches.accounts {feed : Feed} (henters : p.Enters s.mode entry)
    (hsteps : ∀ held r piece outcome r', s.Reaches (.start p feed) held r →
      Accounts s.mode entry held r.progress → s.piece? r = some piece → s.Permits held piece →
        s.next? r = some (outcome, r') → InStep s.mode entry r'.progress)
    (h : s.Reaches (.start p feed) held r) : Accounts s.mode entry held r.progress := by
  induction h with
  | start => exact henters.accounts
  | @step held held' r r' piece outcome hreaches hpiece hpermits hholds hnext ih =>
    have hstep := hsteps held r piece outcome r' hreaches ih hpiece hpermits hnext
    rw [progress_of_piece? hpiece hnext] at hstep ⊢
    exact ih.pass hpermits (isPiece_of_piece? hpiece) hholds hstep

/-- Along a run from an entry where the stack pointer is known, the depth and the stack pointer stay
in step exactly if every piece on the way is balanced. -/
theorem in_step_iff (henters : p.Enters s.mode entry) (feed : Feed) :
    (∀ held r, s.Reaches (.start p feed) held r → InStep s.mode entry r.progress) ↔
      ∀ held r piece outcome r', s.Reaches (.start p feed) held r → s.piece? r = some piece →
        s.Permits held piece → s.next? r = some (outcome, r') →
          s.Balanced held r.progress piece := by
  have hiff : ∀ {held r piece outcome r'}, Accounts s.mode entry held r.progress →
      s.piece? r = some piece → s.Permits held piece → s.next? r = some (outcome, r') →
        (InStep s.mode entry r'.progress ↔ s.Balanced held r.progress piece) := by
    intro held r piece outcome r' haccounts hpiece hpermits hnext
    rw [progress_of_piece? hpiece hnext]
    exact (haccounts.inStep_pass hpermits (isPiece_of_piece? hpiece)).2
  constructor
  · intro hall held r piece outcome r' hreaches hpiece hpermits hnext
    -- What is held can be forgotten, so every permitted step leads to a run that is reached.
    have hin : ∀ held r piece outcome r', s.Reaches (.start p feed) held r →
        s.piece? r = some piece → s.Permits held piece → s.next? r = some (outcome, r') →
          InStep s.mode entry r'.progress :=
      fun _ _ _ _ _ hreaches hpiece hpermits hnext =>
        hall _ _ (hreaches.step hpiece hpermits .lost hnext)
    have haccounts := hreaches.accounts henters
      fun held r piece outcome r' hreaches _ => hin held r piece outcome r' hreaches
    exact (hiff haccounts hpiece hpermits hnext).1
      (hin held r piece outcome r' hreaches hpiece hpermits hnext)
  · intro hbalanced held r hreaches
    refine inStep_of_stack (hreaches.accounts henters ?_).stack
    intro held r piece outcome r' hreaches haccounts hpiece hpermits hnext
    exact (hiff haccounts hpiece hpermits hnext).2
      (hbalanced held r piece outcome r' hreaches hpiece hpermits hnext)

/-- All along `mov ebp, esp` and `mov esp, ebp` the two are in step. -/
theorem in_step_iff_mov_ebp_esp :
    let s : Setting := ⟨.protected32, .silent⟩
    let load : Instruction := ⟨⟨.flat .w32, 0x1000, by decide⟩, [0x89, 0xE5], "mov", .move,
      [.register ebp, .register esp], .sequential⟩
    let restore : Instruction := ⟨⟨.flat .w32, 0x1002, by decide⟩, [0x89, 0xEC], "mov", .move,
      [.register esp, .register ebp], .sequential⟩
    let state := (State.initial (processor s.mode) none).setRegister esp (.ofInt 32 0x2000)
    let p : Progress := ⟨state, .empty 32, none⟩
    let feed : Feed := .items [.ok load, .ok restore]
    p.Enters s.mode 0x2000 ∧
      ∀ held r, s.Reaches (.start p feed) held r → InStep s.mode 0x2000 r.progress := by
  intro s load restore state p feed
  have henters : p.Enters s.mode 0x2000 := ⟨rfl, rfl, rfl, rfl⟩
  obtain ⟨r₁, r₂, loaded, restored, first, second, hload, hfirst, hrestore, hsecond, hend, hdepth⟩ :
      ∃ r₁ r₂ loaded restored first second,
        s.piece? (.start p feed) = some (.lifted load loaded) ∧
        s.next? (.start p feed) = some (first, r₁) ∧
        s.piece? r₁ = some (.lifted restore restored) ∧
        s.next? r₁ = some (second, r₂) ∧ s.next? r₂ = none ∧ r₁.progress.state.depth = 0 :=
    ⟨_, _, _, _, _, _, rfl, rfl, rfl, rfl, rfl, rfl⟩
  have hreached : ∀ held r, s.Reaches (.start p feed) held r →
      r = .start p feed ∧ held = none ∨ r = r₁ ∧ (∀ depth, held = some depth → depth = 0) ∨
        r = r₂ := by
    intro held r h
    induction h with
    | start => exact .inl ⟨rfl, rfl⟩
    | step _ _ _ hholds hnext ih =>
      rcases ih with ⟨rfl, rfl⟩ | ⟨rfl, -⟩ | rfl
      · cases hfirst.symm.trans hnext
        refine .inr (.inl ⟨rfl, ?_⟩)
        cases hholds with
        | loaded =>
          rintro _ ⟨⟩
          rfl
        | kept | lost => exact nofun
      · cases hsecond.symm.trans hnext
        exact .inr (.inr rfl)
      · cases hend.symm.trans hnext
  refine ⟨henters, (in_step_iff henters feed).2 ?_⟩
  intro held r piece outcome r' hreaches hpiece _ hnext
  rcases hreached held r hreaches with ⟨rfl, rfl⟩ | ⟨rfl, hheld⟩ | rfl
  · cases hload.symm.trans hpiece
    refine balanced_of_not ?_ ?_
    · rintro _ _ ⟨⟩ ⟨-, hoperands⟩
      exact absurd hoperands (by decide)
    · rintro _ _ ⟨⟩ ⟨⟩
  · cases hrestore.symm.trans hpiece
    refine ⟨?_, ?_⟩
    · rintro _ _ depth ⟨⟩ - hsome -
      rw [hheld depth hsome, hdepth]
    · rintro _ _ _ _ ⟨⟩ ⟨⟩
  · cases hend.symm.trans hnext

/-- A push keeps what the frame pointer holds. -/
theorem holds_push {s : Setting} {held : Option Int} {i : Instruction} {statements : List Stmt}
    (hs : s.statements? i = some statements) (hoperation : i.operation = .push) (depth : Int) :
    s.Holds (.lifted i statements) depth held held := by
  refine .kept fun r e hframe hassign => ?_
  cases hframe.symm.trans (isFramePointer_of_push hs hoperation hassign)

/-- Behind `mov ebp, esp`, `push eax` and `mov esp, ebp` the stack pointer is that at entry, and the
depth is 4. -/
theorem out_of_step_mov_esp_ebp :
    let s : Setting := ⟨.protected32, .silent⟩
    let load : Instruction := ⟨⟨.flat .w32, 0x1000, by decide⟩, [0x89, 0xE5], "mov", .move,
      [.register ebp, .register esp], .sequential⟩
    let push : Instruction := ⟨⟨.flat .w32, 0x1002, by decide⟩, [0x50], "push", .push,
      [.register eax], .sequential⟩
    let restore : Instruction := ⟨⟨.flat .w32, 0x1003, by decide⟩, [0x89, 0xEC], "mov", .move,
      [.register esp, .register ebp], .sequential⟩
    let state := (State.initial (processor s.mode) none).setRegister esp (.ofInt 32 0x2000)
    let p : Progress := ⟨state, .empty 32, none⟩
    let start : Run := .start p (.items [.ok load, .ok push, .ok restore])
    p.Enters s.mode 0x2000 ∧ ∃ held r, s.Reaches start held r ∧
      r.progress.state.register esp = .known 32 0x2000 ∧ r.progress.state.depth = 4 ∧
      ¬ InStep s.mode 0x2000 r.progress := by
  intro s load push restore state p start
  obtain ⟨r₁, r₂, r₃, loaded, pushed, restored, first, second, third, hload, hloaded, hfirst, hpush,
    hsecond, hrestore, hthird, hesp, hdepth⟩ :
      ∃ r₁ r₂ r₃ loaded pushed restored first second third,
        s.piece? start = some (.lifted load loaded) ∧
        loaded = [.assign (.register ebp) (.register esp)] ∧ s.next? start = some (first, r₁) ∧
        s.piece? r₁ = some (.lifted push pushed) ∧ s.next? r₁ = some (second, r₂) ∧
        s.piece? r₂ = some (.lifted restore restored) ∧
        s.next? r₂ = some (third, r₃) ∧ r₃.progress.state.register esp = .known 32 0x2000 ∧
        r₃.progress.state.depth = 4 :=
    ⟨_, _, _, _, _, _, _, _, _, rfl, rfl, rfl, rfl, rfl, rfl, rfl, by decide +kernel,
      by decide +kernel⟩
  have hloads : s.Permits none (.lifted load loaded) := by
    subst hloaded
    intro r e hr hassign
    cases List.mem_singleton.1 hassign
    cases hr
  have hpushes : s.Permits (some 0) (.lifted push pushed) :=
    fun _ _ _ _ => ⟨_, _, rfl, .inl (.push rfl)⟩
  have hrestores : s.Permits (some 0) (.lifted restore restored) :=
    fun _ _ _ _ => ⟨_, _, rfl, .inr ⟨⟨rfl, rfl⟩, rfl⟩⟩
  have hreaches : s.Reaches start (some 0) r₂ :=
    .step (.step .start hload hloads (.loaded rfl ⟨rfl, rfl⟩) hfirst) hpush hpushes
      (holds_push (statements?_of_piece? hpush) rfl _) hsecond
  refine ⟨⟨rfl, rfl, rfl, rfl⟩, none, r₃, hreaches.step hrestore hrestores .lost hthird, hesp,
    hdepth, fun hstep => ?_⟩
  have hcongr := hstep _ _ hesp
  rw [hdepth] at hcongr
  exact absurd hcongr (by decide)

end Setting

end CodeLift.X86
