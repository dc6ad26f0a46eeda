-- SUMMARY: What a state knows of popped values holds of a machine that takes back what it pushed.
import CodeLift.Procedure
import CodeLift.Proofs.X86.Stack

/-!
# Values on the tracked stack

A state notes what a push puts on the stack by its offset from the stack pointer
at entry, and believes a pop at this offset to find the same. Only pushes change
these notes. A store through a memory operand leaves them as they are, and so does
a stack pointer that is loaded from elsewhere, so the notes hold of a machine only
as long as it takes back what it has pushed (`TakesBack`): the pop has to be of the
width of the push, at the place where the push has stored its operand, and nothing
may have been written there in between.

On a run from the entry of a procedure that keeps to this, every register that the
state knows has the value that the machine holds in it (`known_registers_hold`).
-/

namespace CodeLift.X86

/-- What a push has put on the stack: the offset of the slot from the stack pointer at entry, and
the bytes of the operand in memory. -/
structure Slot where
  offset : Int
  region : Region
  deriving DecidableEq

/-- The slot that the cluster of an instruction fills, if the instruction is a push lifted on its
own. Behind it the top of the stack has the given offset. -/
def filled? (m : Machine) (i : Instruction) (c : Cluster) (top : Int) : Option Slot :=
  match i.operation, i.operands, m.written c.statements with
  | .push, [src], [region] => src.bits?.map fun bits => ⟨top, { region with size := bits / 8 }⟩
  | _, _, _ => none

/-- The slots in which nothing is written. -/
def intact (m : Machine) (c : Cluster) (slots : List Slot) : List Slot :=
  slots.filter fun slot => ∀ w ∈ m.written c.statements, slot.region.Apart w

/-- The filled slots behind the cluster of an instruction. What has been noted at the offset of a
slot that is filled is forgotten. -/
def slotsBehind (m : Machine) (i : Instruction) (c : Cluster) (top : Int)
    (slots : List Slot) : List Slot :=
  match filled? m i c top with
  | some slot => slot :: (intact m c slots).filter (·.offset ≠ slot.offset)
  | none => intact m c slots

namespace Setting

/-- A pop of what is known of the stack, into a register, takes back what a push of this width has
put there. -/
def TakesBack (s : Setting) (m : Machine) (t : State) (slots : List Slot)
    (i : Instruction) : Prop :=
  ∀ r, soleRegister? .pop i = some r → (t.slot t.top).isKnown →
    r ≠ stackPointer s.mode.bits ∧ ⟨t.top, s.topRegion m (r.bits / 8)⟩ ∈ slots

/-- Clusters of a run from the entry of a procedure without calls, on a machine that takes back what
it has pushed: the run behind them, and the slots that are filled then. -/
inductive Executes (s : Setting) (m : Machine) : List Cluster → Run → List Slot → Prop
  | entry {kept : Options} {entry : Address} {feed : Feed} (hfeed : feed.Encoded s.mode) :
      Executes s m [] (.start (Architecture.atEntry ⟨s.mode, .full, kept⟩ entry) feed) []
  | step {clusters : List Cluster} {r r' : Run} {slots : List Slot} {i : Instruction}
      {outcome : Outcome} {c : Cluster} (hexecutes : Executes s m clusters r slots)
      (hi : r.instruction? = some i) (hcall : i.operation ≠ .call)
      (hpop : s.TakesBack (m.runClusters clusters) r.progress.state slots i)
      (hnext : s.next? r = some (outcome, r')) (hresult : outcome.result = .ok c) :
      Executes s m (clusters ++ [c]) r'
        (slotsBehind (m.runClusters clusters) i c r'.progress.state.top slots)

end Setting

/-! ## Notes that stay -/

/-- Between the states neither the notes on the stack nor the processor change. -/
def KeepsStack (t t' : State) : Prop := t'.stack = t.stack ∧ t'.processor = t.processor

theorem keepsStack_setOperand (o : Operand) (c : Constant) (t : State) :
    KeepsStack t (setOperand o c t) := by
  unfold setOperand
  split <;> exact ⟨rfl, rfl⟩

theorem keepsStack_foldInto (op : BinaryOp) (dst src : Operand) (t : State) :
    KeepsStack t (foldInto op dst src t) := by
  unfold foldInto
  split <;> exact ⟨rfl, rfl⟩

theorem keepsStack_move (p : Progress) (operands : List Operand) :
    KeepsStack p.state (p.move operands).state := by
  unfold Progress.move
  split
  · exact keepsStack_setOperand _ _ _
  · exact ⟨rfl, rfl⟩

theorem keepsStack_arithmetic (p : Progress) (op : BinaryOp) (operands : List Operand) :
    KeepsStack p.state (p.arithmetic op operands).state := by
  unfold Progress.arithmetic
  split
  · exact keepsStack_foldInto op _ _ _
  · exact ⟨rfl, rfl⟩

theorem keepsStack_logical (p : Progress) (op : BinaryOp) (operands : List Operand) :
    KeepsStack p.state (p.logical op operands).state := by
  unfold Progress.logical
  split
  · exact keepsStack_foldInto op _ _ _
  · exact ⟨rfl, rfl⟩

theorem keepsStack_zero (p : Progress) (i : Instruction) :
    KeepsStack p.state (p.zero i).1.state := by
  unfold Progress.zero
  split <;> exact ⟨rfl, rfl⟩

theorem keepsStack_branch (p : Progress) (flow : Flow) :
    KeepsStack p.state (p.branch flow).state := by
  unfold Progress.branch
  split <;> exact ⟨rfl, rfl⟩

theorem keepsStack_pop (s : Setting) (p : Progress) (operands : List Operand) :
    KeepsStack p.state (s.pop p operands).state := by
  unfold Setting.pop
  split
  · exact keepsStack_setOperand _ _ (shiftStackPointer _ _ p.state)
  · exact ⟨rfl, rfl⟩

/-- Only pushes note anything on the stack. -/
theorem keepsStack_execute (s : Setting) {i : Instruction} (p : Progress)
    (hpush : i.operation ≠ .push) (hcall : i.operation ≠ .call) :
    KeepsStack p.state (s.execute i p).1.state := by
  rw [Setting.state_execute]
  unfold Setting.perform
  cases hoperation : i.operation with
  | move => exact keepsStack_move p _
  | add => exact keepsStack_arithmetic p _ _
  | sub => exact keepsStack_arithmetic p _ _
  | and => exact keepsStack_logical p _ _
  | or => exact keepsStack_logical p _ _
  | xor => exact keepsStack_zero p i
  | pop => exact keepsStack_pop s p _
  | conditionalJump => exact keepsStack_branch p _
  | push => exact absurd hoperation hpush
  | call => exact absurd hoperation hcall
  | _ => exact ⟨rfl, rfl⟩

/-! ## Pops -/

section

variable {s : Setting} {m : Machine} {t : State} {statements : List Stmt}

/-- A register that is popped is known as the slot at the top of the stack is, if that describes
the value there. If anything is known, the register may not be the stack pointer. -/
theorem matches_pop_register (h : m.Matches t.registers) {r : Register} {c : Constant}
    (hs : s.popStatements? [.register r] = some statements)
    (hc : c.Describes r.bits
      (m.value (s.topRegion m (s.slotBytes (.register r))) % modulus r.bits))
    (hr : c = .unknown ∨ r ≠ stackPointer s.mode.bits) :
    (m.run statements).Matches
      ((shiftStackPointer s.mode (s.slotBytes (.register r)) t).setRegister r c).registers := by
  rw [Setting.run_pop m hs]
  have hset : (m.set (.register r) (m.value (s.topRegion m (s.slotBytes (.register r))))).Matches
      (t.setRegister r c).registers := h.set hc
  have hshift := matches_shiftStackPointer s.mode hset (s.slotBytes (.register r))
  -- The state moves the stack pointer first, the machine last.
  refine (hshift.learn (r := r) (c := c) ?_).of_get fun r' => ?_
  · rcases hr with rfl | hr
    · exact Constant.describes_unknown _ _
    · rw [cell_moveStackPointer_of_ne _ _ hr, Machine.cell_set_self]
      exact hc
  · simp only [shiftStackPointer, State.setRegister, State.register]
    by_cases hr' : r' = r
    · rw [hr', Store.get_set_self, Store.get_set_self]
    · rw [Store.get_set_of_ne _ _ hr', Store.get_set_of_ne _ _ hr']
      by_cases hsp : r' = stackPointer s.mode.bits
      · rw [← hsp, Store.get_set_self, Store.get_set_self, Store.get_set_of_ne _ _ hr']
      · rw [Store.get_set_of_ne _ _ hsp, Store.get_set_of_ne _ _ hsp, Store.get_set_of_ne _ _ hr']

/-- A pop into memory leaves registers as they were, apart from the stack pointer. -/
theorem matches_pop_memory (h : m.Matches t.registers) {place : MemoryRef}
    (hs : s.popStatements? [.memory place] = some statements) :
    (m.run statements).Matches
      (shiftStackPointer s.mode (s.slotBytes (.memory place)) t).registers := by
  cases hs
  have hstore : (m.step (.set (s.expr (.memory place)) (s.slotAccess (.memory place)))).Matches
      t.registers := h.congr fun _ => rfl
  exact matches_shiftStackPointer s.mode hstore _

end

/-! ## The invariant -/

/-- What the state knows of registers, and what it has noted of filled slots, holds of the
machine. -/
structure Holds (mode : Mode) (m : Machine) (t : State) (slots : List Slot) : Prop where
  processor : t.processor = processor mode
  registers : m.Matches t.registers
  slots : ∀ slot ∈ slots,
    (t.slot slot.offset).Describes (8 * slot.region.size) (m.value slot.region)

section

variable {s : Setting} {m : Machine} {p : Progress} {i : Instruction} {slots : List Slot}

theorem holds_entry (mode : Mode) (kept : Options) (entry : Address) (m : Machine)
    (hmode : mode = .protected32) :
    Holds mode m (Architecture.atEntry ⟨mode, .full, kept⟩ entry).state [] := by
  subst hmode
  exact ⟨rfl, m.matches_empty, nofun⟩

/-- In a flat address space arriving at an instruction tells nothing more. -/
theorem state_arrive (h : p.state.processor = processor .protected32) (i : Instruction) :
    (p.arrive i).state = { p.state with pointer := some i.address } := by
  have hsegment : p.state.processor.codeSegment = none := by
    rw [h]
    rfl
  change p.state.setPointer i.address = _
  simp only [State.setPointer, hsegment]

theorem Holds.arrive (hmode : s.mode = .protected32) (h : Holds s.mode m p.state slots)
    (i : Instruction) : Holds s.mode m (p.arrive i).state slots := by
  rw [state_arrive (hmode ▸ h.processor)]
  exact ⟨h.processor, h.registers, h.slots⟩

/-- Slots in which nothing is written keep to the notes that stay. -/
theorem Holds.intact {t' : State} {c : Cluster} (h : Holds s.mode m p.state slots)
    (hkeeps : KeepsStack p.state t')
    (hregisters : (m.run c.statements).Matches t'.registers) :
    Holds s.mode (m.run c.statements) t' (intact m c slots) := by
  refine ⟨hkeeps.2.trans h.processor, hregisters, ?_⟩
  intro slot hslot
  obtain ⟨hmem, hapart⟩ := List.mem_filter.1 hslot
  rw [State.slot, hkeeps.1, Machine.value_run (of_decide_eq_true hapart)]
  exact h.slots slot hmem

/-! ## Steps -/

theorem filled?_of_ne_push {c : Cluster} (h : i.operation ≠ .push) (top : Int) :
    filled? m i c top = none := by
  unfold filled?
  split
  · next hoperation _ _ => exact absurd hoperation h
  · rfl

theorem filled?_of_written_eq_nil {c : Cluster} (h : m.written c.statements = []) (top : Int) :
    filled? m i c top = none := by
  unfold filled?
  split
  · next hwritten => cases h.symm.trans hwritten
  · rfl

variable {c : Cluster}

/-- What a push stores is what the state notes of it. -/
theorem Holds.push (h : Holds s.mode m p.state slots) (hi : s.mode.Encodes i)
    (hoperation : i.operation = .push) (hs : s.statements? i = some c.statements) :
    Holds s.mode (m.run c.statements) (s.execute i p).1.state
      (slotsBehind m i c (s.execute i p).1.state.top slots) := by
  obtain ⟨src, hoperands, size, hsmall, hbits, hle⟩ := hi.size_push hoperation
  have hpush : s.pushStatements? [src] = some c.statements := by
    rw [← hs, Setting.statements?, hoperation, hoperands]
  have hlowered := matches_shiftStackPointer s.mode h.registers (-s.slotBytes src)
  rw [Setting.state_execute_push hoperation hoperands]
  have hfilled : filled? m i c (s.push p [src]).state.top =
      some ⟨(s.push p [src]).state.top, s.topRegion (m.run c.statements) size⟩ := by
    rw [Setting.topRegion_push m hpush]
    simp only [filled?, hoperation, hoperands, Setting.written_push m hpush, hbits,
      Option.map_some, Nat.mul_div_cancel_left size (show 0 < 8 by decide)]
    rfl
  rw [slotsBehind, hfilled]
  refine ⟨h.processor, matches_push h.registers hpush, fun slot hslot => ?_⟩
  rw [State.slot, Setting.stack_push]
  rcases List.mem_cons.1 hslot with rfl | hold
  · have hdescribes := describes_operand s.mode hlowered hbits (by omega)
    rw [Store.get_set_self, Setting.value_push m hpush hle]
    exact hdescribes
  · obtain ⟨hmem, hoffset⟩ := List.mem_filter.1 hold
    obtain ⟨hslot, hapart⟩ := List.mem_filter.1 hmem
    rw [Store.get_set_of_ne _ _ (of_decide_eq_true hoffset),
      Machine.value_run (of_decide_eq_true hapart)]
    exact h.slots slot hslot

/-- What is known of a register that takes back what was pushed is what the machine pops. -/
theorem Holds.pop (h : Holds s.mode m p.state slots) (hi : s.mode.Encodes i)
    (hoperation : i.operation = .pop) (hs : s.statements? i = some c.statements)
    (htakes : s.TakesBack m p.state slots i) :
    Holds s.mode (m.run c.statements) (s.execute i p).1.state
      (slotsBehind m i c (s.execute i p).1.state.top slots) := by
  obtain ⟨dst, hoperands, hdst⟩ := hi.operands_pop hoperation
  have hpop : s.popStatements? [dst] = some c.statements := by
    rw [← hs, Setting.statements?, hoperation, hoperands]
  rw [slotsBehind, filled?_of_ne_push (by rw [hoperation]; decide),
    Setting.state_execute_pop hoperation hoperands]
  refine h.intact (keepsStack_pop s p [dst]) ?_
  cases dst with
  | register r =>
    by_cases hknown : (p.state.slot p.state.top).isKnown
    · obtain ⟨hr, hslot⟩ :=
        htakes r (Setting.soleRegister?_eq_some.2 ⟨hoperation, hoperands⟩) hknown
      obtain ⟨size, -, hbits, hle⟩ := hdst.size s
      have hbits : r.bits = 8 * size := Option.some.inj hbits
      have hdescribes := h.slots _ hslot
      rw [hbits, Nat.mul_div_cancel_left size (by decide)] at hdescribes
      refine matches_pop_register h.registers hpop ?_ (.inr hr)
      rw [hbits, Machine.value, Setting.topRegion, Machine.load_mod _ _ _ hle]
      exact hdescribes
    · have hunknown := Constant.eq_unknown hknown
      refine matches_pop_register h.registers hpop ?_ (.inl hunknown)
      rw [hunknown]
      exact Constant.describes_unknown _ _
  | memory place => exact matches_pop_memory h.registers hpop
  | immediate | address => rcases hdst with ⟨_, _, hdst⟩ | ⟨_, _, hdst⟩ <;> cases hdst

/-- Every other instruction leaves the notes, and what it does not write, as they are. -/
theorem Holds.lifted (h : Holds s.mode m p.state slots) (hi : s.mode.Encodes i)
    (hpush : i.operation ≠ .push) (hpop : i.operation ≠ .pop) (hcall : i.operation ≠ .call)
    (hs : s.statements? i = some c.statements) :
    Holds s.mode (m.run c.statements) (s.execute i p).1.state
      (slotsBehind m i c (s.execute i p).1.state.top slots) := by
  rw [slotsBehind, filled?_of_ne_push hpush]
  exact h.intact (keepsStack_execute s p hpush hcall)
    (Setting.matches_execute hi hs hcall hpop h.registers)

/-- A register copy writes no memory. -/
theorem Holds.copied {push pop : Instruction} {src dst : Register} {top : Int}
    (h : Holds s.mode m p.state slots) (hbits : dst.bits = src.bits) :
    Holds s.mode (m.run (copyCluster push pop src dst).statements) (p.copy src dst).state
      (slotsBehind m i (copyCluster push pop src dst) top slots) := by
  have hkeeps : KeepsStack p.state (p.copy src dst).state := by
    rw [Progress.copy, Progress.state_follow]
    exact ⟨rfl, rfl⟩
  rw [slotsBehind, filled?_of_written_eq_nil rfl]
  exact h.intact hkeeps (Setting.matches_copy hbits h.registers)

end

/-! ## Runs -/

namespace Setting

/-- The invariant holds behind every cluster of a run that takes back what it has pushed. -/
theorem Executes.holds {s : Setting} {m : Machine} {clusters : List Cluster} {r : Run}
    {slots : List Slot} (hmode : s.mode = .protected32) (h : s.Executes m clusters r slots) :
    r.Encoded s.mode ∧ Holds s.mode (m.runClusters clusters) r.progress.state slots := by
  induction h with
  | entry hfeed =>
    exact ⟨(Run.resumes_start _ _).encoded hfeed, holds_entry s.mode _ _ m hmode⟩
  | @step clusters r r' slots i outcome c _ hi hcall hpop hnext hresult ih =>
    obtain ⟨hencoded, hholds⟩ := ih
    have hstep := step_of_next? hnext
    have hrun : m.runClusters (clusters ++ [c]) = (m.runClusters clusters).run c.statements := by
      simp [Machine.runClusters, Machine.run_append]
    refine ⟨hstep.encoded hencoded, ?_⟩
    rw [hrun]
    rw [hresult] at hstep
    cases hstep with
    | lifted hitem hok hstatements hprogress =>
      cases hi.symm.trans (Run.instruction?_eq hitem hok)
      have hi := (hencoded.item? hitem).1 i hok
      have harrived := hholds.arrive hmode i
      rw [hprogress]
      by_cases hpush : i.operation = .push
      · exact harrived.push hi hpush hstatements
      · by_cases hpop' : i.operation = .pop
        · have htakes :
              s.TakesBack (m.runClusters clusters) (r.progress.arrive i).state slots i := by
            rw [state_arrive (hmode ▸ hholds.processor)]
            exact hpop
          exact harrived.pop hi hpop' hstatements htakes
        · exact harrived.lifted hi hpush hpop' hcall hstatements
    | copied hitem hok hnext' hcopy hprogress =>
      obtain ⟨-, -, -, hbits, -⟩ := copy?_eq_some.1 hcopy
      rw [hprogress]
      exact (hholds.arrive hmode _).copied hbits

/-- On a run from the entry of a procedure, in protected mode and without calls, every register
that the state knows has the value that the machine has left in it, as long as the machine takes
back what it has pushed. -/
theorem known_registers_hold {s : Setting} {m : Machine} {clusters : List Cluster} {r : Run}
    {slots : List Slot} (hmode : s.mode = .protected32) (h : s.Executes m clusters r slots)
    {reg : Register} {bits value : Nat}
    (hknown : r.progress.state.register reg = .known bits value) :
    bits = reg.bits ∧ value = (m.runClusters clusters).cell (.register reg) :=
  (h.holds hmode).2.registers reg bits value hknown

/-- What `push 5` has put on the stack, `pop eax` takes back. -/
theorem known_registers_hold_push_pop :
    let s : Setting := ⟨.protected32, .silent⟩
    let push : Instruction := ⟨⟨.flat .w32, 0x1000, by decide⟩, [0x6A, 0x05], "push", .push,
      [.immediate 5 32], .sequential⟩
    let pop : Instruction := ⟨⟨.flat .w32, 0x1002, by decide⟩, [0x58], "pop", .pop,
      [.register eax], .sequential⟩
    ∃ clusters r' slots, s.Executes .blank clusters r' slots ∧
      clusters.map Cluster.address = [push.address, pop.address] ∧
      r'.progress.state.register eax = .known 32 5 ∧
      5 = (Machine.blank.runClusters clusters).cell (.register eax) := by
  intro s push pop
  let r : Run := .start (Architecture.atEntry ⟨.protected32, .full, []⟩ push.address)
    (.items [.ok push, .ok pop])
  have hfeed : Feed.Encoded s.mode (.items [.ok push, .ok pop]) := by
    intro i hi
    obtain hi | hi : i = push ∨ i = pop := by simpa using hi
    · exact ⟨[0x6A, 0x05], by rw [hi]; decide +kernel⟩
    · exact ⟨[0x58], by rw [hi]; decide +kernel⟩
  obtain ⟨first, second, r₁, r₂, c₁, c₂, hfirst, hresult₁, hpop, hsecond, hresult₂, haddresses,
    hslot, heax⟩ : ∃ first second r₁ r₂ c₁ c₂,
        s.next? r = some (first, r₁) ∧ first.result = .ok c₁ ∧ r₁.instruction? = some pop ∧
        s.next? r₁ = some (second, r₂) ∧ second.result = .ok c₂ ∧
        [c₁, c₂].map Cluster.address = [push.address, pop.address] ∧
        ⟨r₁.progress.state.top, s.topRegion (Machine.blank.runClusters [c₁]) 4⟩ ∈
          slotsBehind .blank push c₁ r₁.progress.state.top [] ∧
        r₂.progress.state.register eax = .known 32 5 :=
    ⟨_, _, _, _, _, _, rfl, rfl, rfl, rfl, rfl, rfl, by decide +kernel, by decide +kernel⟩
  have hpush : s.TakesBack .blank r.progress.state [] push := by
    intro reg hreg
    cases hreg
  have hexecutes₁ : s.Executes .blank [c₁] r₁ _ :=
    .step (.entry hfeed) rfl (by decide) hpush hfirst hresult₁
  have htakes : s.TakesBack (Machine.blank.runClusters [c₁]) r₁.progress.state
      (slotsBehind .blank push c₁ r₁.progress.state.top []) pop := by
    intro reg hreg _
    obtain ⟨-, hoperands⟩ := soleRegister?_eq_some.1 hreg
    cases hoperands
    exact ⟨by decide, hslot⟩
  have hexecutes : s.Executes .blank [c₁, c₂] r₂ _ :=
    .step hexecutes₁ hpop (by decide) htakes hsecond hresult₂
  exact ⟨_, r₂, _, hexecutes, haddresses, heax, (known_registers_hold rfl hexecutes heax).2⟩

/-- A store through a memory operand goes unnoticed: behind `push 5`, `mov dword [esp], 7` and
`pop eax` the state knows 5 of a register in which the machine has left 7. -/
theorem known_register_fails_store :
    let s : Setting := ⟨.protected32, .silent⟩
    let push : Instruction := ⟨⟨.flat .w32, 0x1000, by decide⟩, [0x6A, 0x05], "push", .push,
      [.immediate 5 32], .sequential⟩
    let store : Instruction := ⟨⟨.flat .w32, 0x1002, by decide⟩,
      [0xC7, 0x04, 0x24, 0x07, 0x00, 0x00, 0x00], "mov", .move,
      [.memory ⟨some esp, none, 1, 0, 32, none⟩, .immediate 7 32], .sequential⟩
    let pop : Instruction := ⟨⟨.flat .w32, 0x1009, by decide⟩, [0x58], "pop", .pop,
      [.register eax], .sequential⟩
    let r : Run := .start (Architecture.atEntry ⟨.protected32, .full, []⟩ push.address)
      (.items [.ok push, .ok store, .ok pop])
    r.Encoded s.mode ∧ ∃ first second third r₁ r₂ r₃ c₁ c₂ c₃,
      s.next? r = some (first, r₁) ∧ first.result = .ok c₁ ∧
      s.next? r₁ = some (second, r₂) ∧ second.result = .ok c₂ ∧
      s.next? r₂ = some (third, r₃) ∧ third.result = .ok c₃ ∧
      r₃.progress.state.register eax = .known 32 5 ∧
      (Machine.blank.runClusters [c₁, c₂, c₃]).cell (.register eax) = 7 := by
  intro s push store pop r
  have hr : r.Encoded s.mode := by
    refine (Run.resumes_start _ _).encoded fun i hi => ?_
    obtain hi | hi | hi : i = push ∨ i = store ∨ i = pop := by simpa using hi
    · exact ⟨[0x6A, 0x05], by rw [hi]; decide +kernel⟩
    · exact ⟨[0xC7, 0x04, 0x24, 0x07, 0x00, 0x00, 0x00], by rw [hi]; decide +kernel⟩
    · exact ⟨[0x58], by rw [hi]; decide +kernel⟩
  exact ⟨hr, _, _, _, _, _, _, _, _, _, rfl, rfl, rfl, rfl, rfl, rfl, by decide +kernel,
    by decide +kernel⟩

end Setting

end CodeLift.X86
