-- SUMMARY: Stack slots have the same name whichever register addresses them.
import CodeLift.Proofs.Identifiers
import CodeLift.Proofs.X86.StackPointer

/-!
# Names of stack slots

A stack slot is named by its offset from the stack pointer at entry. For a reference
through the stack pointer the offset is counted with the depth, for one through the frame
pointer with the depth at which that was loaded. Both give the same slot the same name, as
long as the stack pointer and the frame pointer are what the depths say (`Tracks`): the
stack pointer at entry less the depth.

Each piece that moves the stack pointer by known distances, and loads the frame pointer
only in full, keeps this (`Tracks.pass`), so it holds all along a run of such pieces
(`Follows.tracks`).
-/

namespace CodeLift.X86

/-! ## Pieces that keep track -/

namespace Setting

/-- The domain of the stack pointer is assigned by pushes, pops into other registers and immediate
arithmetic alone, that of the frame pointer copies the domain of the stack pointer only in full, and
no procedure with a signature is called. -/
structure KeepsTrack (s : Setting) (piece : Piece) : Prop where
  stack : ∀ r e, isStackPointer r = true → .assign (.register r) e ∈ piece.cluster.statements →
    ∃ i statements, piece = .lifted i statements ∧ s.MovesStack i
  frame : ∀ r source, isFramePointer r = true → isStackPointer source = true →
    .assign (.register r) (.register source) ∈ piece.cluster.statements →
      r = framePointer s.mode.bits ∧ source = stackPointer s.mode.bits
  call : ∀ i statements target, piece = .lifted i statements → i.operation = .call →
    i.operands = [target] → s.calleeSignature? target = none

/-- The runs from procedure entry along pieces that keep track. -/
inductive Follows (s : Setting) (entry : Int) : Run → Prop
  | entry {p : Progress} {feed : Feed} (henters : p.Enters s.mode entry) :
      Follows s entry (.start p feed)
  | step {r r' : Run} {outcome : Outcome} {piece : Piece} (hfollows : Follows s entry r)
      (hpiece : s.piece? r = some piece) (hkeeps : s.KeepsTrack piece)
      (hnext : s.next? r = some (outcome, r')) : Follows s entry r'

end Setting

/-! ## The invariant -/

/-- The stack pointer is as far below that at entry as the depth says, and the frame pointer as the
depth at which it was loaded. -/
structure Tracks (mode : Mode) (entry : Int) (p : Progress) : Prop where
  processor : p.state.processor = processor mode
  stack : p.state.register (stackPointer mode.bits) = .ofInt mode.bits (entry - p.state.depth)
  frame : ∀ depth, p.frameDepth = some depth →
    p.state.register (framePointer mode.bits) = .ofInt mode.bits (entry - depth)

variable {s : Setting} {mode : Mode} {entry : Int} {p : Progress} {i : Instruction}
  {statements : List Stmt}

theorem Progress.Enters.tracks (h : p.Enters mode entry) : Tracks mode entry p := by
  refine ⟨h.processor, ?_, ?_⟩
  · rw [h.stack, h.depth, Int.sub_zero]
  · intro depth hdepth
    cases h.frameDepth.symm.trans hdepth

/-! ## Arriving -/

theorem Tracks.arrive (h : Tracks mode entry p) (i : Instruction) :
    Tracks mode entry (p.arrive i) := by
  have hmoved := p.moved_arrive i
  refine ⟨hmoved.processor.trans h.processor, ?_, ?_⟩
  · rw [register_arrive h.processor (stackPointer_ne_cs _), hmoved.depth, h.stack]
  · intro depth hdepth
    rw [hmoved.frameDepth] at hdepth
    rw [register_arrive h.processor (framePointer_ne_cs _), h.frame depth hdepth]

/-! ## Instructions -/

theorem Tracks.execute (h : Tracks s.mode entry p) (hs : s.statements? i = some statements)
    (hkeeps : s.KeepsTrack (.lifted i statements)) : Tracks s.mode entry (s.execute i p).1 := by
  have hprocessor := (Setting.processor_execute hs p).trans h.processor
  by_cases hcall : i.operation = .call
  · obtain ⟨target, hoperands⟩ := Setting.exists_operand (.inr (.inr hcall)) hs
    have hstate : (s.execute i p).1.state = p.state.clear := by
      rw [Setting.state_execute_call hcall hoperands,
        hkeeps.call i statements target rfl hcall hoperands]
      rfl
    refine ⟨hprocessor, ?_, ?_⟩
    · rw [hstate, Setting.register_clear, Setting.depth_clear, h.stack]
    · intro depth hdepth
      rw [Setting.frameDepth_execute_of_written?_eq_none (Setting.written?_call hcall)] at hdepth
      rw [hstate, Setting.register_clear, h.frame depth hdepth]
  refine ⟨hprocessor, ?_, ?_⟩
  · have hmoves : ∀ r e, isStackPointer r = true → .assign (.register r) e ∈ statements →
        s.MovesStack i := by
      intro r e hr hassign
      obtain ⟨_, _, ⟨⟩, hmoves⟩ := hkeeps.stack r e hr hassign
      exact hmoves
    obtain ⟨distance, hshifts⟩ := Setting.shifts_execute hs hcall hmoves p
    exact hshifts.stack h.stack
  · intro depth hdepth
    rcases Setting.frameDepth_execute hs hcall hdepth with
      ⟨hold, hkept⟩ | ⟨r, source, hoperation, hoperands, hframe, hsource, rfl⟩
    · rw [Setting.register_execute hs hcall fun e => hkept _ e (isFramePointer_framePointer _),
        h.frame depth hold]
    · -- The frame pointer is loaded while the stack pointer is where the depth says.
      have hstatements := hs
      rw [Setting.statements?, hoperation, hoperands] at hstatements
      cases hstatements
      obtain ⟨rfl, rfl⟩ := hkeeps.frame r source hframe hsource (List.mem_singleton_self _)
      rw [Setting.state_execute, Setting.perform, hoperation, hoperands]
      exact (Store.get_set_self _ _ _).trans h.stack

theorem Tracks.copy {push pop : Instruction} {src dst : Register} (h : Tracks s.mode entry p)
    (hkeeps : s.KeepsTrack (.copied push pop src dst)) :
    Tracks s.mode entry (p.copy src dst) := by
  have hassign : .assign (.register dst) (.register src) ∈
      (Piece.copied push pop src dst).cluster.statements := List.mem_singleton_self _
  have hdst : isStackPointer dst = false := by
    refine Bool.eq_false_iff.2 fun hdst => ?_
    obtain ⟨_, _, ⟨⟩, _⟩ := hkeeps.stack dst _ hdst hassign
  refine ⟨?_, ?_, ?_⟩
  · rw [state_copy]
    exact h.processor
  · rw [register_copy_of_ne p src (ne_stackPointer_of_isStackPointer hdst _).symm, h.stack,
      state_copy]
    rfl
  · intro depth hdepth
    rcases frameDepth_copy hdepth with ⟨hold, hother⟩ | ⟨hframe, hsource, rfl⟩
    · have hne : framePointer s.mode.bits ≠ dst := by
        rintro rfl
        cases (isFramePointer_framePointer _).symm.trans hother
      rw [register_copy_of_ne p src hne, h.frame depth hold]
    · obtain ⟨rfl, rfl⟩ := hkeeps.frame dst src hframe hsource hassign
      rw [register_copy_self, h.stack]

/-- The invariant is kept behind every piece that keeps track. -/
theorem Tracks.pass {piece : Piece} (h : Tracks s.mode entry p) (hkeeps : s.KeepsTrack piece)
    (hlifted : s.IsPiece piece) :
    Tracks s.mode entry (s.pass p piece) := by
  cases piece with
  | undecodable => exact h
  | unsupported i => exact h.arrive i
  | lifted i statements => exact (h.arrive i).execute (hlifted i statements rfl) hkeeps
  | copied push pop src dst => exact (h.arrive push).copy hkeeps

theorem Setting.Follows.tracks {r : Run} (h : s.Follows entry r) :
    Tracks s.mode entry r.progress := by
  induction h with
  | entry henters => exact henters.tracks
  | @step r r' outcome piece _ hpiece hkeeps hnext ih =>
    rw [Setting.progress_of_piece? hpiece hnext]
    exact ih.pass hkeeps (Setting.isPiece_of_piece? hpiece)

/-! ## Offsets -/

/-- A base register is as far below the stack pointer at entry as the depth says that its offsets
are counted from. -/
theorem Tracks.register_base (h : Tracks mode entry p) {base : Register} {depth : Int}
    (hbase : base = stackPointer mode.bits ∨ base = framePointer mode.bits)
    (hdepth : p.depthOf? base = some depth) :
    p.state.register base = .ofInt mode.bits (entry - depth) := by
  unfold Progress.depthOf? at hdepth
  rcases hbase with rfl | rfl
  · rw [if_pos (isStackPointer_stackPointer _)] at hdepth
    cases hdepth
    exact h.stack
  · rw [isStackPointer_framePointer, if_neg (by decide),
      if_pos (isFramePointer_framePointer _)] at hdepth
    exact h.frame depth hdepth

/-- A reference that has an offset from the stack pointer at entry addresses the slot there. -/
theorem Tracks.entryOffset? (h : Tracks mode entry p) {m : MemoryRef} {base : Register}
    {offset : Int} (hbase : m.base = some base)
    (hmode : base = stackPointer mode.bits ∨ base = framePointer mode.bits)
    (hoffset : p.entryOffset? m = some offset) :
    ∃ c : Nat, p.state.register base = .known mode.bits c ∧
      c + m.displacement ≡ entry + offset [ZMOD modulus mode.bits] := by
  have hbits := mode.bits_le
  unfold Progress.entryOffset? at hoffset
  split at hoffset
  · next depth _ hdepth =>
    rw [hbase, Option.bind_some] at hdepth
    split at hoffset
    · cases hoffset
      obtain ⟨c, hknown, hvalue⟩ := ofInt_mode mode (entry - depth)
      refine ⟨c, (h.register_base hmode hdepth).trans hknown, ?_⟩
      calc c + m.displacement
          ≡ entry - depth + m.displacement [ZMOD modulus mode.bits] := hvalue.add_right _
        _ = entry + (m.displacement - depth) := by omega
        _ ≡ entry + wrap32 (m.displacement - depth) [ZMOD modulus mode.bits] :=
          ((wrap32_modEq hbits _).symm).add_left entry
    · cases hoffset
  · cases hoffset

/-- The slot at the top of the stack is where the stack pointer is. -/
theorem Tracks.top (h : Tracks mode entry p) :
    ∃ c : Nat, p.state.register (stackPointer mode.bits) = .known mode.bits c ∧
      c ≡ entry + p.state.top [ZMOD modulus mode.bits] := by
  have hbits := mode.bits_le
  obtain ⟨c, hknown, hvalue⟩ := ofInt_mode mode (entry - p.state.depth)
  refine ⟨c, h.stack.trans hknown, ?_⟩
  calc (c : Int)
      ≡ entry - p.state.depth [ZMOD modulus mode.bits] := hvalue
    _ = entry + -p.state.depth := Int.sub_eq_add_neg
    _ ≡ entry + wrap32 (-p.state.depth) [ZMOD modulus mode.bits] :=
      ((wrap32_modEq hbits _).symm).add_left entry

/-! ## Identifiers -/

section

variable {f : Frame} {id : Identifier}

/-- The storage is that of a register or of one of the slots. -/
def IsNamed (slots : List (Int × Nat)) (storage : Storage) : Prop :=
  (∃ r, storage = .register r) ∨
    ∃ slot ∈ slots, storage = .stackLocal slot.1 ∨ storage = .stackArgument slot.1

theorem mem_nameOperands (s : Setting) (operands : List Operand) (slots : List (Int × Nat))
    (h : id ∈ f.identifiers) : id ∈ (s.nameOperands operands slots f).identifiers := by
  have hregisters : id ∈
      ((operands.filterMap Operand.register?).foldl Frame.addRegister f).identifiers :=
    List.foldlRecOn (motive := fun g : Frame => id ∈ g.identifiers) _ _ h
      fun _ hg r _ => Frame.mem_add hg _ _
  refine List.foldlRecOn (motive := fun g : Frame => id ∈ g.identifiers) _ _ hregisters
    fun g hg slot _ => ?_
  unfold Setting.nameSlot
  split
  · exact Frame.mem_add hg _ _
  · split
    · exact Frame.mem_add hg _ _
    · exact hg

/-- Naming operands makes identifiers for registers and for the slots alone. -/
theorem of_mem_nameOperands {s : Setting} {operands : List Operand} {slots : List (Int × Nat)}
    (h : id ∈ (s.nameOperands operands slots f).identifiers) :
    id ∈ f.identifiers ∨ IsNamed slots id.storage := by
  let Named : Frame → Prop := fun g =>
    id ∈ g.identifiers → id ∈ f.identifiers ∨ IsNamed slots id.storage
  have hregisters : Named ((operands.filterMap Operand.register?).foldl Frame.addRegister f) := by
    refine List.foldlRecOn (motive := Named) _ _ .inl fun g hg r _ hmem => ?_
    rcases Frame.of_mem_add hmem with hold | rfl
    · exact hg hold
    · exact .inr (.inl ⟨r, rfl⟩)
  refine List.foldlRecOn (motive := Named) _ _ hregisters (fun g hg slot hslot hmem => ?_) h
  unfold Setting.nameSlot at hmem
  split at hmem
  · rcases Frame.of_mem_add hmem with hold | rfl
    · exact hg hold
    · exact .inr (.inr ⟨slot, hslot, .inl rfl⟩)
  · split at hmem
    · rcases Frame.of_mem_add hmem with hold | rfl
      · exact hg hold
      · exact .inr (.inr ⟨slot, hslot, .inr rfl⟩)
    · exact hg hmem

/-- A push names the slot that is at the top of the stack behind it, and besides that only registers
and the slots of its operands. -/
theorem frame_execute_push (hoperation : i.operation = .push) {src : Operand}
    (hoperands : i.operands = [src]) (p : Progress) :
    let q := (s.execute i p).1
    (∃ id ∈ q.frame.identifiers,
      id.storage = .stackLocal q.state.top ∧ id.bits = slotBits s.mode src) ∧
    ∀ id ∈ q.frame.identifiers, id ∈ p.frame.identifiers ∨
      id.storage = .stackLocal q.state.top ∨ IsNamed (i.operands.filterMap p.slot?) id.storage := by
  intro q
  have hwritten : written? i = none := by
    unfold written?
    rw [hoperation]
  have hframe : q.frame = s.nameOperands i.operands (i.operands.filterMap p.slot?)
      (p.frame.addLocal q.state.top (slotBits s.mode src)) := by
    have hstate := Setting.state_execute_push (s := s) (p := p) hoperation hoperands
    simp only [q, hstate]
    simp only [Setting.execute, hwritten, Setting.perform, hoperation, hoperands]
    rfl
  rw [hframe]
  refine ⟨?_, fun id hid => ?_⟩
  · obtain ⟨id, hid, hslot⟩ :=
      Frame.exists_mem_add p.frame (.stackLocal q.state.top) (slotBits s.mode src)
    exact ⟨id, mem_nameOperands s _ _ hid, hslot⟩
  · rcases of_mem_nameOperands hid with hmem | hnamed
    · rcases Frame.of_mem_add hmem with hold | rfl
      · exact .inl hold
      · exact .inr (.inl rfl)
    · exact .inr (.inr hnamed)

end

/-! ## Agreement -/

namespace Setting

variable {r : Run}

/-- A push keeps track, whatever it pushes. -/
theorem keepsTrack_push (hs : s.statements? i = some statements)
    (hoperation : i.operation = .push) : s.KeepsTrack (.lifted i statements) where
  stack _ _ _ _ := ⟨i, statements, rfl, .push hoperation⟩
  frame := by
    intro r source hframe _ hassign
    cases hframe.symm.trans (isFramePointer_of_push hs hoperation hassign)
  call := by
    rintro _ _ _ ⟨⟩ hcall
    cases hoperation.symm.trans hcall

/-- On a run along pieces that keep track, from an entry where the stack pointer is known: a slot
addressed through the stack pointer or the frame pointer is where the value of that register says,
and a push makes an identifier for the slot at the stack pointer behind it, besides those of its
operands. -/
theorem slot_names_agree (h : s.Follows entry r) :
    (∀ (i : Instruction) (m : MemoryRef) (base : Register) (offset : Int), m.base = some base →
      base = stackPointer s.mode.bits ∨ base = framePointer s.mode.bits →
        (r.progress.arrive i).entryOffset? m = some offset →
          ∃ c : Nat, (r.progress.arrive i).state.register base = .known s.mode.bits c ∧
            c + m.displacement ≡ entry + offset [ZMOD modulus s.mode.bits]) ∧
    ∀ (i : Instruction) (statements : List Stmt) (outcome : Outcome) (r' : Run),
      s.piece? r = some (.lifted i statements) → i.operation = .push →
        s.next? r = some (outcome, r') →
          ∃ (src : Operand) (c : Nat) (offset : Int), i.operands = [src] ∧
            r'.progress.state.register (stackPointer s.mode.bits) = .known s.mode.bits c ∧
            c ≡ entry + offset [ZMOD modulus s.mode.bits] ∧
            (∃ id ∈ r'.progress.frame.identifiers,
              id.storage = .stackLocal offset ∧ id.bits = slotBits s.mode src) ∧
            ∀ id ∈ r'.progress.frame.identifiers, id ∈ r.progress.frame.identifiers ∨
              id.storage = .stackLocal offset ∨
                IsNamed (i.operands.filterMap (r.progress.arrive i).slot?) id.storage := by
  refine ⟨fun i m base offset hbase hmode hoffset =>
    (h.tracks.arrive i).entryOffset? hbase hmode hoffset, ?_⟩
  intro i statements outcome r' hpiece hoperation hnext
  have hs := statements?_of_piece? hpiece
  obtain ⟨src, hoperands⟩ := exists_operand (.inl hoperation) hs
  obtain ⟨c, hknown, hvalue⟩ := (h.step hpiece (keepsTrack_push hs hoperation) hnext).tracks.top
  obtain ⟨hnamed, honly⟩ := frame_execute_push (s := s) hoperation hoperands (r.progress.arrive i)
  have hafter : r'.progress = (s.execute i (r.progress.arrive i)).1 :=
    progress_of_piece? hpiece hnext
  have hframe : (r.progress.arrive i).frame = r.progress.frame := (r.progress.moved_arrive i).frame
  rw [← hafter] at hnamed honly
  rw [hframe] at honly
  exact ⟨src, c, r'.progress.state.top, hoperands, hknown, hvalue, hnamed, honly⟩

/-- Behind `push ebp` and `mov ebp, esp` the argument at `[ebp+8]` is at offset 4, and pushing it
makes an identifier for the slot at the stack pointer. -/
theorem slot_names_agree_push_argument :
    let s : Setting := ⟨.protected32, .silent⟩
    let argument : MemoryRef := ⟨some ebp, none, 1, 8, 32, none⟩
    let push : Instruction := ⟨⟨.flat .w32, 0x1003, by decide⟩, [0xFF, 0x75, 0x08], "push", .push,
      [.memory argument], .sequential⟩
    ∃ r statements outcome r', s.Follows 0x2000 r ∧
      s.piece? r = some (.lifted push statements) ∧ s.next? r = some (outcome, r') ∧
      (r.progress.arrive push).entryOffset? argument = some 4 ∧
      (∃ c : Nat, (r.progress.arrive push).state.register ebp = .known 32 c ∧
        c + 8 ≡ 0x2000 + 4 [ZMOD modulus 32]) ∧
      ∃ (c : Nat) (offset : Int), r'.progress.state.register esp = .known 32 c ∧
        c ≡ 0x2000 + offset [ZMOD modulus 32] ∧
        ∃ id ∈ r'.progress.frame.identifiers, id.storage = .stackLocal offset := by
  intro s argument push
  let save : Instruction := ⟨⟨.flat .w32, 0x1000, by decide⟩, [0x55], "push", .push,
    [.register ebp], .sequential⟩
  let load : Instruction := ⟨⟨.flat .w32, 0x1001, by decide⟩, [0x89, 0xE5], "mov", .move,
    [.register ebp, .register esp], .sequential⟩
  let state : State := (State.initial (processor s.mode) none).setRegister esp (.ofInt 32 0x2000)
  let start : Run := .start ⟨state, .empty 32, none⟩ (.items [.ok save, .ok load, .ok push])
  have hstart : s.Follows 0x2000 start := .entry ⟨rfl, rfl, rfl, rfl⟩
  obtain ⟨saved, first, r₁, loaded, second, r₂, statements, third, r₃, hsave, hfirst, hload,
    hloaded, hsecond, hpush, hthird, hoffset⟩ :
      ∃ saved first r₁ loaded second r₂ statements third r₃,
        s.piece? start = some (.lifted save saved) ∧ s.next? start = some (first, r₁) ∧
        s.piece? r₁ = some (.lifted load loaded) ∧
        loaded = [.assign (.register ebp) (.register esp)] ∧
        s.next? r₁ = some (second, r₂) ∧
        s.piece? r₂ = some (.lifted push statements) ∧ s.next? r₂ = some (third, r₃) ∧
        (r₂.progress.arrive push).entryOffset? argument = some 4 :=
    ⟨_, _, _, _, _, _, _, _, _, rfl, rfl, rfl, rfl, rfl, rfl, rfl, by decide +kernel⟩
  have hkeeps : s.KeepsTrack (.lifted load loaded) := by
    subst hloaded
    refine ⟨fun r e hr hassign => ?_, fun r source _ _ hassign => ?_, ?_⟩
    · cases List.mem_singleton.1 hassign
      cases hr
    · cases List.mem_singleton.1 hassign
      exact ⟨rfl, rfl⟩
    · rintro _ _ _ ⟨⟩ ⟨⟩
  have hsaved : s.Follows 0x2000 r₁ :=
    hstart.step hsave (keepsTrack_push (statements?_of_piece? hsave) rfl) hfirst
  have hfollows : s.Follows 0x2000 r₂ := hsaved.step hload hkeeps hsecond
  obtain ⟨haddressed, hpushed⟩ := slot_names_agree hfollows
  obtain ⟨_, c, offset, -, hknown, hvalue, ⟨id, hid, hstorage, -⟩, -⟩ :=
    hpushed push statements third r₃ hpush rfl hthird
  exact ⟨r₂, statements, third, r₃, hfollows, hpush, hthird, hoffset,
    haddressed push argument ebp 4 rfl (.inr rfl) hoffset, c, offset, hknown, hvalue, id, hid,
    hstorage⟩

end Setting

end CodeLift.X86
