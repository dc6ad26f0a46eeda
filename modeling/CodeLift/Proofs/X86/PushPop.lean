-- SUMMARY: Which pushes and pops do to a machine what the instructions mean.
import CodeLift.Proofs.X86.Coverage
import CodeLift.Proofs.X86.References
import CodeLift.Proofs.X86.Stack

/-!
# The meaning of pushes and pops

A push means that its operand, as it was, stands at the new top of the stack, and a
pop that its register gets what stood at the old top. `push_pop_iff` says which
operands the statements serve so, on every machine.

The statements of a push lower the stack pointer before they look at the operand. That
makes a difference for the stack pointer itself and for references based on it
(`place_lowered`); behind any other operand the machine is as it was
(`operandMeaning_lowered`). A pop raises the stack pointer behind the load, also where
it is what has been loaded (`cell_pop_stackPointer`).
-/

namespace CodeLift.X86

/-- The operand is not the stack pointer, not based on it, and not too far for the mode. -/
def IsPlainSource (mode : Mode) (bits : Nat) : Operand → Prop
  | .register r => r ≠ stackPointer mode.bits
  | .memory ref => ref.base ≠ some (stackPointer mode.bits) ∧ ¬ ref.IsFar mode bits
  | _ => True

/-- No index register is a stack pointer. -/
theorem general_ne_stackPointer (mode : Mode) {bits n : Nat} (hbits : bits ∈ [16, 32]) (hn : n < 8)
    (hindex : n ≠ 4) : general n bits ≠ stackPointer mode.bits := by
  have h : ∀ bits ∈ [16, 32], ∀ n < 8, n ≠ 4 → ∀ width ∈ [16, 32],
      general n bits ≠ stackPointer width := by decide
  exact h bits hbits n hn hindex mode.bits (by cases mode <;> decide)

theorem segment_ne_stackPointer (mode : Mode) {r : Register} (hr : r ∈ segments) :
    r ≠ stackPointer mode.bits := by
  have h : ∀ r ∈ segments, ∀ width ∈ [16, 32], r ≠ stackPointer width := by decide
  exact h r hr mode.bits (by cases mode <;> decide)

theorem segmentRegister_mem (mode : Mode) {bits : Nat} {ref : MemoryRef} (h : ref.Spelled bits) :
    ∀ r ∈ segmentRegister mode ref, r ∈ segments := by
  intro r hr
  cases mode with
  | protected32 => exact h.segment r hr
  | real16 =>
    cases hr
    cases hsegment : ref.segment with
    | some r => exact h.segment r hsegment
    | none =>
      rw [Option.getD_none]
      split <;> decide

namespace Setting

variable {s : Setting} {bits : Nat}

/-! ## What pushes and pops mean -/

variable (s) in
/-- The stack pointer goes down by the operand's slot, and no other register changes. -/
structure Lowers (src : Operand) (m m' : Machine) : Prop where
  pointer : (m'.cell (.register (stackPointer s.mode.bits)) : Int) =
    (m.cell (.register (stackPointer s.mode.bits)) - s.slotBytes src) %
      modulus (stackPointer s.mode.bits).bits
  other : ∀ r ≠ stackPointer s.mode.bits, m'.cell (.register r) = m.cell (.register r)

variable (s) in
/-- The value that the operand had, with addresses of `bits` bits, is pushed. -/
structure Pushes (bits : Nat) (src : Operand) (m m' : Machine) : Prop extends
    s.Lowers src m m' where
  top : m'.value (s.topRegion m' (s.slotBytes src)) = operandMeaning s.mode bits m src

variable (s) in
/-- The value at the top of the stack is popped into a register. -/
structure Pops (dst : Register) (m m' : Machine) : Prop where
  loaded : m'.cell (.register dst) =
    m.value (s.topRegion m (s.slotBytes (.register dst))) % modulus dst.bits
  pointer : dst ≠ stackPointer s.mode.bits →
    (m'.cell (.register (stackPointer s.mode.bits)) : Int) =
      (m.cell (.register (stackPointer s.mode.bits)) + s.slotBytes (.register dst)) %
        modulus (stackPointer s.mode.bits).bits
  other : ∀ r, r ≠ dst → r ≠ stackPointer s.mode.bits →
    m'.cell (.register r) = m.cell (.register r)

/-! ## Pushes -/

theorem lowers_push (m : Machine) {src : Operand} {statements : List Stmt}
    (hs : s.pushStatements? [src] = some statements) : s.Lowers src m (m.run statements) where
  pointer := by
    rw [cell_run_push m hs, lowered, cell_moveStackPointer, sub_eq_add_neg]
  other r hr := by
    rw [cell_run_push m hs]
    exact cell_moveStackPointer_of_ne _ _ hr

section

variable (m : Machine) {ref : MemoryRef} (src : Operand)

theorem part_lowered {r : Option Register} (hr : r ≠ some (stackPointer s.mode.bits)) :
    (s.lowered m src).part r = m.part r := by
  cases r with
  | none => rfl
  | some r => exact cell_moveStackPointer_of_ne _ _ (by simpa using hr)

theorem index_ne_stackPointer (h : ref.Spelled bits) (hbits : bits ∈ [16, 32]) (mode : Mode) :
    ref.index ≠ some (stackPointer mode.bits) := by
  intro hindex
  obtain ⟨n, hn, hne, hr⟩ := h.index _ hindex
  exact general_ne_stackPointer mode hbits hn hne hr.symm

/-- Behind the move of the stack pointer a reference that is based on it names a place that is
lower by the slot. -/
theorem place_lowered (h : ref.Spelled bits) (hbits : bits ∈ [16, 32])
    (hbase : ref.base = some (stackPointer s.mode.bits)) :
    ((s.lowered m src).place bits ref : Int) =
      (m.place bits ref - s.slotBytes src) % modulus bits := by
  have hwidth := h.bits_base hbits _ hbase
  have hbased : ((s.lowered m src).part ref.base : Int) =
      (m.part ref.base - s.slotBytes src) % modulus bits := by
    rw [hbase, ← hwidth, sub_eq_add_neg]
    exact cell_moveStackPointer s.mode m _
  have hindexed := part_lowered (s := s) m src (index_ne_stackPointer h hbits s.mode)
  rw [Machine.cast_place, Machine.cast_place, hbased, hindexed, Int.emod_sub_emod, add_assoc,
    Int.emod_add_emod]
  congr 1
  ring

theorem operandMeaning_lowered {o : Operand} (h : o.Spelled bits) (hbits : bits ∈ [16, 32])
    (hplain : IsPlainSource s.mode bits o) :
    operandMeaning s.mode bits (s.lowered m src) o = operandMeaning s.mode bits m o := by
  cases o with
  | register r => exact cell_moveStackPointer_of_ne _ _ hplain
  | immediate | address => rfl
  | memory ref =>
    have hplace : (s.lowered m src).place bits ref = m.place bits ref := by
      rw [Machine.place, part_lowered m src hplain.1,
        part_lowered m src (index_ne_stackPointer h hbits s.mode), Machine.place]
    have hselector : (s.lowered m src).selector (segmentRegister s.mode ref) =
        m.selector (segmentRegister s.mode ref) := by
      refine Option.map_congr fun r hr => ?_
      exact cell_moveStackPointer_of_ne _ _
        (segment_ne_stackPointer _ (segmentRegister_mem s.mode h r hr))
    rw [operandMeaning, operandMeaning, hplace, hselector]
    exact Machine.value_congr rfl

end

section

variable {src : Operand} {statements : List Stmt} {size : Nat} (hsrc : src.Spelled bits)
  (hbits : bits ∈ [16, 32]) (hsize : src.bits? = some (8 * size)) (hle : size ≤ 4)
  (hs : s.pushStatements? [src] = some statements)

include hsrc hbits hsize hle hs

/-- A plain operand is pushed as it was. -/
theorem pushes_push (m : Machine) (hslot : size ≤ s.slotBytes src)
    (hplain : IsPlainSource s.mode bits src) : s.Pushes bits src m (m.run statements) where
  toLowers := lowers_push m hs
  top := by
    have hlt := operandMeaning_lt s.mode bits m hsize
    have hmodulus := Nat.le_of_dvd (modulus_pos _)
      (modulus_dvd (Nat.mul_le_mul_left 8 hslot))
    have hnear : ∀ ref, src = .memory ref → ¬ ref.IsFar s.mode bits := by
      rintro ref rfl
      exact hplain.2
    rw [value_push m hs le_rfl, expr, eval_operandExpr _ hsrc hbits hsize (by omega) hnear,
      operandMeaning_lowered m src hsrc hbits hplain]
    exact Nat.mod_eq_of_lt (hlt.trans_le hmodulus)

end

/-- Bytes of memory play no part in lowering the stack pointer. -/
theorem cell_lowered_store (m : Machine) (selector : Option Nat) (place : Nat)
    (bytes : List UInt8) (src : Operand) :
    (s.lowered (m.store selector place bytes) src).cell = (s.lowered m src).cell := by
  have heval : ∀ (r : Register) (d : Int) (width : Nat),
      ((Expr.register r).displaced d width).eval (m.store selector place bytes) =
        ((Expr.register r).displaced d width).eval m := by
    intro r d width
    unfold Expr.displaced
    split
    · rfl
    · split <;> rfl
  funext c
  change (if c = _ then _ else m.cell c) = if c = _ then _ else m.cell c
  rw [heval]

variable (s) in
/-- The bytes that a push of a memory operand reads. -/
def readRegion (ref : MemoryRef) (m : Machine) : Region :=
  ⟨(s.lowered m (.memory ref)).selector (segmentOf s.mode ref),
    (s.lowered m (.memory ref)).place (addressBits s.mode ref) ref, ref.bits / 8⟩

variable (s) in
/-- The bytes that a memory operand names. -/
def namedRegion (bits : Nat) (ref : MemoryRef) (m : Machine) : Region :=
  ⟨m.selector (segmentRegister s.mode ref), m.place bits ref, ref.bits / 8⟩

/-- A push reads what was there before bytes were stored apart from it. -/
theorem eval_lowered_store (m : Machine) {ref : MemoryRef} (href : ref.Spelled bits)
    (hbits : bits ∈ [16, 32]) {selector : Option Nat} {place : Nat} {bytes : List UInt8}
    (hapart : (s.readRegion ref m).Apart ⟨selector, place, bytes.length⟩) :
    (s.expr (.memory ref)).eval (s.lowered (m.store selector place bytes) (.memory ref)) =
      m.value (s.readRegion ref m) := by
  rw [← Machine.value_store_of_apart hapart, expr, operandExpr, memoryExpr, Expr.eval,
    eval_effectiveAddress _ _ href hbits]
  unfold Machine.selector Machine.place Machine.part
  rw [cell_lowered_store]
  rfl

section

variable {ref : MemoryRef} {statements : List Stmt} {size : Nat} (href : ref.Spelled bits)
  (hbits : bits ∈ [16, 32]) (hsize : ref.bits = 8 * size) (hpos : 0 < size)
  (hs : s.pushStatements? [.memory ref] = some statements)

include href hbits hsize hpos hs

/-- If a push of memory is always right, the bytes that it reads overlap those that it names. -/
theorem not_apart_of_pushes
    (h : ∀ m, s.Pushes bits (.memory ref) m (m.run statements)) (m : Machine) :
    ¬ (s.readRegion ref m).Apart (s.namedRegion bits ref m) := by
  intro hapart
  have hbytes : ref.bits / 8 = size := by omega
  have hslot : s.slotBytes (.memory ref) = size := hbytes
  -- A store makes the bytes that are named differ from those that are read.
  let read := m.value (s.readRegion ref m)
  let stored := littleEndianBytes size (read + 1)
  let m' := m.store (m.selector (segmentRegister s.mode ref)) (m.place bits ref) stored
  have hlength : stored.length = ref.bits / 8 := by rw [length_littleEndianBytes, hbytes]
  have hmeaning : operandMeaning s.mode bits m' (.memory ref) =
      (read + 1) % modulus (8 * size) := by
    rw [← littleEndian_littleEndianBytes, ← m.load_store_self _ (m.place bits ref), hlength]
    rfl
  have hread : (s.expr (.memory ref)).eval (s.lowered m' (.memory ref)) = read := by
    refine eval_lowered_store m href hbits ?_
    rw [hlength]
    exact hapart
  have htop := (h m').top
  rw [value_push m' hs le_rfl, hread, hmeaning, hslot] at htop
  have hdvd := (Nat.modEq_iff_dvd' (Nat.le_succ read)).1 htop
  rw [Nat.succ_sub (le_refl read), Nat.sub_self] at hdvd
  have htwo : modulus 1 ≤ modulus (8 * size) := modulus_le (by omega)
  have hone : modulus 1 = 2 := rfl
  exact absurd (Nat.le_of_dvd Nat.one_pos hdvd) (by omega)

/-- References that a push is always right with are not based on the stack pointer. -/
theorem base_ne_of_pushes (hle : size ≤ 4)
    (h : ∀ m, s.Pushes bits (.memory ref) m (m.run statements)) :
    ref.base ≠ some (stackPointer s.mode.bits) := by
  intro hbase
  refine not_apart_of_pushes href hbits hsize hpos hs h .blank (.inr ?_)
  have hplace := place_lowered .blank (.memory ref) href hbits hbase
  have hlt : (Machine.blank.place bits ref : Int) < modulus bits := by
    rw [Machine.cast_place]
    exact Int.emod_lt_of_pos _ (cast_modulus_pos bits)
  have hslot : s.slotBytes (.memory ref) = size := show ref.bits / 8 = size by omega
  have hmodulus : ∀ n ∈ [16, 32], (modulus n : Int) = 65536 ∨ (modulus n : Int) = 4294967296 := by
    decide
  simp only [readRegion, namedRegion]
  rw [← bits_eq_addressBits href hbits s.mode (.inl hbase), href.bits_base hbits _ hbase]
  rw [hslot] at hplace
  rcases hmodulus bits hbits with hvalue | hvalue
  · rw [hvalue] at hplace hlt
    omega
  · rw [hvalue] at hplace hlt
    omega

/-- References that a push is always right with are not too far for the mode. -/
theorem not_isFar_of_pushes (hle : size ≤ 4)
    (h : ∀ m, s.Pushes bits (.memory ref) m (m.run statements)) : ¬ ref.IsFar s.mode bits := by
  intro hfar
  obtain ⟨hmode, rfl⟩ := hfar.real16 href hbits
  obtain ⟨hbase, hindex, hne⟩ := hfar
  refine not_apart_of_pushes href hbits hsize hpos hs h .blank (.inr ?_)
  have hplace : ∀ (m : Machine) width, (m.place width ref : Int) =
      ref.displacement % modulus width := by
    intro m width
    rw [m.cast_place, hbase, hindex]
    simp [Machine.part]
  have hwidth : addressBits s.mode ref = 16 := by
    rw [addressBits, hbase, hindex, hmode]
    rfl
  have hread := hplace (s.lowered .blank (.memory ref)) 16
  have hnamed := hplace .blank 32
  rw [hmode] at hne
  have hword : (modulus 16 : Int) = 65536 := rfl
  have hdouble : (modulus 32 : Int) = 4294967296 := rfl
  simp only [readRegion, namedRegion, hwidth]
  rw [Mode.bits, hword, hdouble] at hne
  rw [hword] at hread
  rw [hdouble] at hnamed
  omega

end

/-- Moving the stack pointer by a slot moves it. -/
theorem add_slot_emod_ne {o : Operand} (ho : IsSlotOperand o) (value : Int) :
    (value + s.slotBytes o) % modulus (stackPointer s.mode.bits).bits ≠
      value % modulus (stackPointer s.mode.bits).bits := by
  intro h
  have hdvd := Int.ModEq.dvd (Int.ModEq.symm h)
  rw [add_sub_cancel_left, Int.natCast_dvd_natCast] at hdvd
  obtain ⟨hpos, hlt⟩ := ho.slotBytes_lt s
  exact absurd (Nat.le_of_dvd hpos hdvd) (by omega)

/-- A push of the stack pointer stores what it has lowered it to. -/
theorem ne_stackPointer_of_pushes {r : Register} {statements : List Stmt}
    (hr : IsSlotOperand (.register r)) (hs : s.pushStatements? [.register r] = some statements)
    (h : ∀ m, s.Pushes bits (.register r) m (m.run statements)) :
    r ≠ stackPointer s.mode.bits := by
  rintro rfl
  have hslot : 8 * s.slotBytes (.register (stackPointer s.mode.bits)) =
      (stackPointer s.mode.bits).bits := by
    unfold slotBytes
    cases s.mode <;> rfl
  have htop : (s.lowered .blank (.register (stackPointer s.mode.bits))).cell
      (.register (stackPointer s.mode.bits)) = 0 := by
    have hstored := (h .blank).top
    rw [value_push .blank hs le_rfl, hslot] at hstored
    rw [← Machine.cell_mod]
    exact hstored
  have hback := cell_moveStackPointer_neg s.mode .blank
    (s.slotBytes (.register (stackPointer s.mode.bits)))
  rw [lowered] at htop
  rw [htop, Machine.cell_blank] at hback
  exact add_slot_emod_ne hr 0 (hback.trans (Int.zero_emod _).symm)

/-! ## Pops -/

theorem pops_pop (m : Machine) {dst : Register} {statements : List Stmt}
    (hs : s.popStatements? [.register dst] = some statements)
    (hne : dst ≠ stackPointer s.mode.bits) : s.Pops dst m (m.run statements) where
  loaded := by
    rw [run_pop m hs, cell_moveStackPointer_of_ne _ _ hne, Machine.cell_set_self]
    rfl
  pointer _ := by
    rw [run_pop m hs, cell_moveStackPointer, Machine.cell_set_of_ne _ _ (by simpa using hne.symm)]
  other r hr hr' := by
    rw [run_pop m hs, cell_moveStackPointer_of_ne _ _ hr',
      Machine.cell_set_of_ne _ _ (by simpa using hr)]

/-- A pop of the stack pointer raises what it has loaded. -/
theorem cell_pop_stackPointer (m : Machine) {statements : List Stmt}
    (hs : s.popStatements? [.register (stackPointer s.mode.bits)] = some statements) :
    ((m.run statements).cell (.register (stackPointer s.mode.bits)) : Int) =
      (m.value (s.topRegion m (s.slotBytes (.register (stackPointer s.mode.bits)))) +
        s.slotBytes (.register (stackPointer s.mode.bits))) %
          modulus (stackPointer s.mode.bits).bits := by
  rw [run_pop m hs, cell_moveStackPointer, Machine.cell_set_self, Cell.fit, Int.natCast_mod,
    Int.emod_add_emod]

theorem ne_stackPointer_of_pops {dst : Register} {statements : List Stmt}
    (hdst : IsSlotOperand (.register dst))
    (hs : s.popStatements? [.register dst] = some statements)
    (h : ∀ m, s.Pops dst m (m.run statements)) : dst ≠ stackPointer s.mode.bits := by
  rintro rfl
  have hloaded := (h .blank).loaded
  have hraised := cell_pop_stackPointer .blank hs
  rw [hloaded, Int.natCast_mod] at hraised
  exact add_slot_emod_ne hdst _ hraised.symm

/-! ## On a run -/

/-- A push is right on every machine exactly if its operand is plain. -/
theorem pushes_push_iff {i : Instruction} {src : Operand} {statements : List Stmt}
    (hi : s.mode.Encodes i) (hoperation : i.operation = .push) (hoperands : i.operands = [src])
    (hs : s.pushStatements? [src] = some statements) :
    (∀ m, s.Pushes (s.mode.addressSize i.bytes) src m (m.run statements)) ↔
      IsPlainSource s.mode (s.mode.addressSize i.bytes) src := by
  have hsrc := hi.spelled src (by simp [hoperands])
  have hbits := s.mode.addressSize_mem i.bytes
  obtain ⟨src', hsame, size, hle, hsize, hslot⟩ := hi.size_push hoperation
  cases hoperands.symm.trans hsame
  refine ⟨fun h => ?_, fun hplain m => pushes_push hsrc hbits hsize hle hs m hslot hplain⟩
  obtain ⟨src', hsame, hkind⟩ := hi.operands_push hoperation
  cases hoperands.symm.trans hsame
  cases src with
  | register r =>
    rcases hkind with hr | ⟨value, bits, -, hr⟩
    · exact ne_stackPointer_of_pushes hr hs h
    · cases hr
  | memory ref =>
    have hwidth : ref.bits = 8 * size := Option.some.inj hsize
    have hpos : 0 < size := by
      rcases hkind with hr | ⟨value, bits, -, hr⟩
      · obtain ⟨-, bits, hmem, heq, -⟩ := hr.bits s.mode
        have hne : bits ≠ 0 := by
          rintro rfl
          simp at hmem
        cases hsize.symm.trans heq
        omega
      · cases hr
    exact ⟨base_ne_of_pushes hsrc hbits hwidth hpos hs hle h,
      not_isFar_of_pushes hsrc hbits hwidth hpos hs hle h⟩
  | immediate | address => trivial

/-- A push that is not merged with a pop, and every pop, have a cluster. That of a push lowers the
stack pointer by the operand's slot, changes no other register, and leaves the operand's value at
the new top of the stack, on every machine, exactly if the operand is plain. That of a pop into a
register loads it from the old top of the stack and raises the stack pointer by the slot, unless
that is what it has loaded, on every machine, exactly if the register is not the stack pointer. -/
theorem push_pop_iff {r : Run} {taken : Taken} {i : Instruction}
    (hr : r.Encoded s.mode) (hitem : r.item? = some taken) (hok : taken.item = .ok i) :
    (i.operation = .push →
      (∀ next, taken.rest.next? = some next → s.copy? i next.item = none) →
      ∃ src statements outcome r', i.operands = [src] ∧
        s.next? r = some (outcome, r') ∧
        outcome.result = .ok ⟨i.address, i.length, statements⟩ ∧
        (∀ m, s.Lowers src m (m.run statements)) ∧
        ((∀ m, s.Pushes (s.mode.addressSize i.bytes) src m (m.run statements)) ↔
          IsPlainSource s.mode (s.mode.addressSize i.bytes) src)) ∧
    (i.operation = .pop →
      ∃ dst statements outcome r', i.operands = [dst] ∧
        s.next? r = some (outcome, r') ∧
        outcome.result = .ok ⟨i.address, i.length, statements⟩ ∧
        ∀ reg, dst = .register reg →
          ((∀ m, s.Pops reg m (m.run statements)) ↔ reg ≠ stackPointer s.mode.bits)) := by
  have hi := (hr.item? hitem).1 i hok
  constructor
  · intro hoperation hsingle
    obtain ⟨src, hoperands, -⟩ := hi.operands_push hoperation
    have hs : s.statements? i = s.pushStatements? [src] := by
      rw [statements?, hoperation, hoperands]
    obtain ⟨outcome, r', hnext, hresult, -⟩ := next?_of_single hitem hok hs hsingle
    exact ⟨src, _, outcome, r', hoperands, hnext, hresult, fun m => lowers_push m rfl,
      pushes_push_iff hi hoperation hoperands rfl⟩
  · intro hoperation
    obtain ⟨dst, hoperands, hdst⟩ := hi.operands_pop hoperation
    obtain ⟨statements, hpop⟩ :=
      Option.ne_none_iff_exists'.1 (popStatements?_ne_none (s := s) hdst.isImmediate)
    have hs : s.statements? i = some statements := by
      rw [statements?, hoperation, hoperands, hpop]
    have hsingle : ∀ item, s.copy? i item = none := copy?_of_ne_push (by simp [hoperation])
    obtain ⟨outcome, r', hnext, hresult, -⟩ :=
      next?_of_single hitem hok hs fun next _ => hsingle next.item
    refine ⟨dst, statements, outcome, r', hoperands, hnext, hresult, ?_⟩
    rintro reg rfl
    exact ⟨ne_stackPointer_of_pops hdst hpop, fun hne m => pops_pop m hpop hne⟩

/-- `push [ebp + 8]` in protected mode is right on every machine. -/
theorem push_pop_iff_push_ebp_8 :
    let s : Setting := ⟨.protected32, .silent⟩
    let image : Image := ⟨⟨.flat .w32, 0x1000, by decide⟩, [0xFF, 0x75, 0x08]⟩
    let p : Progress := ⟨.initial (processor .protected32) none, .empty 32, none⟩
    let r : Run := .start p (.code .protected32 (.ofImage image .little))
    let argument : Operand := .memory ⟨some ebp, none, 1, 8, 32, none⟩
    ∃ statements outcome r', s.next? r = some (outcome, r') ∧
      outcome.result = .ok ⟨image.addressAt 0, 3, statements⟩ ∧
      ∀ m, s.Pushes 32 argument m (m.run statements) := by
  intro s image p r argument
  have hr : r.Encoded s.mode := (Run.resumes_start _ _).encoded rfl
  obtain ⟨taken, i, hitem, hok, hend, hoperation, hoperands, hbytes, haddress⟩ : ∃ taken i,
      r.item? = some taken ∧ taken.item = .ok i ∧ taken.rest.next? = none ∧
        i.operation = .push ∧ i.operands = [argument] ∧ i.bytes = image.bytes ∧
          i.address = image.addressAt 0 :=
    ⟨_, _, rfl, rfl, rfl, rfl, by decide +kernel, by decide +kernel, rfl⟩
  have hsingle : ∀ next, taken.rest.next? = some next → s.copy? i next.item = none := by
    intro next hnext
    cases hend.symm.trans hnext
  obtain ⟨src, statements, outcome, r', hsrc, hnext, hresult, -, hiff⟩ :=
    (push_pop_iff hr hitem hok).1 hoperation hsingle
  cases hsrc.symm.trans hoperands
  have hbits : s.mode.addressSize i.bytes = 32 := by
    rw [hbytes]
    decide
  have hplain : IsPlainSource s.mode 32 argument := ⟨by decide, by decide⟩
  rw [hbits] at hiff
  rw [Instruction.length, hbytes, haddress] at hresult
  exact ⟨statements, outcome, r', hnext, hresult, hiff.2 hplain⟩

/-- `push esp` on the blank machine in protected mode stores what it has lowered `esp` to. -/
theorem push_esp_stores_lowered :
    let s : Setting := ⟨.protected32, .silent⟩
    let image : Image := ⟨⟨.flat .w32, 0x1000, by decide⟩, [0x54]⟩
    let p : Progress := ⟨.initial (processor .protected32) none, .empty 32, none⟩
    let r : Run := .start p (.code .protected32 (.ofImage image .little))
    ∃ statements outcome r', s.next? r = some (outcome, r') ∧
      outcome.result = .ok ⟨image.addressAt 0, 1, statements⟩ ∧
      Machine.blank.cell (.register esp) = 0 ∧
      (Machine.blank.run statements).value (s.topRegion (Machine.blank.run statements) 4) =
        0xFFFFFFFC := by
  intro s image p r
  obtain ⟨taken, i, hitem, hok, hend, hoperation, hoperands, haddress, hlength⟩ : ∃ taken i,
      r.item? = some taken ∧ taken.item = .ok i ∧ taken.rest.next? = none ∧
        i.operation = .push ∧ i.operands = [.register esp] ∧
          i.address = image.addressAt 0 ∧ i.length = 1 :=
    ⟨_, _, rfl, rfl, rfl, rfl, rfl, rfl, rfl⟩
  have hs : s.statements? i = s.pushStatements? [.register esp] := by
    rw [statements?, hoperation, hoperands]
  have hsingle : ∀ next, taken.rest.next? = some next → s.copy? i next.item = none := by
    intro next hnext
    cases hend.symm.trans hnext
  obtain ⟨outcome, r', hnext, hresult, -⟩ := next?_of_single hitem hok hs hsingle
  rw [haddress, hlength] at hresult
  exact ⟨_, outcome, r', hnext, hresult, rfl, by decide +kernel⟩

end Setting

end CodeLift.X86
