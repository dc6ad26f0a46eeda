-- SUMMARY: The memory references that bytes can spell, and the places in memory that they name.
import CodeLift.Proofs.Rtl.Regions
import CodeLift.Proofs.X86.RegisterConstants

/-!
# Memory references

A memory reference names the place `base + index * scale + displacement` of a
segment, in addresses of as many bits as the instruction's address size says. The
address expression has no such size to go by: it takes the width of the registers,
and the mode's where there are none. `eval_effectiveAddress` says which place it
comes to, and `place_addressBits` that this is the place named, unless the reference
is absolute and its displacement too long for the mode.
-/

namespace CodeLift

/-! ## Places -/

/-- The value of a register that may be absent. -/
def Machine.part (m : Machine) (r : Option Register) : Nat :=
  r.elim 0 fun r => m.cell (.register r)

/-- The place that a memory reference names, in addresses of `bits` bits. -/
def Machine.place (m : Machine) (bits : Nat) (ref : MemoryRef) : Nat :=
  ((m.part ref.base + m.part ref.index * ref.scale + ref.displacement : Int) % modulus bits).toNat

theorem Machine.cast_place (m : Machine) (bits : Nat) (ref : MemoryRef) :
    (m.place bits ref : Int) =
      (m.part ref.base + m.part ref.index * ref.scale + ref.displacement) % modulus bits :=
  Int.toNat_of_nonneg (Int.emod_nonneg _ (cast_modulus_pos bits).ne')

namespace X86

/-- The segment register that a memory reference goes through in the processor. -/
def segmentRegister : Mode → MemoryRef → Option Register
  | .protected32, ref => ref.segment
  | .real16, ref =>
    some (ref.segment.getD (if ref.base ∈ [some sp, some esp, some bp, some ebp] then ss else ds))

/-! ## Address sizes -/

/-- The bytes that may stand before an opcode. -/
def prefixBytes : List UInt8 :=
  [0xF0, 0xF2, 0xF3, 0x26, 0x2E, 0x36, 0x3E, 0x64, 0x65, 0x66, 0x67]

/-- The size of addresses in the instruction that the bytes spell. -/
def Mode.addressSize (mode : Mode) (bytes : List UInt8) : Nat :=
  if 0x67 ∈ bytes.takeWhile (· ∈ prefixBytes) then otherSize mode.bits else mode.bits

theorem Mode.addressSize_mem (mode : Mode) (bytes : List UInt8) :
    mode.addressSize bytes ∈ [16, 32] := by
  unfold addressSize
  split <;> cases mode <;> decide

theorem Prefixes.note?_eq_none {p : Prefixes} {b : UInt8} (h : p.note? b = .none) :
    b ∉ prefixBytes := by
  intro hb
  simp only [prefixBytes, List.mem_cons, List.not_mem_nil, or_false] at hb
  rcases hb with rfl | rfl | rfl | rfl | rfl | rfl | rfl | rfl | rfl | rfl | rfl <;> cases h

theorem Prefixes.note?_eq_some {p p' : Prefixes} {b : UInt8} (h : p.note? b = some p') :
    b ∈ prefixBytes ∧ (p'.addressSize = true ↔ b = 0x67 ∨ p.addressSize = true) ∧
      ((∀ r ∈ p.segment, r ∈ segments) → ∀ r ∈ p'.segment, r ∈ segments) := by
  have hbyte : ∀ n : Nat, b.toNat = n → b = UInt8.ofNat n := by
    rintro n rfl
    exact UInt8.ofNat_toNat.symm
  unfold note? at h
  split at h
  case h_12 => cases h
  all_goals
    next hb =>
    cases h
    rw [hbyte _ hb]
    exact ⟨by decide, by simp, by simp [segments]⟩

/-- The prefixes that have been read are those in front of the opcode. -/
theorem Decoding.prefixes_opcodeFrom {p p' : Prefixes} {opcode : UInt8}
    {taken rest : List UInt8} {c : Cursor}
    (h : opcodeFrom p taken rest = .ok ((p', opcode), c)) :
    (p'.addressSize = true ↔
      0x67 ∈ rest.takeWhile (· ∈ prefixBytes) ∨ p.addressSize = true) ∧
      ((∀ r ∈ p.segment, r ∈ segments) → ∀ r ∈ p'.segment, r ∈ segments) := by
  induction rest generalizing p taken with
  | nil => cases h
  | cons b rest ih =>
    unfold opcodeFrom at h
    cases hnote : p.note? b with
    | some q =>
      rw [hnote] at h
      obtain ⟨hb, hsize, hsegment⟩ := Prefixes.note?_eq_some hnote
      obtain ⟨hsize', hsegment'⟩ := ih h
      refine ⟨?_, fun hp => hsegment' (hsegment hp)⟩
      rw [hsize', hsize, List.takeWhile_cons_of_pos (by simpa using hb), List.mem_cons, or_assoc,
        or_left_comm, eq_comm]
    | none =>
      rw [hnote] at h
      cases h
      have hb := Prefixes.note?_eq_none hnote
      rw [List.takeWhile_cons_of_neg (by simpa using hb)]
      exact ⟨by simp, id⟩

end X86

/-! ## References that bytes spell -/

/-- The registers, the displacement and the segment register are such as bytes can spell, with
addresses of `bits` bits. -/
structure MemoryRef.Spelled (bits : Nat) (ref : MemoryRef) : Prop where
  base : ∀ r ∈ ref.base, ∃ n < 8, r = X86.general n bits
  /-- The number 4 stands for no index. -/
  index : ∀ r ∈ ref.index, ∃ n < 8, n ≠ 4 ∧ r = X86.general n bits
  scale : 1 ≤ ref.scale
  /-- Alone, a displacement of 16 bits is unsigned. -/
  displacement : bits = 16 → ref.base = none →
    ref.index = none ∧ ref.displacement % modulus 16 = ref.displacement
  segment : ∀ r ∈ ref.segment, r ∈ X86.segments

/-- The operand is no memory reference, or one that bytes can spell. -/
def Operand.Spelled (bits : Nat) : Operand → Prop
  | .memory ref => ref.Spelled bits
  | _ => True

namespace X86

/-! ## Operands of bodies -/

section

variable {P : Operand → Prop}

/-- All operands of the body are such. -/
def Body.Each (P : Operand → Prop) : Body → Prop
  | .plain _ _ operands _ => ∀ o ∈ operands, P o
  | .relative _ _ => True

theorem Body.each_one {mnemonic : String} {operation : Operation} {o : Operand} {flow : Flow}
    (ho : P o) : (Body.plain mnemonic operation [o] flow).Each P := by
  simpa [Body.Each] using ho

theorem Body.each_two {mnemonic : String} {operation : Operation} {dst src : Operand}
    {flow : Flow} (hdst : P dst) (hsrc : P src) :
    (Body.plain mnemonic operation [dst, src] flow).Each P := by
  simpa [Body.Each] using And.intro hdst hsrc

theorem Body.Each.place {body : Body} (h : body.Each P) (haddress : ∀ a, P (.address a))
    (a : Address) (bytes : List UInt8) : ∀ o ∈ (body.place a bytes).operands, P o := by
  cases body with
  | plain => exact h
  | relative transfer distance => cases transfer <;> simp [Body.place, haddress]

namespace Decoding

variable {sizes : Sizes} (hplain : ∀ o : Operand, o.isMemory = false → P o)
  (hrm : ∀ {m : ModRM}, m.rm < 8 → ∀ bank, Ensures (rmOperand sizes m bank) P)

include hplain hrm

theorem each_pair (bank : Bank) (toRegister : Bool) :
    Ensures (pair sizes bank toRegister) fun operands =>
      ∃ dst src, operands = [dst, src] ∧ P dst ∧ P src := by
  refine ensures_modRM.bind fun m ⟨_, hm⟩ => ?_
  refine (hrm hm bank).map fun rm hrm => ?_
  cases toRegister with
  | true => exact ⟨_, _, rfl, hplain _ rfl, hrm⟩
  | false => exact ⟨_, _, rfl, hrm, hplain _ rfl⟩

theorem each_secondBody (form : SecondForm) :
    Ensures (secondBody sizes form) (Body.Each P) := by
  cases form with
  | branchNear condition => exact (ensures_signed _).map fun _ _ => trivial
  | exclusiveOr =>
    refine (each_pair hplain hrm _ true).map ?_
    rintro _ ⟨dst, src, rfl, hdst, hsrc⟩
    exact Body.each_two hdst hsrc

/-- What holds of the operands that a ModR/M byte names, and of all that are no memory references,
holds of every operand. -/
theorem each_body (form : Form) : Ensures (body sizes form) (Body.Each P) := by
  cases form with
  | alu op narrow toRegister =>
    refine (each_pair hplain hrm _ toRegister).map ?_
    rintro _ ⟨dst, src, rfl, hdst, hsrc⟩
    exact Body.each_two hdst hsrc
  | aluAccumulator op narrow =>
    exact (ensures_signed _).map fun _ _ => Body.each_two (hplain _ rfl) (hplain _ rfl)
  | aluImmediate narrow short =>
    refine ensures_modRM.bind fun m ⟨_, hm⟩ => ?_
    refine (hrm hm _).bind fun rm hdst => ?_
    exact (ensures_signed _).map fun _ _ => Body.each_two hdst (hplain _ rfl)
  | pushSegment number | popSegment number =>
    simp only [body]
    split
    · exact .pure (Body.each_one (hplain _ rfl))
    · exact ensures_unknownOpcode
  | pushRegister number | popRegister number => exact .pure (Body.each_one (hplain _ rfl))
  | pushImmediate short =>
    exact (ensures_signed _).map fun _ _ => Body.each_one (hplain _ rfl)
  | popOperand =>
    refine ensures_modRM.bind fun m ⟨_, hm⟩ => ?_
    split
    · exact ensures_fail (by simp [Fault.IsFinal])
    · exact (hrm hm _).map fun rm hdst => Body.each_one hdst
  | move narrow toRegister =>
    refine (each_pair hplain hrm _ toRegister).map ?_
    rintro _ ⟨dst, src, rfl, hdst, hsrc⟩
    exact Body.each_two hdst hsrc
  | moveSegment toSegment =>
    refine ensures_modRM.bind fun m ⟨_, hm⟩ => ?_
    split
    · exact ensures_fail (by simp [Fault.IsFinal])
    · refine (hrm hm _).map fun rm hrm => ?_
      cases toSegment with
      | true => exact Body.each_two (hplain _ rfl) hrm
      | false => exact Body.each_two hrm (hplain _ rfl)
  | moveImmediate number narrow =>
    exact (ensures_signed _).map fun _ _ => Body.each_two (hplain _ rfl) (hplain _ rfl)
  | moveImmediateOperand narrow =>
    refine ensures_modRM.bind fun m ⟨_, hm⟩ => ?_
    split
    · exact ensures_fail (by simp [Fault.IsFinal])
    · refine (hrm hm _).bind fun rm hdst => ?_
      exact (ensures_signed _).map fun _ _ => Body.each_two hdst (hplain _ rfl)
  | branchShort condition => exact (ensures_signed _).map fun _ _ => trivial
  | call => exact (ensures_signed _).map fun _ _ => trivial
  | jump short => exact (ensures_signed _).map fun _ _ => trivial
  | ret popsMore =>
    cases popsMore with
    | true => exact (ensures_signed 16).map fun _ _ => Body.each_one (hplain _ rfl)
    | false => exact .pure (by simp [Body.Each])
  | nop => exact .pure (by simp [Body.sequential, Body.Each])
  | indirect =>
    refine ensures_modRM.bind fun m ⟨_, hm⟩ => ?_
    refine (hrm hm _).bind fun rm htarget => ?_
    split
    · exact .pure (Body.each_one htarget)
    · exact .pure (Body.each_one htarget)
    · exact .pure (Body.each_one htarget)
    · exact ensures_fail (by simp [Fault.IsFinal])
  | secondMap =>
    refine ensures_byte.bind fun b _ => ?_
    split
    · exact each_secondBody hplain hrm _
    · exact ensures_unknownOpcode

end Decoding

end

/-! ## Spelling -/

/-- The sizes are such as prefixes can select. -/
structure Sizes.Selected (sizes : Sizes) : Prop where
  address : sizes.address ∈ [16, 32]
  segment : ∀ r ∈ sizes.segment, r ∈ segments

namespace Decoding

variable {sizes : Sizes}

/-- The registers of a 16-bit reference are general ones. -/
theorem general_registers16 (rm : Nat) :
    (∃ n < 8, (registers16 rm).1 = general n 16) ∧
      ∀ r ∈ (registers16 rm).2, ∃ n < 8, n ≠ 4 ∧ r = general n 16 := by
  unfold registers16
  split <;> decide

theorem spelled_memory16 (m : ModRM) (bits : Nat) :
    Ensures (memory16 m bits) (MemoryRef.Spelled 16) := by
  unfold memory16
  split
  · refine (ensures_signed 16).map fun place _ => ?_
    exact ⟨by simp, by simp, le_rfl, fun _ _ => ⟨rfl, Int.emod_emod _ _⟩, by simp⟩
  · refine (ensures_displacement m.mode 16).map fun place _ => ?_
    obtain ⟨hbase, hindex⟩ := general_registers16 m.rm
    exact ⟨fun _ hr => Option.some.inj hr ▸ hbase, hindex, le_rfl, nofun, nofun⟩

theorem spelled_memory32Based (mode bits scale : Nat) {base : Nat} {index : Option Register}
    (hbase : base < 8) (hindex : ∀ r ∈ index, ∃ n < 8, n ≠ 4 ∧ r = general n 32)
    (hscale : 1 ≤ scale) :
    Ensures (memory32Based mode base bits index scale) (MemoryRef.Spelled 32) := by
  unfold memory32Based
  split
  · refine (ensures_signed 32).map fun place _ => ?_
    exact ⟨by simp, hindex, hscale, by simp, by simp⟩
  · refine (ensures_displacement mode 32).map fun place _ => ?_
    exact ⟨by simpa using ⟨base, hbase, rfl⟩, hindex, hscale, by simp, by simp⟩

theorem spelled_memory32 {m : ModRM} (hrm : m.rm < 8) (bits : Nat) :
    Ensures (memory32 m bits) (MemoryRef.Spelled 32) := by
  unfold memory32
  split
  · refine ensures_byte.bind fun b _ => ?_
    have hbase : (Sib.ofByte b).base < 8 := Nat.mod_lt _ (by decide)
    have hnumber : (Sib.ofByte b).index < 8 := Nat.mod_lt _ (by decide)
    have hscale : 1 ≤ (Sib.ofByte b).scale := by
      change 1 ≤ 1 <<< _
      rw [Nat.one_shiftLeft]
      exact Nat.one_le_two_pow
    dsimp only
    split
    · exact spelled_memory32Based _ _ _ hbase (by simp) le_rfl
    · next hindex =>
      exact spelled_memory32Based _ _ _ hbase (by simpa using ⟨_, hnumber, hindex, rfl⟩) hscale
  · exact spelled_memory32Based _ _ _ hrm (by simp) le_rfl

theorem spelled_rmOperand (h : sizes.Selected) {m : ModRM} (hrm : m.rm < 8) (bank : Bank) :
    Ensures (rmOperand sizes m bank) (Operand.Spelled sizes.address) := by
  unfold rmOperand
  split
  · exact .pure trivial
  · suffices hplace : Ensures _ (MemoryRef.Spelled sizes.address) from
      hplace.whole.map fun _ href =>
        ⟨href.base, href.index, href.scale, href.displacement, h.segment⟩
    have haddress := h.address
    simp only [List.mem_cons, List.not_mem_nil, or_false] at haddress
    rcases haddress with haddress | haddress
    · rw [if_pos haddress, haddress]
      exact spelled_memory16 m bank.bits
    · rw [if_neg (by omega), haddress]
      exact spelled_memory32 hrm bank.bits

theorem spelled_body (h : sizes.Selected) (form : Form) :
    Ensures (body sizes form) (Body.Each (Operand.Spelled sizes.address)) := by
  refine each_body (fun o ho => ?_) (fun hm bank => spelled_rmOperand h hm bank) form
  cases o with
  | memory ref => cases ho
  | register | immediate | address => trivial

/-- The prefixes in front of an opcode select the sizes. -/
theorem sizes_opcodeFrom {p : Prefixes} {opcode : UInt8} {bytes : List UInt8} {c : Cursor}
    (h : opcodeFrom .none [] bytes = .ok ((p, opcode), c)) (mode : Mode) :
    (p.sizes mode).Selected ∧ (p.sizes mode).address = mode.addressSize bytes := by
  obtain ⟨hsize, hsegment⟩ := prefixes_opcodeFrom h
  have haddress : (p.sizes mode).address = mode.addressSize bytes := by
    unfold Mode.addressSize Prefixes.sizes
    simp only [hsize, Prefixes.none, Bool.false_eq_true, or_false]
  refine ⟨⟨?_, hsegment (by simp [Prefixes.none])⟩, haddress⟩
  rw [haddress]
  exact mode.addressSize_mem bytes

end Decoding

/-- The memory operands of an encoded instruction are spelled in addresses of the size that mode
and prefixes select. -/
theorem Mode.Encodes.spelled {mode : Mode} {i : Instruction} (hi : mode.Encodes i) :
    ∀ o ∈ i.operands, o.Spelled (mode.addressSize i.bytes) := by
  obtain ⟨bytes, hdecode⟩ := hi
  obtain ⟨body, c, hrun, hplace⟩ := decode_eq_ok_iff.1 hdecode
  cases hopcode : Decoding.opcode ⟨[], bytes.take maxLength⟩ with
  | error fault =>
    rw [Decoding.instruction, Decoding.bind_of_error hopcode] at hrun
    cases hrun
  | ok r =>
    obtain ⟨⟨p, opcode⟩, c₁⟩ := r
    rw [Decoding.instruction, Decoding.bind_of_ok hopcode] at hrun
    dsimp only at hrun
    cases hform : Form.ofOpcode? opcode with
    | none =>
      rw [hform] at hrun
      cases hrun
    | some form =>
      rw [hform] at hrun
      obtain ⟨read, hreads, hsame⟩ := Decoding.opcodeFrom_eq_ok hopcode
      have hselected := (Decoding.sizes_opcodeFrom (hsame []) mode).1
      obtain ⟨hspelled, read', hreads', -⟩ := (Decoding.spelled_body hselected form).ok hrun
      have hbytes : i.bytes = read ++ read' := by
        rw [hplace, Body.bytes_place, hreads'.1, hreads.1, List.nil_append]
      rw [hbytes, ← (Decoding.sizes_opcodeFrom (hsame read') mode).2, hplace]
      exact hspelled.place (fun _ => trivial) _ _

end X86

/-! ## Address expressions -/

namespace MemoryRef

variable {bits : Nat} {ref : MemoryRef}

theorem Spelled.bits_base (h : ref.Spelled bits) (hbits : bits ∈ [16, 32]) :
    ∀ r ∈ ref.base, r.bits = bits := by
  intro r hr
  obtain ⟨n, hn, rfl⟩ := h.base r hr
  exact X86.bits_general (List.mem_cons_of_mem 8 hbits) hn

theorem Spelled.bits_index (h : ref.Spelled bits) (hbits : bits ∈ [16, 32]) :
    ∀ r ∈ ref.index, r.bits = bits := by
  intro r hr
  obtain ⟨n, hn, -, rfl⟩ := h.index r hr
  exact X86.bits_general (List.mem_cons_of_mem 8 hbits) hn

/-- The reference has no registers, and the mode's addresses are too short for its displacement. -/
def IsFar (mode : X86.Mode) (bits : Nat) (ref : MemoryRef) : Prop :=
  ref.base = none ∧ ref.index = none ∧
    ref.displacement % modulus mode.bits ≠ ref.displacement % modulus bits

instance (mode : X86.Mode) (bits : Nat) (ref : MemoryRef) : Decidable (ref.IsFar mode bits) :=
  inferInstanceAs (Decidable (_ ∧ _))

/-- Only in real mode can a reference be too far, with addresses of 32 bits. -/
theorem IsFar.real16 {mode : X86.Mode} (hfar : ref.IsFar mode bits) (h : ref.Spelled bits)
    (hbits : bits ∈ [16, 32]) : mode = .real16 ∧ bits = 32 := by
  obtain ⟨hbase, -, hne⟩ := hfar
  simp only [List.mem_cons, List.not_mem_nil, or_false] at hbits
  rcases hbits with rfl | rfl
  · have hdisplacement := (h.displacement rfl hbase).2
    have hword : (modulus 16 : Int) = 65536 := rfl
    have hdouble : (modulus 32 : Int) = 4294967296 := rfl
    cases mode with
    | real16 => exact absurd rfl hne
    | protected32 =>
      rw [X86.Mode.bits, hword, hdouble] at hne
      rw [hword] at hdisplacement
      omega
  · cases mode with
    | real16 => exact ⟨rfl, rfl⟩
    | protected32 => exact absurd rfl hne

end MemoryRef

namespace X86

variable {bits : Nat} {ref : MemoryRef}

/-- The address expression has the width of its registers, or the mode's if there are none. -/
theorem addressBits_eq (h : ref.Spelled bits) (hbits : bits ∈ [16, 32]) (mode : Mode) :
    addressBits mode ref = bits ∨
      ref.base = none ∧ ref.index = none ∧ addressBits mode ref = mode.bits := by
  unfold addressBits
  cases hbase : ref.base with
  | some r => exact .inl (h.bits_base hbits r hbase)
  | none =>
    cases hindex : ref.index with
    | some r => exact .inl (h.bits_index hbits r hindex)
    | none => exact .inr ⟨rfl, rfl, rfl⟩

theorem bits_eq_addressBits (h : ref.Spelled bits) (hbits : bits ∈ [16, 32]) (mode : Mode)
    {r : Register} (hr : r ∈ ref.base ∨ r ∈ ref.index) : r.bits = addressBits mode ref := by
  rcases addressBits_eq h hbits mode with hwidth | ⟨hbase, hindex, -⟩
  · rw [hwidth]
    exact hr.elim (h.bits_base hbits r) (h.bits_index hbits r)
  · simp [hbase, hindex] at hr

theorem addressBits_le (h : ref.Spelled bits) (hbits : bits ∈ [16, 32]) (mode : Mode) :
    addressBits mode ref ≤ 128 := by
  have hmode : mode.bits ≤ 128 := by cases mode <;> decide
  have hle : ∀ n ∈ [16, 32], n ≤ 128 := by decide
  rcases addressBits_eq h hbits mode with hwidth | ⟨-, -, hwidth⟩
  · rw [hwidth]
    exact hle bits hbits
  · rw [hwidth]
    exact hmode

theorem eval_scaledIndex (m : Machine) {scale width : Nat} (hscale : 1 ≤ scale)
    (hwidth : width ≤ 128) {r : Register} (hr : r.bits = width) :
    ((scaledIndex width scale r).eval m : Int) =
      m.cell (.register r) * scale % modulus width := by
  have hvalue : (scaledIndex width scale r).eval m =
      m.cell (.register r) * scale % modulus width := by
    unfold scaledIndex
    split
    · have hconstant : (Expr.constant (.ofNat width scale)).eval m = scale % modulus width := by
        rw [Constant.ofNat, Nat.min_eq_left hwidth, Expr.eval]
      rw [Expr.eval, hconstant, Expr.eval, BinaryOp.value_mul, Nat.mul_mod_mod]
    · rw [show scale = 1 by omega, Nat.mul_one, ← hr, m.cell_mod]
      rfl
  exact_mod_cast hvalue

/-- A displacement is added to whatever the expression comes to modulo its width. -/
theorem eval_displaced_of_eval {m : Machine} {e : Expr} {width : Nat} {value : Int}
    (hwidth : width ≤ 128) (he : (e.eval m : Int) = value % modulus width) (d : Int) :
    ((e.displaced d width).eval m : Int) = (value + d) % modulus width := by
  have hlt := Int.emod_lt_of_pos value (cast_modulus_pos width)
  rw [← he] at hlt
  rw [Expr.eval_displaced m hwidth (by exact_mod_cast hlt), he, Int.emod_add_emod]

/-- The address expression comes to the place that the reference names in addresses of the
expression's width. -/
theorem eval_effectiveAddress (m : Machine) (mode : Mode) (h : ref.Spelled bits)
    (hbits : bits ∈ [16, 32]) :
    (effectiveAddress mode ref).eval m = m.place (addressBits mode ref) ref := by
  rw [← Int.natCast_inj, m.cast_place]
  have hwidth := addressBits_le h hbits mode
  have hregister := fun r => @bits_eq_addressBits bits ref h hbits mode r
  unfold effectiveAddress
  generalize addressBits mode ref = width at hwidth hregister
  have hbased : ∀ r ∈ ref.base,
      ((Expr.register r).eval m : Int) = m.cell (.register r) % modulus width := by
    intro r hr
    rw [Expr.eval, ← hregister r (.inl hr), ← Int.natCast_mod, m.cell_mod]
  have hindexed : ∀ r ∈ ref.index, ((scaledIndex width ref.scale r).eval m : Int) =
      m.cell (.register r) * ref.scale % modulus width :=
    fun r hr => eval_scaledIndex m h.scale hwidth (hregister r (.inr hr))
  cases hbase : ref.base with
  | none =>
    cases hindex : ref.index with
    | none =>
      have hmod := Int.emod_nonneg ref.displacement (cast_modulus_pos width).ne'
      simp [Expr.eval, Constant.ofInt, Nat.min_eq_left hwidth, Machine.part, hmod]
    | some i =>
      refine (eval_displaced_of_eval hwidth (hindexed i hindex) _).trans ?_
      simp [Machine.part]
  | some b =>
    cases hindex : ref.index with
    | none =>
      refine (eval_displaced_of_eval hwidth (hbased b hbase) _).trans ?_
      simp [Machine.part]
    | some i =>
      have hsum : ((Expr.binary .add (.register b) (scaledIndex width ref.scale i) width).eval m :
          Int) = (m.cell (.register b) + m.cell (.register i) * ref.scale) % modulus width := by
        rw [Expr.eval, BinaryOp.value_add, hindexed i hindex, Expr.eval, Int.add_emod_emod]
      refine (eval_displaced_of_eval hwidth hsum _).trans ?_
      simp [Machine.part]

/-- The place is the one that the reference names, unless that is too far for the mode. -/
theorem place_addressBits (m : Machine) {mode : Mode} (h : ref.Spelled bits)
    (hbits : bits ∈ [16, 32]) (hnear : ¬ ref.IsFar mode bits) :
    m.place (addressBits mode ref) ref = m.place bits ref := by
  rcases addressBits_eq h hbits mode with hwidth | ⟨hbase, hindex, hwidth⟩
  · rw [hwidth]
  · have hsame : ref.displacement % modulus mode.bits = ref.displacement % modulus bits := by
      by_contra hne
      exact hnear ⟨hbase, hindex, hne⟩
    simp [Machine.place, Machine.part, hbase, hindex, hwidth, hsame]

/-- The segment register is the one that is asked for, or the one that the mode and the base
imply. -/
theorem segmentOf_eq (mode : Mode) (h : ref.Spelled bits) (hbits : bits ∈ [16, 32]) :
    segmentOf mode ref = segmentRegister mode ref := by
  have hstack : ∀ bits ∈ [16, 32], ∀ n < 8,
      ((isFramePointer (general n bits) || isStackPointer (general n bits)) = true ↔
        some (general n bits) ∈ [some sp, some esp, some bp, some ebp]) := by decide
  cases mode with
  | protected32 => cases hsegment : ref.segment <;> simp [segmentOf, segmentRegister, hsegment]
  | real16 =>
    cases hsegment : ref.segment with
    | some r => simp [segmentOf, segmentRegister, hsegment]
    | none =>
      cases hbase : ref.base with
      | none => simp [segmentOf, segmentRegister, hsegment, hbase]
      | some r =>
        obtain ⟨n, hn, rfl⟩ := h.base r hbase
        have hcase := hstack bits hbits n hn
        simp only [segmentOf, segmentRegister, hsegment, hbase, Option.any_some, hcase]
        split <;> rfl

/-! ## Operands -/

/-- The value of an operand in the processor, with addresses of `bits` bits. -/
def operandMeaning (mode : Mode) (bits : Nat) (m : Machine) : Operand → Nat
  | .register r => m.cell (.register r)
  | .immediate value width => (value % modulus width).toNat
  | .memory ref =>
    m.value ⟨m.selector (segmentRegister mode ref), m.place bits ref, ref.bits / 8⟩
  | .address a => a.linear

/-- The expression of an operand has the operand's value, unless the operand is too far for the
mode. -/
theorem eval_operandExpr (m : Machine) {mode : Mode} {o : Operand} {width : Nat}
    (ho : o.Spelled bits) (hbits : bits ∈ [16, 32]) (hsize : o.bits? = some width)
    (hwidth : width ≤ 128) (hnear : ∀ ref, o = .memory ref → ¬ ref.IsFar mode bits) :
    (operandExpr mode o).eval m = operandMeaning mode bits m o := by
  cases o with
  | register r => rfl
  | immediate value width =>
    cases hsize
    rw [operandExpr, Constant.ofInt, Expr.eval, Nat.min_eq_left hwidth, operandMeaning]
  | memory ref =>
    rw [operandExpr, memoryExpr, Expr.eval, eval_effectiveAddress m mode ho hbits,
      place_addressBits m ho hbits (hnear ref rfl), segmentOf_eq mode ho hbits]
    rfl
  | address a => rfl

/-- An operand has a value of its width. -/
theorem operandMeaning_lt (mode : Mode) (bits : Nat) (m : Machine) {o : Operand} {size : Nat}
    (hsize : o.bits? = some (8 * size)) : operandMeaning mode bits m o < modulus (8 * size) := by
  cases o with
  | register r =>
    rw [← Option.some.inj hsize]
    exact m.cell_lt r
  | immediate value width =>
    have hpos := cast_modulus_pos width
    have hlow := Int.emod_nonneg value hpos.ne'
    have hhigh := Int.emod_lt_of_pos value hpos
    rw [← Option.some.inj hsize, operandMeaning]
    omega
  | memory ref =>
    have hbytes : ref.bits / 8 = size := by
      rw [Option.some.inj hsize]
      omega
    rw [operandMeaning, Machine.value, hbytes, ← m.load_mod _ _ le_rfl]
    exact Nat.mod_lt _ (modulus_pos _)
  | address a => cases hsize

end X86

end CodeLift
