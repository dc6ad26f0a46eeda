-- SUMMARY: The segment and the place that the expression of a memory operand comes to.
import CodeLift.Proofs.X86.EffectiveSizes
import CodeLift.Proofs.X86.PrefixCode
import Mathlib.Data.List.TakeWhile

/-!
# Effective addresses

The prefixes of an instruction select the size of its addresses and may override the
segment, the last override of several. The address expression of a memory operand comes to
`base + index * scale + displacement` modulo that size, with one exception: the expression
has the width of its registers, and where there are none, that of the mode. So in real mode
with addresses of 32 bits, a displacement alone is cut to 16 bits (`memory_operand_iff`).
-/

namespace CodeLift.X86

variable {mode : Mode} {i : Instruction} {ref : MemoryRef}

/-! ## Prefixes of an instruction -/

/-- The prefix bytes stand before the first other byte, which is the opcode. -/
def prefixesOf (bytes : List UInt8) : List UInt8 := bytes.takeWhile (· ∈ prefixBytes)

/-- Behind its prefixes an instruction is spelled in the sizes that they select. -/
theorem Mode.Encodes.unprefixed (hi : mode.Encodes i) :
    let prefixes := prefixesOf i.bytes
    ∃ rest body c,
      Decoding.unprefixed ⟨mode.selectedSize 0x66 prefixes, mode.selectedSize 0x67 prefixes,
        lastOverride prefixes, decide (0x66 ∈ prefixes)⟩ ⟨[], rest⟩ = .ok (body, c) ∧
      i = body.place i.address (prefixes ++ c.taken) := by
  intro prefixes
  obtain ⟨bytes, hdecode⟩ := hi
  let rest := i.bytes.dropWhile (· ∈ prefixBytes)
  have hsplit : prefixes ++ rest = i.bytes := List.takeWhile_append_dropWhile
  have hprefixes : ∀ b ∈ prefixes, b ∈ prefixBytes := by
    intro b hb
    simpa using List.mem_takeWhile_imp hb
  have hrest : ∀ b ∈ rest.head?, b ∉ prefixBytes := by
    intro b hb
    have hhead := List.head?_dropWhile_not (· ∈ prefixBytes) i.bytes
    rw [show (i.bytes.dropWhile (· ∈ prefixBytes)).head? = some b from hb] at hhead
    simpa using hhead
  have hlength : prefixes.length + rest.length ≤ maxLength := by
    rw [← List.length_append, hsplit]
    exact Nat.le_trans (length_le hdecode) (Nat.min_le_left _ _)
  have hself := decode_append hdecode []
  rw [List.append_nil, ← hsplit, decode_append_prefixes i.address hprefixes hrest hlength,
    Prefixes.sizes_noteAll mode hprefixes] at hself
  split at hself
  · next body c hrun => exact ⟨rest, body, c, hrun, (Except.ok.inj hself).symm⟩
  · cases hself

/-! ## Segments -/

/-- The operand is no memory reference, or it has this segment override. -/
def HasOverride (segment : Option Register) (o : Operand) : Prop :=
  ∀ ref, o = .memory ref → ref.segment = segment

namespace Decoding

variable {sizes : Sizes}

theorem hasOverride_rmOperand (m : ModRM) (bank : Bank) :
    Ensures (rmOperand sizes m bank) (HasOverride sizes.segment) := by
  unfold rmOperand
  split
  · refine .pure fun ref href => ?_
    cases href
  · have hplace : Ensures
        (if sizes.address = 16 then memory16 m bank.bits else memory32 m bank.bits)
        fun place => place.bits = bank.bits := by
      split
      · exact ensures_memory16 m bank.bits
      · exact ensures_memory32 m bank.bits
    refine hplace.whole.map fun place _ => ?_
    rintro _ ⟨⟩
    rfl

theorem hasOverride_unprefixed :
    Ensures (unprefixed sizes) (Body.Each (HasOverride sizes.segment)) := by
  refine ensures_byte.bind fun b _ => ?_
  split
  · refine each_body (fun o ho => ?_) (fun _ bank => hasOverride_rmOperand _ bank) _
    rintro ref rfl
    cases ho
  · exact ensures_unknownOpcode

end Decoding

/-- Of several segment overrides the last one counts. -/
theorem Mode.Encodes.segment (hi : mode.Encodes i) (href : .memory ref ∈ i.operands) :
    ref.segment = lastOverride (prefixesOf i.bytes) := by
  obtain ⟨rest, body, c, hrun, hplace⟩ := hi.unprefixed
  have heach := (Decoding.hasOverride_unprefixed.ok hrun).1
  have haddress : ∀ a, HasOverride (lastOverride (prefixesOf i.bytes)) (.address a) := by
    intro a ref href
    cases href
  rw [hplace] at href
  exact heach.place haddress _ _ _ href ref rfl

/-! ## Places -/

theorem addressBits_of_no_registers (mode : Mode) (hbase : ref.base = none)
    (hindex : ref.index = none) : addressBits mode ref = mode.bits := by
  rw [addressBits, hbase, hindex]
  rfl

theorem place_of_no_registers (m : Machine) (bits : Nat) (hbase : ref.base = none)
    (hindex : ref.index = none) :
    (m.place bits ref : Int) = ref.displacement % modulus bits := by
  rw [m.cast_place, Machine.part, Machine.part, hbase, hindex]
  simp

/-- The expression comes to the place in addresses of `bits` bits, unless that is too far for the
mode. -/
theorem eval_effectiveAddress_iff {bits : Nat} (h : ref.Spelled bits) (hbits : bits ∈ [16, 32])
    (mode : Mode) :
    (∀ m : Machine, (effectiveAddress mode ref).eval m = m.place bits ref) ↔
      ¬ ref.IsFar mode bits := by
  constructor
  · rintro heval ⟨hbase, hindex, hne⟩
    have hcut := eval_effectiveAddress .blank mode h hbits
    rw [heval, addressBits_of_no_registers mode hbase hindex, ← Int.natCast_inj,
      place_of_no_registers _ _ hbase hindex, place_of_no_registers _ _ hbase hindex] at hcut
    exact hne hcut.symm
  · intro hnear m
    rw [eval_effectiveAddress m mode h hbits, place_addressBits m h hbits hnear]

/-- Of the segment overrides before a memory operand the last one counts, and the expression of the
operand goes through the segment register that the processor takes. It comes to
`base + index * scale + displacement` modulo the address size unless the reference is too far for the
mode: in real mode, with addresses of 32 bits and without registers, the displacement is cut to 16
bits. -/
theorem memory_operand_iff {a : Address} {bytes : List UInt8} (h : decode mode a bytes = .ok i)
    (href : .memory ref ∈ i.operands) :
    let prefixes := prefixesOf i.bytes
    let size := mode.selectedSize 0x67 prefixes
    ref.segment = lastOverride prefixes ∧
    ∃ place, operandExpr mode (.memory ref) = .memory (segmentRegister mode ref) place ref.bits ∧
      ((∀ m : Machine, place.eval m = m.place size ref) ↔ ¬ ref.IsFar mode size) ∧
      (ref.IsFar mode size →
        mode = .real16 ∧ size = 32 ∧ ∀ m : Machine, place.eval m = m.place 16 ref) := by
  intro prefixes size
  obtain rfl : i.address = a := (decode_eq_ok h).1
  have hi : mode.Encodes i := ⟨bytes, h⟩
  have hspelled : ref.Spelled size := hi.spelled _ href
  have hsize : size ∈ [16, 32] := mode.addressSize_mem i.bytes
  refine ⟨hi.segment href, effectiveAddress mode ref, ?_,
    eval_effectiveAddress_iff hspelled hsize mode, fun hfar => ?_⟩
  · rw [operandExpr, memoryExpr, segmentOf_eq mode hspelled hsize]
  · obtain ⟨rfl, hwide⟩ := hfar.real16 hspelled hsize
    refine ⟨rfl, hwide, fun m => ?_⟩
    rw [eval_effectiveAddress m .real16 hspelled hsize,
      addressBits_of_no_registers .real16 hfar.1 hfar.2.1]
    rfl

/-- In protected mode `mov eax, es:[bp - 2]` has addresses of 16 bits; of its two segment overrides
the last one counts. -/
theorem memory_operand_iff_two_overrides :
    let bytes : List UInt8 := [0x36, 0x67, 0x26, 0x8B, 0x46, 0xFE]
    let ref : MemoryRef := ⟨some bp, none, 1, -2, 32, some es⟩
    ∃ i, decode .protected32 ⟨.flat .w32, 0x1000, by decide⟩ bytes = .ok i ∧
      .memory ref ∈ i.operands ∧
      some es = lastOverride (prefixesOf i.bytes) ∧
      ∃ place, operandExpr .protected32 (.memory ref) = .memory (some es) place 32 ∧
        ∀ m : Machine, place.eval m = m.place 16 ref := by
  intro bytes ref
  let i : Instruction := ⟨⟨.flat .w32, 0x1000, by decide⟩, bytes, "mov", .move,
    [.register eax, .memory ref], .sequential⟩
  have hdecode : decode .protected32 ⟨.flat .w32, 0x1000, by decide⟩ bytes = .ok i := by
    decide +kernel
  have href : .memory ref ∈ i.operands := List.mem_cons_of_mem _ List.mem_cons_self
  have hsize : Mode.protected32.selectedSize 0x67 (prefixesOf bytes) = 16 := rfl
  obtain ⟨hsegment, place, hexpr, hplace, -⟩ := memory_operand_iff hdecode href
  rw [hsize] at hplace
  exact ⟨i, hdecode, href, hsegment, place, hexpr,
    hplace.2 fun hfar => absurd hfar.1 (by decide)⟩

/-- In real mode `mov ax, [10000]` with addresses of 32 bits reads the word at 0. -/
theorem memory_operand_cut_in_real_mode :
    let bytes : List UInt8 := [0x67, 0x8B, 0x05, 0x00, 0x00, 0x01, 0x00]
    let ref : MemoryRef := ⟨none, none, 1, 0x10000, 16, none⟩
    ∃ i, decode .real16 ⟨.segment 0x0C00, 0, by decide⟩ bytes = .ok i ∧
      .memory ref ∈ i.operands ∧
      Mode.real16.selectedSize 0x67 (prefixesOf i.bytes) = 32 ∧
      ∃ place, operandExpr .real16 (.memory ref) = .memory (some ds) place 16 ∧
        ∀ m : Machine, m.place 32 ref = 0x10000 ∧ place.eval m = 0 := by
  intro bytes ref
  let i : Instruction := ⟨⟨.segment 0x0C00, 0, by decide⟩, bytes, "mov", .move,
    [.register ax, .memory ref], .sequential⟩
  have hdecode : decode .real16 ⟨.segment 0x0C00, 0, by decide⟩ bytes = .ok i := by
    decide +kernel
  have href : .memory ref ∈ i.operands := List.mem_cons_of_mem _ List.mem_cons_self
  have hconstant : effectiveAddress .real16 ref = .constant (.known 16 0) := by decide +kernel
  refine ⟨i, hdecode, href, rfl, effectiveAddress .real16 ref, rfl, fun m => ⟨?_, ?_⟩⟩
  · exact Int.natCast_inj.1 ((place_of_no_registers m 32 rfl rfl).trans (by decide +kernel))
  · rw [hconstant]
    rfl

end CodeLift.X86
