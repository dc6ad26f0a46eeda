-- SUMMARY: What decoding takes off the bytes at hand, and the bodies that bytes can spell.
import CodeLift.X86.Decoder

/-!
# Decoding in order

A reading step takes bytes off the front of those to come, looks at no others, and
hands on the rest. `Decoding.Ensures` says this of a step together with what holds
of its result, and goes along the sequence of steps that a decoder is made of.

The result for whole instructions is `decode_eq_ok`: the bytes of a decoded
instruction are the first ones at hand, there is at least one of them, and its
body is `Formed`, which lists the operands that each operation can come with.
-/

namespace CodeLift

/-- The fault is no matter of missing bytes. -/
def Fault.IsFinal (fault : Fault) : Prop := ∀ needed available, fault ≠ .truncated needed available

namespace X86

/-! ## Cursors -/

/-- From `c` to `c'` the bytes `read` went over from those to come to those taken. -/
def Cursor.Reads (c : Cursor) (read : List UInt8) (c' : Cursor) : Prop :=
  c'.taken = c.taken ++ read ∧ c.rest = read ++ c'.rest

theorem Cursor.Reads.size_eq {c c' : Cursor} {read : List UInt8} (h : c.Reads read c') :
    c'.size = c.size := by
  simp [size, h.1, h.2, Nat.add_assoc]

/-- The fault says that the bytes at hand are cut off: more are needed than there are. -/
def Cursor.CutsOff (c : Cursor) (fault : Fault) : Prop :=
  ∃ needed, fault = .truncated needed c.size ∧ c.size < needed

namespace Decoding

/-! ## Reading steps -/

section

variable {α β : Type} {part : Decoding α} {next : α → Decoding β} {c c' : Cursor}

theorem bind_of_ok {a : α} (h : part c = .ok (a, c')) : (part >>= next) c = next a c' := by
  change (part c >>= fun r => next r.1 r.2) = _
  rw [h]
  rfl

theorem bind_of_error {fault : Fault} (h : part c = .error fault) :
    (part >>= next) c = .error fault := by
  change (part c >>= fun r => next r.1 r.2) = _
  rw [h]
  rfl

end

/-- The part takes bytes in order and looks at no others. Where it succeeds, its result satisfies
`post`, and the bytes that it took give this result whatever follows them. Where it fails, the bytes
at hand are cut off, or it fails so whatever follows them. -/
structure Ensures {α : Type} (part : Decoding α) (post : α → Prop) : Prop where
  ok : ∀ {c a c'}, part c = .ok (a, c') →
    post a ∧ ∃ read, c.Reads read c' ∧
      ∀ rest, part ⟨c.taken, read ++ rest⟩ = .ok (a, ⟨c.taken ++ read, rest⟩)
  error : ∀ {c fault}, part c = .error fault →
    c.CutsOff fault ∨
      fault.IsFinal ∧ ∀ more, part ⟨c.taken, c.rest ++ more⟩ = .error fault

variable {α β : Type} {part : Decoding α} {post : α → Prop}

theorem Ensures.pure {a : α} (h : post a) : Ensures (Pure.pure a) post where
  ok := by
    intro c a' c' hrun
    cases hrun
    refine ⟨h, [], ⟨by simp, rfl⟩, fun rest => ?_⟩
    rw [List.append_nil]
    rfl
  error := by
    intro c fault hrun
    cases hrun

theorem Ensures.bind {next : α → Decoding β} {post' : β → Prop} (h : Ensures part post)
    (hnext : ∀ a, post a → Ensures (next a) post') : Ensures (part >>= next) post' where
  ok := by
    intro c b c' hrun
    cases hpart : part c with
    | error fault =>
      rw [bind_of_error hpart] at hrun
      cases hrun
    | ok r =>
      rw [bind_of_ok hpart] at hrun
      obtain ⟨ha, read, ⟨htaken, hrest⟩, hsame⟩ := h.ok hpart
      obtain ⟨hb, read', ⟨htaken', hrest'⟩, hsame'⟩ := (hnext r.1 ha).ok hrun
      refine ⟨hb, read ++ read', ⟨by simp [htaken', htaken], by simp [hrest, hrest']⟩, ?_⟩
      intro rest
      have hread' := hsame' rest
      rw [htaken] at hread'
      rw [List.append_assoc, bind_of_ok (hsame (read' ++ rest)), hread', List.append_assoc]
  error := by
    intro c fault hrun
    cases hpart : part c with
    | error fault' =>
      rw [bind_of_error hpart] at hrun
      cases hrun
      refine (h.error hpart).imp_right ?_
      rintro ⟨hfinal, hmore⟩
      exact ⟨hfinal, fun more => bind_of_error (hmore more)⟩
    | ok r =>
      rw [bind_of_ok hpart] at hrun
      obtain ⟨ha, read, hreads, hsame⟩ := h.ok hpart
      rcases (hnext r.1 ha).error hrun with ⟨needed, rfl, hlt⟩ | ⟨hfinal, hmore⟩
      · rw [hreads.size_eq] at hlt
        exact .inl ⟨needed, by rw [hreads.size_eq], hlt⟩
      · refine .inr ⟨hfinal, fun more => ?_⟩
        have hfails := hmore more
        rw [hreads.1] at hfails
        rw [hreads.2, List.append_assoc, bind_of_ok (hsame _), hfails]

theorem Ensures.map {f : α → β} {post' : β → Prop} (h : Ensures part post)
    (hf : ∀ a, post a → post' (f a)) : Ensures (do return f (← part)) post' :=
  h.bind fun a ha => .pure (hf a ha)

theorem ensures_fail {fault : Fault} (h : fault.IsFinal) :
    Ensures (fail fault : Decoding α) post where
  ok := by
    intro c a c' hrun
    cases hrun
  error := by
    intro c fault' hrun
    cases hrun
    exact .inr ⟨h, fun _ => rfl⟩

theorem ensures_unknownOpcode : Ensures (unknownOpcode : Decoding α) post where
  ok := by
    intro c a c' hrun
    cases hrun
  error := by
    intro c fault hrun
    cases hrun
    exact .inr ⟨by simp [Fault.IsFinal], fun _ => rfl⟩

theorem ensures_bytes (n : Nat) : Ensures (bytes n) fun _ => True where
  ok := by
    intro c a c' hrun
    unfold bytes at hrun
    split at hrun
    · cases hrun
    · next henough =>
      cases hrun
      have hlength : (c.rest.take n).length = n := List.length_take_of_le (Nat.le_of_not_lt henough)
      refine ⟨trivial, c.rest.take n, ⟨rfl, (List.take_append_drop n c.rest).symm⟩, fun rest => ?_⟩
      unfold bytes
      rw [if_neg (by simp [hlength]), List.take_left' hlength, List.drop_left' hlength]
  error := by
    intro c fault hrun
    unfold bytes at hrun
    split at hrun
    · next hshort =>
      cases hrun
      exact .inl ⟨_, rfl, Nat.add_lt_add_left hshort _⟩
    · cases hrun

theorem ensures_byte : Ensures byte fun _ => True where
  ok := by
    intro c a c' hrun
    cases hrest : c.rest with
    | nil =>
      simp only [byte, hrest] at hrun
      cases hrun
    | cons b rest =>
      simp only [byte, hrest] at hrun
      cases hrun
      exact ⟨trivial, [_], ⟨rfl, hrest⟩, fun _ => rfl⟩
  error := by
    intro c fault hrun
    cases hrest : c.rest with
    | nil =>
      simp only [byte, hrest] at hrun
      cases hrun
      exact .inl ⟨_, rfl, by simp [Cursor.size, hrest]⟩
    | cons b rest =>
      simp only [byte, hrest] at hrun
      cases hrun

theorem ensures_signed (bits : Nat) : Ensures (signed bits) fun _ => True :=
  (ensures_bytes _).map fun _ _ => trivial

/-- A part that is read as a whole is cut off wherever it fails. -/
theorem Ensures.whole (h : Ensures part post) : Ensures (Decoding.whole part) post where
  ok := by
    intro c a c' hrun
    unfold Decoding.whole at hrun
    split at hrun
    · next hpart =>
      cases hrun
      obtain ⟨ha, read, hreads, hsame⟩ := h.ok hpart
      refine ⟨ha, read, hreads, fun rest => ?_⟩
      unfold Decoding.whole
      rw [hsame rest]
    · cases hrun
  error := by
    intro c fault hrun
    unfold Decoding.whole at hrun
    split at hrun
    · cases hrun
    · cases hrun
      exact .inl ⟨_, rfl, Nat.lt_succ_self _⟩

/-! ## Operands -/

theorem ensures_modRM : Ensures modRM fun m => m.reg < 8 ∧ m.rm < 8 := by
  refine ensures_byte.map fun b _ => ?_
  exact ⟨Nat.mod_lt _ (by decide), Nat.mod_lt _ (by decide)⟩

theorem ensures_displacement (mode bits : Nat) :
    Ensures (displacement mode bits) fun _ => True := by
  unfold displacement
  split
  · exact ensures_signed 8
  · split
    · exact ensures_signed bits
    · exact .pure trivial

theorem ensures_memory16 (m : ModRM) (bits : Nat) :
    Ensures (memory16 m bits) fun place => place.bits = bits := by
  unfold memory16
  split
  · exact (ensures_signed 16).map fun _ _ => rfl
  · exact (ensures_displacement m.mode 16).map fun _ _ => rfl

theorem ensures_memory32Based (mode base bits : Nat) (index : Option Register) (scale : Nat) :
    Ensures (memory32Based mode base bits index scale) fun place => place.bits = bits := by
  unfold memory32Based
  split
  · exact (ensures_signed 32).map fun _ _ => rfl
  · exact (ensures_displacement mode 32).map fun _ _ => rfl

theorem ensures_memory32 (m : ModRM) (bits : Nat) :
    Ensures (memory32 m bits) fun place => place.bits = bits := by
  unfold memory32
  split
  · refine ensures_byte.bind fun b _ => ?_
    dsimp only
    split
    · exact ensures_memory32Based ..
    · exact ensures_memory32Based ..
  · exact ensures_memory32Based ..

end Decoding

/-- The operand is a register of the bank, or memory as wide as the bank's registers. -/
def Bank.Admits (bank : Bank) : Operand → Prop
  | .register r => ∃ n < 8, r = bank.register n
  | .memory m => m.bits = bank.bits
  | _ => False

namespace Decoding

theorem ensures_rmOperand (sizes : Sizes) {m : ModRM} (hrm : m.rm < 8) (bank : Bank) :
    Ensures (rmOperand sizes m bank) bank.Admits := by
  unfold rmOperand
  split
  · exact .pure ⟨m.rm, hrm, rfl⟩
  · suffices h : Ensures _ fun place : MemoryRef => place.bits = bank.bits from
      h.whole.map fun _ hbits => hbits
    split
    · exact ensures_memory16 m bank.bits
    · exact ensures_memory32 m bank.bits

theorem admits_regOperand {m : ModRM} (hreg : m.reg < 8) (bank : Bank) :
    bank.Admits (regOperand m bank) := ⟨m.reg, hreg, rfl⟩

theorem ensures_pair (sizes : Sizes) (bank : Bank) (toRegister : Bool) :
    Ensures (pair sizes bank toRegister) fun operands =>
      ∃ dst src, operands = [dst, src] ∧ bank.Admits dst ∧ bank.Admits src := by
  refine ensures_modRM.bind fun m ⟨hreg, hrm⟩ => ?_
  refine (ensures_rmOperand sizes hrm bank).map fun rm hrm => ?_
  cases toRegister with
  | true => exact ⟨_, _, rfl, admits_regOperand hreg bank, hrm⟩
  | false => exact ⟨_, _, rfl, hrm, admits_regOperand hreg bank⟩

end Decoding

/-! ## Bodies -/

/-- What a push takes and a pop fills: a general operand or a segment register. -/
def IsSlotOperand (o : Operand) : Prop :=
  (∃ bits ∈ [16, 32], (Bank.general bits).Admits o) ∨ ∃ r ∈ segments, o = .register r

/-- The bodies that bytes can spell. -/
inductive Body.Formed : Body → Prop
  | alu (op : Alu) {bits : Nat} {dst src : Operand} (hbits : bits ∈ [8, 16, 32])
      (hdst : (Bank.general bits).Admits dst)
      (hsrc : (Bank.general bits).Admits src ∨ ∃ value, src = .immediate value bits) :
      Formed (.sequential op.mnemonic op.operation [dst, src])
  | move {bits : Nat} {dst src : Operand} (hbits : bits ∈ [8, 16, 32])
      (hdst : (Bank.general bits).Admits dst)
      (hsrc : (Bank.general bits).Admits src ∨ ∃ value, src = .immediate value bits) :
      Formed (.sequential "mov" .move [dst, src])
  | loadSegment {r : Register} {src : Operand} (hr : r ∈ segments)
      (hsrc : (Bank.general 16).Admits src) :
      Formed (.sequential "mov" .move [.register r, src])
  | storeSegment {r : Register} {dst : Operand} (hr : r ∈ segments)
      (hdst : (Bank.general 16).Admits dst) :
      Formed (.sequential "mov" .move [dst, .register r])
  | exclusiveOr {bank : Bank} {dst src : Operand} (hbank : bank ∈ [.mmx, .xmm])
      (hdst : bank.Admits dst) (hsrc : bank.Admits src) :
      Formed (.sequential "pxor" .xor [dst, src])
  | push {src : Operand} (hsrc : IsSlotOperand src) : Formed (.sequential "push" .push [src])
  | pushImmediate {bits : Nat} (value : Int) (hbits : bits ∈ [16, 32]) :
      Formed (.sequential "push" .push [.immediate value bits])
  | pop {dst : Operand} (hdst : IsSlotOperand dst) : Formed (.sequential "pop" .pop [dst])
  | ret : Formed (.plain "ret" .ret [] .ret)
  | retMore (extra : Int) : Formed (.plain "ret" .ret [.immediate (extra % modulus 16) 16] .ret)
  | nop : Formed (.sequential "nop" .nop [])
  | call {bits : Nat} {target : Operand} (hbits : bits ∈ [16, 32])
      (htarget : (Bank.general bits).Admits target) :
      Formed (.plain "call" .call [target] .indirectCall)
  | jump {bits : Nat} {target : Operand} (hbits : bits ∈ [16, 32])
      (htarget : (Bank.general bits).Admits target) :
      Formed (.plain "jmp" .jump [target] .indirectJump)
  | relative (transfer : Transfer) (distance : Int) : Formed (.relative transfer distance)

theorem Prefixes.operand_sizes (p : Prefixes) (mode : Mode) :
    (p.sizes mode).operand ∈ [16, 32] := by
  cases hsize : p.operandSize <;> cases mode <;> simp [Prefixes.sizes, hsize, otherSize, Mode.bits]

namespace Decoding

theorem width_mem {sizes : Sizes} (h : sizes.operand ∈ [16, 32]) (narrow : Bool) :
    width sizes narrow ∈ [8, 16, 32] := by
  cases narrow with
  | true => simp [width]
  | false => exact List.mem_cons_of_mem _ h

theorem admits_general (n bits : Nat) : (Bank.general bits).Admits (.register (general n bits)) :=
  ⟨n % 8, Nat.mod_lt _ (by decide), by simp [Bank.register, general]⟩

theorem ensures_secondBody (sizes : Sizes) (form : SecondForm) :
    Ensures (secondBody sizes form) Body.Formed := by
  cases form with
  | branchNear condition => exact (ensures_signed _).map fun d _ => .relative _ d
  | exclusiveOr =>
    refine (ensures_pair sizes _ true).map ?_
    rintro _ ⟨dst, src, rfl, hdst, hsrc⟩
    refine .exclusiveOr ?_ hdst hsrc
    cases sizes.wide <;> decide

theorem ensures_body {sizes : Sizes} (h : sizes.operand ∈ [16, 32]) (form : Form) :
    Ensures (body sizes form) Body.Formed := by
  cases form with
  | alu op narrow toRegister =>
    refine (ensures_pair sizes _ toRegister).map ?_
    rintro _ ⟨dst, src, rfl, hdst, hsrc⟩
    exact .alu op (width_mem h narrow) hdst (.inl hsrc)
  | aluAccumulator op narrow =>
    refine (ensures_signed _).map fun value _ => ?_
    exact .alu op (width_mem h narrow) (admits_general 0 _) (.inr ⟨value, rfl⟩)
  | aluImmediate narrow short =>
    refine ensures_modRM.bind fun m ⟨_, hrm⟩ => ?_
    refine (ensures_rmOperand sizes hrm _).bind fun rm hdst => ?_
    refine (ensures_signed _).map fun value _ => ?_
    exact .alu _ (width_mem h narrow) hdst (.inr ⟨value, rfl⟩)
  | pushSegment number =>
    simp only [body]
    split
    · next r hr => exact .pure (.push (.inr ⟨r, List.mem_of_getElem? hr, rfl⟩))
    · exact ensures_unknownOpcode
  | popSegment number =>
    simp only [body]
    split
    · next r hr => exact .pure (.pop (.inr ⟨r, List.mem_of_getElem? hr, rfl⟩))
    · exact ensures_unknownOpcode
  | pushRegister number => exact .pure (.push (.inl ⟨_, h, admits_general number _⟩))
  | popRegister number => exact .pure (.pop (.inl ⟨_, h, admits_general number _⟩))
  | pushImmediate short => exact (ensures_signed _).map fun value _ => .pushImmediate value h
  | popOperand =>
    refine ensures_modRM.bind fun m ⟨_, hrm⟩ => ?_
    split
    · exact ensures_fail (by simp [Fault.IsFinal])
    · exact (ensures_rmOperand sizes hrm _).map fun rm hdst => .pop (.inl ⟨_, h, hdst⟩)
  | move narrow toRegister =>
    refine (ensures_pair sizes _ toRegister).map ?_
    rintro _ ⟨dst, src, rfl, hdst, hsrc⟩
    exact .move (width_mem h narrow) hdst (.inl hsrc)
  | moveSegment toSegment =>
    refine ensures_modRM.bind fun m ⟨_, hrm⟩ => ?_
    split
    · exact ensures_fail (by simp [Fault.IsFinal])
    · next r hr =>
      refine (ensures_rmOperand sizes hrm _).map fun rm hrm => ?_
      have hmem : r ∈ segments := List.mem_of_getElem? hr
      cases toSegment with
      | true => exact .loadSegment hmem hrm
      | false => exact .storeSegment hmem hrm
  | moveImmediate number narrow =>
    refine (ensures_signed _).map fun value _ => ?_
    exact .move (width_mem h narrow) (admits_general number _) (.inr ⟨value, rfl⟩)
  | moveImmediateOperand narrow =>
    refine ensures_modRM.bind fun m ⟨_, hrm⟩ => ?_
    split
    · exact ensures_fail (by simp [Fault.IsFinal])
    · refine (ensures_rmOperand sizes hrm _).bind fun rm hdst => ?_
      refine (ensures_signed _).map fun value _ => ?_
      exact .move (width_mem h narrow) hdst (.inr ⟨value, rfl⟩)
  | branchShort condition => exact (ensures_signed _).map fun d _ => .relative _ d
  | call => exact (ensures_signed _).map fun d _ => .relative _ d
  | jump short => exact (ensures_signed _).map fun d _ => .relative _ d
  | ret popsMore =>
    cases popsMore with
    | true => exact (ensures_signed 16).map fun extra _ => .retMore extra
    | false => exact .pure .ret
  | nop => exact .pure .nop
  | indirect =>
    refine ensures_modRM.bind fun m ⟨_, hrm⟩ => ?_
    refine (ensures_rmOperand sizes hrm _).bind fun rm htarget => ?_
    split
    · exact .pure (.call h htarget)
    · exact .pure (.jump h htarget)
    · exact .pure (.push (.inl ⟨_, h, htarget⟩))
    · exact ensures_fail (by simp [Fault.IsFinal])
  | secondMap =>
    refine ensures_byte.bind fun b _ => ?_
    split
    · exact ensures_secondBody sizes _
    · exact ensures_unknownOpcode

/-! ## Instructions -/

theorem opcodeFrom_eq_ok {p : Prefixes} {taken rest : List UInt8} {r : Prefixes × UInt8}
    {c : Cursor} (h : opcodeFrom p taken rest = .ok (r, c)) :
    ∃ read, Cursor.Reads ⟨taken, rest⟩ read c ∧
      ∀ rest', opcodeFrom p taken (read ++ rest') = .ok (r, ⟨taken ++ read, rest'⟩) := by
  induction rest generalizing p taken with
  | nil => cases h
  | cons b rest ih =>
    unfold opcodeFrom at h
    cases hnote : p.note? b with
    | some p' =>
      rw [hnote] at h
      obtain ⟨read, ⟨htaken, hrest⟩, hsame⟩ := ih h
      refine ⟨b :: read, ⟨by simpa using htaken, by simpa using hrest⟩, fun rest' => ?_⟩
      simpa [opcodeFrom, hnote] using hsame rest'
    | none =>
      rw [hnote] at h
      cases h
      exact ⟨[b], ⟨rfl, rfl⟩, fun rest' => by simp [opcodeFrom, hnote]⟩

/-- Prefix bytes alone are cut off. -/
theorem opcodeFrom_eq_error {p : Prefixes} {taken rest : List UInt8} {fault : Fault}
    (h : opcodeFrom p taken rest = .error fault) : Cursor.CutsOff ⟨taken, rest⟩ fault := by
  induction rest generalizing p taken with
  | nil =>
    cases h
    exact ⟨_, rfl, Nat.lt_succ_self _⟩
  | cons b rest ih =>
    unfold opcodeFrom at h
    cases hnote : p.note? b with
    | some p' =>
      rw [hnote] at h
      have hsize : Cursor.size ⟨taken ++ [b], rest⟩ = Cursor.size ⟨taken, b :: rest⟩ :=
        Cursor.Reads.size_eq (c := ⟨taken, b :: rest⟩) ⟨rfl, rfl⟩
      simpa only [Cursor.CutsOff, hsize] using ih h
    | none =>
      rw [hnote] at h
      cases h

theorem ensures_opcode : Ensures opcode fun _ => True where
  ok := fun h => ⟨trivial, opcodeFrom_eq_ok h⟩
  error := fun h => .inl (opcodeFrom_eq_error h)

theorem ensures_instruction (mode : Mode) : Ensures (instruction mode) Body.Formed := by
  refine ensures_opcode.bind fun ⟨p, opcode⟩ _ => ?_
  dsimp only
  split
  · exact ensures_body (p.operand_sizes mode) _
  · exact ensures_unknownOpcode

theorem instruction_nil (mode : Mode) : instruction mode ⟨[], []⟩ = .error (.truncated 1 0) := rfl

end Decoding

theorem decode_eq_ok_iff {mode : Mode} {a : Address} {bytes : List UInt8} {i : Instruction} :
    decode mode a bytes = .ok i ↔
      ∃ body c, Decoding.instruction mode ⟨[], bytes.take maxLength⟩ = .ok (body, c) ∧
        i = body.place a c.taken := by
  unfold decode readBody
  cases Decoding.instruction mode ⟨[], bytes.take maxLength⟩ with
  | ok r =>
    simp only [Except.ok.injEq]
    constructor
    · rintro rfl
      exact ⟨r.1, r.2, rfl, rfl⟩
    · rintro ⟨_, _, rfl, rfl⟩
      rfl
  | error fault => simp

theorem decode_eq_error_iff {mode : Mode} {a : Address} {bytes : List UInt8} {e : DecodeError} :
    decode mode a bytes = .error e ↔
      Decoding.instruction mode ⟨[], bytes.take maxLength⟩ = .error e.fault ∧ e.address = a := by
  unfold decode readBody
  cases Decoding.instruction mode ⟨[], bytes.take maxLength⟩ with
  | ok r => simp
  | error fault =>
    obtain ⟨address, fault'⟩ := e
    simp [eq_comm, and_comm]

@[simp] theorem Body.address_place (body : Body) (a : Address) (bytes : List UInt8) :
    (body.place a bytes).address = a := by
  cases body with
  | plain => rfl
  | relative transfer distance => cases transfer <;> rfl

@[simp] theorem Body.bytes_place (body : Body) (a : Address) (bytes : List UInt8) :
    (body.place a bytes).bytes = bytes := by
  cases body with
  | plain => rfl
  | relative transfer distance => cases transfer <;> rfl

/-- A decoded instruction takes its bytes off the front, at least one and at most `maxLength`. -/
theorem decode_eq_ok {mode : Mode} {a : Address} {bytes : List UInt8} {i : Instruction}
    (h : decode mode a bytes = .ok i) :
    i.address = a ∧ i.bytes ≠ [] ∧ i.bytes <+: bytes.take maxLength ∧
      ∃ body : Body, body.Formed ∧ i = body.place a i.bytes := by
  obtain ⟨body, c, hrun, rfl⟩ := decode_eq_ok_iff.1 h
  obtain ⟨hformed, read, ⟨htaken, hrest⟩, hsame⟩ := (Decoding.ensures_instruction mode).ok hrun
  rw [List.nil_append] at htaken
  refine ⟨by simp, ?_, ?_, body, hformed, by simp⟩
  · -- Without a byte there is no instruction.
    rintro hempty
    rw [Body.bytes_place, htaken] at hempty
    have hnil := hsame []
    rw [hempty, List.append_nil, Decoding.instruction_nil] at hnil
    cases hnil
  · rw [Body.bytes_place, htaken]
    exact ⟨c.rest, hrest.symm⟩

/-- Only the first `maxLength` bytes are looked at. -/
theorem decode_take {n : Nat} (hn : maxLength ≤ n) (mode : Mode) (a : Address)
    (bytes : List UInt8) : decode mode a (bytes.take n) = decode mode a bytes := by
  simp [decode, readBody, List.take_take, hn]

/-- Some bytes spell the instruction where it stands. -/
def Mode.Encodes (mode : Mode) (i : Instruction) : Prop :=
  ∃ bytes, decode mode i.address bytes = .ok i

end X86

end CodeLift
