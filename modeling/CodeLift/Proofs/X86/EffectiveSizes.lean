-- SUMMARY: Mode and prefixes matter to an instruction by the sizes and the segment they select.
import CodeLift.Proofs.Tiling
import CodeLift.Proofs.X86.References

/-!
# Effective sizes

Behind the prefixes a decoder reads the same whatever bytes stand before: a part that is
`Movable` gives the same result behind other bytes, and its faults only count these. So of
the prefixes nothing is left but the sizes and the segment that they select together with
the mode, and whether `66` is one of them, which tells the two forms of `pxor` apart.

`Prefixes.sizes_noteAll` says what a string of prefix bytes selects, by membership and by the
last segment override. From it follows that instructions behind two such strings are the same
(`decode_selectAlike`).
-/

namespace CodeLift

open X86 (Mode Prefixes decode decode_eq_ok_iff decode_eq_error_iff otherSize prefixBytes)

/-! ## More bytes before -/

/-- The fault with more bytes taken before the instruction. -/
def Fault.behind (before : List UInt8) : Fault → Fault
  | .unknownOpcode bytes => .unknownOpcode (before ++ bytes)
  | .truncated needed available =>
    .truncated (before.length + needed) (before.length + available)
  | fault => fault

@[simp] theorem Fault.kind_behind (before : List UInt8) (fault : Fault) :
    (fault.behind before).kind = fault.kind := by
  cases fault <;> rfl

namespace X86

/-- The cursor with more bytes taken before. -/
def Cursor.behind (before : List UInt8) (c : Cursor) : Cursor := ⟨before ++ c.taken, c.rest⟩

theorem Cursor.size_behind (before : List UInt8) (c : Cursor) :
    (c.behind before).size = before.length + c.size := by
  simp [behind, size, Nat.add_assoc]

theorem Form.eq_of_ofOpcode?_secondMap {b : UInt8} (h : Form.ofOpcode? b = some .secondMap) :
    b = 0x0F := by
  have hall : ∀ n < 256, Form.ofOpcode? (UInt8.ofNat n) = some .secondMap →
      UInt8.ofNat n = 0x0F := by
    decide +kernel
  have hb := hall b.toNat b.toNat_lt
  rw [UInt8.ofNat_toNat] at hb
  exact hb h

theorem SecondForm.eq_of_ofOpcode?_exclusiveOr {b : UInt8}
    (h : SecondForm.ofOpcode? b = some .exclusiveOr) : b = 0xEF := by
  simp only [SecondForm.ofOpcode?] at h
  split at h
  · cases h
  · split at h
    · next hcode => exact UInt8.toNat_inj.1 hcode
    · cases h

namespace Decoding

/-- What comes of a part, with more bytes taken before. -/
def behind {α : Type} (before : List UInt8) :
    Except Fault (α × Cursor) → Except Fault (α × Cursor)
  | .ok (a, c) => .ok (a, c.behind before)
  | .error fault => .error (fault.behind before)

/-- The part does the same with more bytes taken before. -/
def Movable {α : Type} (part : Decoding α) : Prop :=
  ∀ before c, part (c.behind before) = behind before (part c)

variable {α β : Type} {part : Decoding α}

theorem Movable.pure (a : α) : Movable (Pure.pure a : Decoding α) := fun _ _ => rfl

theorem Movable.bind {next : α → Decoding β} (h : Movable part) (hnext : ∀ a, Movable (next a)) :
    Movable (part >>= next) := by
  intro before c
  have hpart := h before c
  cases hrun : part c with
  | error fault =>
    rw [hrun] at hpart
    rw [bind_of_error hrun, bind_of_error hpart]
    rfl
  | ok r =>
    rw [hrun] at hpart
    rw [bind_of_ok hrun, bind_of_ok hpart]
    exact hnext r.1 before r.2

theorem Movable.map (h : Movable part) (f : α → β) : Movable (do return f (← part)) :=
  h.bind fun a => .pure (f a)

theorem movable_fail {fault : Fault} (h : ∀ before, fault.behind before = fault) :
    Movable (fail fault : Decoding α) := by
  intro before c
  exact congrArg Except.error (h before).symm

theorem movable_unknownOpcode : Movable (unknownOpcode : Decoding α) := fun _ _ => rfl

theorem movable_bytes (n : Nat) : Movable (bytes n) := by
  intro before c
  unfold bytes
  by_cases hshort : c.rest.length < n
  · rw [if_pos (show (c.behind before).rest.length < n from hshort), if_pos hshort,
      Cursor.size_behind]
    simp [behind, Fault.behind, Cursor.behind, Nat.add_assoc]
  · rw [if_neg (show ¬ (c.behind before).rest.length < n from hshort), if_neg hshort]
    simp [behind, Cursor.behind]

theorem movable_byte : Movable byte := by
  intro before c
  obtain ⟨taken, rest⟩ := c
  cases rest with
  | nil => simp [byte, behind, Fault.behind, Cursor.behind, Cursor.size, Nat.add_assoc]
  | cons b rest => simp [byte, behind, Cursor.behind]

theorem movable_signed (bits : Nat) : Movable (signed bits) := (movable_bytes _).map _

theorem Movable.whole (h : Movable part) : Movable (Decoding.whole part) := by
  intro before c
  have hpart := h before c
  unfold Decoding.whole
  cases hrun : part c with
  | error fault =>
    rw [hrun] at hpart
    simp only [hpart, behind, Fault.behind, Cursor.size_behind, Nat.add_assoc]
  | ok r =>
    rw [hrun] at hpart
    simp only [hpart, behind]

/-! ## Parts of instructions -/

theorem movable_modRM : Movable modRM := movable_byte.map _

theorem movable_displacement (mode bits : Nat) : Movable (displacement mode bits) := by
  unfold displacement
  split
  · exact movable_signed 8
  · split
    · exact movable_signed bits
    · exact .pure 0

theorem movable_memory16 (m : ModRM) (bits : Nat) : Movable (memory16 m bits) := by
  unfold memory16
  split
  · exact (movable_signed 16).map _
  · exact (movable_displacement m.mode 16).map _

theorem movable_memory32Based (mode base bits : Nat) (index : Option Register) (scale : Nat) :
    Movable (memory32Based mode base bits index scale) := by
  unfold memory32Based
  split
  · exact (movable_signed 32).map _
  · exact (movable_displacement mode 32).map _

theorem movable_memory32 (m : ModRM) (bits : Nat) : Movable (memory32 m bits) := by
  unfold memory32
  split
  · refine movable_byte.bind fun b => ?_
    dsimp only
    split
    · exact movable_memory32Based _ _ _ _ _
    · exact movable_memory32Based _ _ _ _ _
  · exact movable_memory32Based _ _ _ _ _

variable (sizes : Sizes)

theorem movable_rmOperand (m : ModRM) (bank : Bank) : Movable (rmOperand sizes m bank) := by
  unfold rmOperand
  split
  · exact .pure _
  · split
    · exact (movable_memory16 m bank.bits).whole.map _
    · exact (movable_memory32 m bank.bits).whole.map _

theorem movable_pair (bank : Bank) (toRegister : Bool) : Movable (pair sizes bank toRegister) :=
  movable_modRM.bind fun m => (movable_rmOperand sizes m bank).map _

theorem movable_secondBody (form : SecondForm) : Movable (secondBody sizes form) := by
  cases form with
  | branchNear condition => exact (movable_signed _).map _
  | exclusiveOr => exact (movable_pair sizes _ true).map _

theorem movable_body (form : Form) : Movable (body sizes form) := by
  cases form with
  | alu op narrow toRegister => exact (movable_pair sizes _ toRegister).map _
  | aluAccumulator op narrow => exact (movable_signed _).map _
  | aluImmediate narrow short =>
    refine movable_modRM.bind fun m => ?_
    exact (movable_rmOperand sizes m _).bind fun rm => (movable_signed _).map _
  | pushSegment number | popSegment number =>
    simp only [body]
    split
    · exact .pure _
    · exact movable_unknownOpcode
  | pushRegister number | popRegister number => exact .pure _
  | pushImmediate short => exact (movable_signed _).map _
  | popOperand =>
    refine movable_modRM.bind fun m => ?_
    split
    · exact movable_fail fun _ => rfl
    · exact (movable_rmOperand sizes m _).map _
  | move narrow toRegister => exact (movable_pair sizes _ toRegister).map _
  | moveSegment toSegment =>
    refine movable_modRM.bind fun m => ?_
    split
    · exact movable_fail fun _ => rfl
    · exact (movable_rmOperand sizes m _).map _
  | moveImmediate number narrow => exact (movable_signed _).map _
  | moveImmediateOperand narrow =>
    refine movable_modRM.bind fun m => ?_
    split
    · exact movable_fail fun _ => rfl
    · exact (movable_rmOperand sizes m _).bind fun rm => (movable_signed _).map _
  | branchShort condition => exact (movable_signed _).map _
  | call => exact (movable_signed _).map _
  | jump short => exact (movable_signed _).map _
  | ret popsMore =>
    cases popsMore with
    | true => exact (movable_signed 16).map _
    | false => exact .pure _
  | nop => exact .pure _
  | indirect =>
    refine movable_modRM.bind fun m => (movable_rmOperand sizes m _).bind fun rm => ?_
    split
    · exact .pure _
    · exact .pure _
    · exact .pure _
    · exact movable_fail fun _ => rfl
  | secondMap =>
    refine movable_byte.bind fun b => ?_
    split
    · exact movable_secondBody sizes _
    · exact movable_unknownOpcode

/-- Only `pxor` asks whether the operand size prefix is there. -/
theorem body_wide {sizes : Sizes} {wide : Bool} {form : Form} {c : Cursor}
    (h : form = .secondMap → c.rest.head? = some 0xEF → wide = sizes.wide) :
    body { sizes with wide := wide } form c = body sizes form c := by
  cases form with
  | secondMap =>
    obtain ⟨taken, rest⟩ := c
    cases rest with
    | nil => rfl
    | cons b rest =>
      have hbyte : byte ⟨taken, b :: rest⟩ = .ok (b, ⟨taken ++ [b], rest⟩) := rfl
      simp only [body]
      rw [bind_of_ok hbyte, bind_of_ok hbyte]
      cases hform : SecondForm.ofOpcode? b with
      | none => rfl
      | some second =>
        cases second with
        | branchNear condition => rfl
        | exclusiveOr =>
          rw [h rfl (congrArg some (SecondForm.eq_of_ofOpcode?_exclusiveOr hform))]
  | alu | aluAccumulator | aluImmediate | pushSegment | popSegment | pushRegister | popRegister
  | pushImmediate | popOperand | move | moveSegment | moveImmediate | moveImmediateOperand
  | branchShort | call | jump | ret | nop | indirect => rfl

end Decoding

/-! ## Strings of prefixes -/

/-- The segments that prefix bytes override the default by. -/
def segmentOverrides : List (UInt8 × Register) :=
  [(0x26, es), (0x2E, cs), (0x36, ss), (0x3E, ds), (0x64, fs), (0x65, gs)]

/-- The segment that the last override selects. -/
def lastOverride (prefixes : List UInt8) : Option Register :=
  (prefixes.filterMap (List.lookup · segmentOverrides)).getLast?

/-- The size of the mode, or the other one if the byte is among the prefixes. -/
def Mode.selectedSize (mode : Mode) (override : UInt8) (prefixes : List UInt8) : Nat :=
  if override ∈ prefixes then otherSize mode.bits else mode.bits

theorem lastOverride_cons (b : UInt8) (bytes : List UInt8) :
    lastOverride (b :: bytes) = (lastOverride bytes).or (List.lookup b segmentOverrides) := by
  unfold lastOverride
  cases hb : List.lookup b segmentOverrides with
  | none => simp [hb]
  | some r => simp [hb, List.getLast?_cons, Option.or_some]

namespace Prefixes

/-- Take note of a string of bytes, of which only the prefix bytes count. -/
def noteAll (p : Prefixes) (bytes : List UInt8) : Prefixes :=
  bytes.foldl (fun p b => (p.note? b).getD p) p

theorem note?_of_mem (p : Prefixes) {b : UInt8} (hb : b ∈ prefixBytes) :
    ∃ p', p.note? b = some p' ∧ p'.operandSize = (p.operandSize || decide (0x66 = b)) ∧
      p'.addressSize = (p.addressSize || decide (0x67 = b)) ∧
      p'.segment = (List.lookup b segmentOverrides).or p.segment := by
  simp only [prefixBytes, List.mem_cons, List.not_mem_nil, or_false] at hb
  rcases hb with rfl | rfl | rfl | rfl | rfl | rfl | rfl | rfl | rfl | rfl | rfl <;>
    exact ⟨_, rfl, by simp, by simp, rfl⟩

theorem noteAll_cons (p : Prefixes) (b : UInt8) (bytes : List UInt8) :
    p.noteAll (b :: bytes) = ((p.note? b).getD p).noteAll bytes := rfl

theorem fields_noteAll (p : Prefixes) {bytes : List UInt8} (h : ∀ b ∈ bytes, b ∈ prefixBytes) :
    (p.noteAll bytes).operandSize = (p.operandSize || decide (0x66 ∈ bytes)) ∧
      (p.noteAll bytes).addressSize = (p.addressSize || decide (0x67 ∈ bytes)) ∧
      (p.noteAll bytes).segment = (lastOverride bytes).or p.segment := by
  induction bytes generalizing p with
  | nil => simp [noteAll, lastOverride]
  | cons b bytes ih =>
    obtain ⟨p', hnote, hoperand, haddress, hsegment⟩ := p.note?_of_mem (h b (by simp))
    obtain ⟨ihoperand, ihaddress, ihsegment⟩ := ih p' fun x hx => h x (by simp [hx])
    rw [noteAll_cons, hnote, Option.getD_some]
    refine ⟨?_, ?_, ?_⟩
    · simp [ihoperand, hoperand, Bool.or_assoc]
    · simp [ihaddress, haddress, Bool.or_assoc]
    · rw [ihsegment, hsegment, lastOverride_cons, Option.or_assoc]

/-- What a string of prefixes selects in a mode. -/
theorem sizes_noteAll (mode : Mode) {bytes : List UInt8} (h : ∀ b ∈ bytes, b ∈ prefixBytes) :
    (none.noteAll bytes).sizes mode =
      ⟨mode.selectedSize 0x66 bytes, mode.selectedSize 0x67 bytes, lastOverride bytes,
        decide (0x66 ∈ bytes)⟩ := by
  obtain ⟨hoperand, haddress, hsegment⟩ := none.fields_noteAll h
  simp only [sizes, hoperand, haddress, hsegment]
  simp [none, Mode.selectedSize]

end Prefixes

namespace Decoding

/-- Prefixes are read up to the first other byte. -/
theorem opcodeFrom_append (p : Prefixes) (taken rest : List UInt8) {bytes : List UInt8}
    (h : ∀ b ∈ bytes, b ∈ prefixBytes) :
    opcodeFrom p taken (bytes ++ rest) = opcodeFrom (p.noteAll bytes) (taken ++ bytes) rest := by
  induction bytes generalizing p taken with
  | nil => simp [Prefixes.noteAll]
  | cons b bytes ih =>
    obtain ⟨p', hnote, -⟩ := p.note?_of_mem (h b (by simp))
    rw [List.cons_append, opcodeFrom]
    simp only [hnote]
    rw [ih p' _ fun x hx => h x (by simp [hx]), Prefixes.noteAll_cons, hnote, Option.getD_some,
      List.append_assoc, List.singleton_append]

/-- Read an instruction without prefixes, in the given sizes. -/
def unprefixed (sizes : Sizes) : Decoding Body := do
  match Form.ofOpcode? (← byte) with
  | some form => body sizes form
  | none => unknownOpcode

/-- An instruction behind prefixes is read as one without, in the sizes that these select. -/
theorem instruction_append (mode : Mode) {before rest : List UInt8}
    (hbefore : ∀ b ∈ before, b ∈ prefixBytes) (hrest : ∀ b ∈ rest.head?, b ∉ prefixBytes) :
    instruction mode ⟨[], before ++ rest⟩ =
      behind before (unprefixed ((Prefixes.none.noteAll before).sizes mode) ⟨[], rest⟩) := by
  have hopcode : opcode ⟨[], before ++ rest⟩ = opcodeFrom (.noteAll .none before) before rest :=
    opcodeFrom_append .none [] rest hbefore
  cases rest with
  | nil =>
    have herror : opcode ⟨[], before ++ []⟩ =
        .error (.truncated (before.length + 1) before.length) := hopcode
    rw [instruction, bind_of_error herror]
    rfl
  | cons b rest =>
    have hb : (Prefixes.none.noteAll before).note? b = none := by
      cases hnote : (Prefixes.none.noteAll before).note? b with
      | none => rfl
      | some p => exact absurd (Prefixes.note?_eq_some hnote).1 (hrest b rfl)
    have hok : opcode ⟨[], before ++ b :: rest⟩ =
        .ok ((.noteAll .none before, b), ⟨before ++ [b], rest⟩) := by
      rw [hopcode, opcodeFrom, hb]
    have hbyte : byte ⟨[], b :: rest⟩ = .ok (b, ⟨[b], rest⟩) := rfl
    rw [instruction, unprefixed, bind_of_ok hok, bind_of_ok hbyte]
    dsimp only
    cases Form.ofOpcode? b with
    | none => rfl
    | some form => exact movable_body _ form before ⟨[b], rest⟩

/-- Whether the operand size prefix is there matters only behind `0F EF`. -/
theorem unprefixed_wide (sizes : Sizes) {wide : Bool} {rest : List UInt8}
    (h : rest.take 2 = [0x0F, 0xEF] → wide = sizes.wide) :
    unprefixed { sizes with wide := wide } ⟨[], rest⟩ = unprefixed sizes ⟨[], rest⟩ := by
  cases rest with
  | nil => rfl
  | cons b rest =>
    have hbyte : byte ⟨[], b :: rest⟩ = .ok (b, ⟨[b], rest⟩) := rfl
    rw [unprefixed, unprefixed, bind_of_ok hbyte, bind_of_ok hbyte]
    cases hform : Form.ofOpcode? b with
    | none => rfl
    | some form =>
      refine body_wide fun hsecond hhead => h ?_
      subst hsecond
      obtain ⟨rest, rfl⟩ := List.head?_eq_some_iff.1 hhead
      rw [Form.eq_of_ofOpcode?_secondMap hform]
      rfl

end Decoding

/-! ## Instructions behind prefixes -/

theorem decode_append_prefixes {mode : Mode} (a : Address) {before rest : List UInt8}
    (hbefore : ∀ b ∈ before, b ∈ prefixBytes) (hrest : ∀ b ∈ rest.head?, b ∉ prefixBytes)
    (hlength : before.length + rest.length ≤ maxLength) :
    decode mode a (before ++ rest) =
      match Decoding.unprefixed ((Prefixes.none.noteAll before).sizes mode) ⟨[], rest⟩ with
      | .ok (body, c) => .ok (body.place a (before ++ c.taken))
      | .error fault => .error ⟨a, fault.behind before⟩ := by
  have hle : (before ++ rest).length ≤ maxLength := by rwa [List.length_append]
  unfold decode readBody
  rw [List.take_of_length_le hle, Decoding.instruction_append mode hbefore hrest]
  cases Decoding.unprefixed ((Prefixes.none.noteAll before).sizes mode) ⟨[], rest⟩ <;> rfl

/-- Two strings of prefixes, each in its mode, select the same sizes and the same segment. -/
structure SelectAlike (mode : Mode) (p : List UInt8) (mode' : Mode) (q : List UInt8) : Prop where
  operand : mode.selectedSize 0x66 p = mode'.selectedSize 0x66 q
  address : mode.selectedSize 0x67 p = mode'.selectedSize 0x67 q
  segment : lastOverride p = lastOverride q

/-- Two instructions that differ at most in address and bytes, the first one longer by `excess`
bytes; or two faults of one kind. -/
inductive DecodeAlike (excess : Int) :
    Except DecodeError Instruction → Except DecodeError Instruction → Prop
  | ok {i j : Instruction} (mnemonic : i.mnemonic = j.mnemonic)
      (operation : i.operation = j.operation) (operands : i.operands = j.operands)
      (flow : i.flow = j.flow) (length : (i.length : Int) - j.length = excess) :
      DecodeAlike excess (.ok i) (.ok j)
  | error {e e' : DecodeError} (kind : e.fault.kind = e'.fault.kind) :
      DecodeAlike excess (.error e) (.error e')

/-- Targets are counted from the end of an instruction, wherever it starts. -/
theorem Body.place_decodeAlike (body : Body) {a b : Address} {p q : List UInt8}
    (hend : a.advance p.length = b.advance q.length) (bytes : List UInt8) :
    DecodeAlike (p.length - q.length) (.ok (body.place a (p ++ bytes)))
      (.ok (body.place b (q ++ bytes))) := by
  have hlength : (((body.place a (p ++ bytes)).length : Nat) : Int) -
      (body.place b (q ++ bytes)).length = p.length - q.length := by
    simp only [Instruction.length, Body.bytes_place, List.length_append]
    omega
  have hnext : a.advance (p ++ bytes).length = b.advance (q ++ bytes).length := by
    rw [List.length_append, List.length_append, ← Address.advance_advance, hend,
      Address.advance_advance]
  cases body with
  | plain => exact .ok rfl rfl rfl rfl hlength
  | relative transfer distance =>
    cases transfer with
    | jump | call | branch =>
      refine .ok rfl rfl ?_ ?_ hlength <;> simp only [Body.place, hnext]

/-- Mode and prefixes matter by the sizes and the segment they select: instructions with the same
bytes behind prefixes that select alike are the same, and so are faults, if `pxor` has the operand
size prefix on both sides or on none. In one mode that is so of all prefixes with the same last
segment override of which both or none are `66`, and both or none `67`. -/
theorem decode_selectAlike {mode mode' : Mode} {a b : Address} {p q rest : List UInt8}
    (hp : ∀ x ∈ p, x ∈ prefixBytes) (hq : ∀ x ∈ q, x ∈ prefixBytes)
    (hrest : ∀ x ∈ rest.head?, x ∉ prefixBytes)
    (hplength : p.length + rest.length ≤ 15) (hqlength : q.length + rest.length ≤ 15)
    (hend : a.advance p.length = b.advance q.length) :
    (SelectAlike mode p mode' q →
      (rest.take 2 = [0x0F, 0xEF] → (0x66 ∈ p ↔ 0x66 ∈ q)) →
        DecodeAlike (p.length - q.length) (decode mode a (p ++ rest))
          (decode mode' b (q ++ rest))) ∧
    (mode = mode' → (0x66 ∈ p ↔ 0x66 ∈ q) → (0x67 ∈ p ↔ 0x67 ∈ q) →
      lastOverride p = lastOverride q →
        DecodeAlike (p.length - q.length) (decode mode a (p ++ rest))
          (decode mode' b (q ++ rest))) := by
  have hgeneral : SelectAlike mode p mode' q →
      (rest.take 2 = [0x0F, 0xEF] → (0x66 ∈ p ↔ 0x66 ∈ q)) →
        DecodeAlike (p.length - q.length) (decode mode a (p ++ rest))
          (decode mode' b (q ++ rest)) := by
    intro hselect hwide
    have hsame : Decoding.unprefixed ((Prefixes.none.noteAll p).sizes mode) ⟨[], rest⟩ =
        Decoding.unprefixed ((Prefixes.none.noteAll q).sizes mode') ⟨[], rest⟩ := by
      rw [Prefixes.sizes_noteAll mode hp, Prefixes.sizes_noteAll mode' hq, hselect.operand,
        hselect.address, hselect.segment]
      exact Decoding.unprefixed_wide ⟨_, _, _, decide (0x66 ∈ q)⟩
        fun h => decide_eq_decide.2 (hwide h)
    rw [decode_append_prefixes a hp hrest hplength, decode_append_prefixes b hq hrest hqlength,
      ← hsame]
    cases Decoding.unprefixed ((Prefixes.none.noteAll p).sizes mode) ⟨[], rest⟩ with
    | ok r => exact r.1.place_decodeAlike hend r.2.taken
    | error fault => exact .error (by rw [Fault.kind_behind, Fault.kind_behind])
  refine ⟨hgeneral, ?_⟩
  rintro rfl h66 h67 hsegment
  refine hgeneral ⟨?_, ?_, hsegment⟩ fun _ => h66
  · simp only [Mode.selectedSize, h66]
  · simp only [Mode.selectedSize, h67]

/-- `66 F0 26 2E` before `je` in real mode selects what `2E 67 2E` does in protected mode. Both
jumps end at the same address, and so go to the same one. -/
theorem decode_selectAlike_branch :
    let p : List UInt8 := [0x66, 0xF0, 0x26, 0x2E]
    let q : List UInt8 := [0x2E, 0x67, 0x2E]
    let rest : List UInt8 := [0x0F, 0x84, 0xF0, 0xFF, 0xFF, 0xFF, 0x90]
    let a : Address := ⟨.segment 0x0C00, 0xFFFD, by decide⟩
    let b : Address := ⟨.segment 0x0C00, 0xFFFE, by decide⟩
    let target : Address := ⟨.segment 0x0C00, 0xFFF7, by decide⟩
    let next : Address := ⟨.segment 0x0C00, 7, by decide⟩
    DecodeAlike 1 (decode .real16 a (p ++ rest)) (decode .protected32 b (q ++ rest)) ∧
      decode .real16 a (p ++ rest) = .ok ⟨a, p ++ rest.take 6, "je", .conditionalJump,
        [.address target], .branch target .equal next⟩ := by
  intro p q rest a b target next
  have hp : ∀ x ∈ p, x ∈ prefixBytes := by simp [p, prefixBytes]
  have hq : ∀ x ∈ q, x ∈ prefixBytes := by simp [q, prefixBytes]
  have hrest : ∀ x ∈ rest.head?, x ∉ prefixBytes := by simp [rest, prefixBytes]
  have hend : a.advance p.length = b.advance q.length := by decide
  have hselect : SelectAlike .real16 p .protected32 q := ⟨by decide, by decide, by decide⟩
  have hplain : rest.take 2 ≠ [0x0F, 0xEF] := by decide
  have halike := (decode_selectAlike hp hq hrest (by decide) (by decide) hend).1 hselect
    fun h => absurd h hplain
  exact ⟨halike, by decide +kernel⟩

end X86

end CodeLift
