-- SUMMARY: Instructions at other addresses have the same statements and effects, moved.
import CodeLift.Proofs.Stages

/-!
# Instructions at other addresses

Where an instruction stands tells its address and where its jumps and calls go, and nothing
else of it. So decoding at another address, in a space of the same size, gives the same
instruction with its addresses moved (`decode_relocate`). What is moved has the same
statements with their addresses moved (`statements?_mapAddress`), and does the same to the
frame and to the depths (`Alike.execute`), if the host knows nothing of addresses.
-/

namespace CodeLift

/-! ## Addresses -/

/-- Both spaces are flat and of one width, or both are segments. -/
inductive Space.Alike : Space → Space → Prop
  | flat (width : Width) : Alike (.flat width) (.flat width)
  | segment (selector selector' : UInt16) : Alike (.segment selector) (.segment selector')

theorem Space.Alike.size_eq {s s' : Space} (h : s.Alike s') : s.size = s'.size := by
  cases h <;> rfl

namespace Address

/-- The address in the space of `target` that is moved by the difference from the offset of
`origin` to that of `target`, wrapping around. -/
def relocate (origin target a : Address) : Address :=
  (wrapping target.space a.offset).displace (target.offset - origin.offset)

theorem eq_of_offset_modEq {a b : Address} (hspace : a.space = b.space)
    (hoffset : a.offset ≡ b.offset [ZMOD a.space.size]) : a = b := by
  refine Address.ext hspace ?_
  have ha := a.offset_lt
  have hb : b.offset < a.space.size := hspace ▸ b.offset_lt
  exact (Int.natCast_modEq_iff.1 hoffset).eq_of_lt_of_lt ha hb

theorem offset_wrapping_modEq (space : Space) (offset : Nat) :
    (wrapping space offset).offset ≡ offset [ZMOD space.size] := by
  change ((offset % space.size : Nat) : Int) ≡ offset [ZMOD space.size]
  rw [Int.natCast_mod]
  exact Int.mod_modEq _ _

theorem offset_advance_modEq (a : Address) (n : Nat) :
    (a.advance n).offset ≡ a.offset + n [ZMOD a.space.size] := by
  have h := offset_wrapping_modEq a.space (a.offset + n)
  rwa [Nat.cast_add] at h

theorem offset_displace_modEq (a : Address) (d : Int) :
    (a.displace d).offset ≡ a.offset + d [ZMOD a.space.size] := by
  have hwrap : ((wrap64 d : Nat) : Int) ≡ d [ZMOD modulus 64] := by
    rw [wrap64, Constant.cast_toNat_emod]
    exact Int.mod_modEq _ _
  have hdvd : (a.space.size : Int) ∣ modulus 64 := by
    refine Int.natCast_dvd_natCast.2 (modulus_dvd ?_)
    cases a.space.width <;> decide
  exact (a.offset_advance_modEq _).trans ((hwrap.of_dvd hdvd).add_left _)

variable {origin target a : Address}

theorem offset_relocate_modEq (origin target a : Address) :
    (relocate origin target a).offset ≡
      a.offset + (target.offset - origin.offset) [ZMOD target.space.size] :=
  (offset_displace_modEq _ _).trans ((offset_wrapping_modEq _ _).add_right _)

theorem relocate_self (origin target : Address) : relocate origin target origin = target := by
  refine eq_of_offset_modEq rfl ((offset_relocate_modEq origin target origin).trans ?_)
  rw [add_sub_cancel]

/-- What is at a distance from `a` has moved to the same distance from where `a` has. -/
theorem relocate_eq_of_modEq {b c : Address} {d : Int}
    (hb : b.offset ≡ a.offset + d [ZMOD target.space.size]) (hspace : c.space = target.space)
    (hc : c.offset ≡ (relocate origin target a).offset + d [ZMOD target.space.size]) :
    relocate origin target b = c := by
  refine eq_of_offset_modEq hspace.symm ?_
  calc ((relocate origin target b).offset : Int)
      ≡ b.offset + (target.offset - origin.offset) [ZMOD target.space.size] :=
        offset_relocate_modEq _ _ _
    _ ≡ a.offset + d + (target.offset - origin.offset) [ZMOD target.space.size] :=
        hb.add_right _
    _ = a.offset + (target.offset - origin.offset) + d := by ring
    _ ≡ (relocate origin target a).offset + d [ZMOD target.space.size] :=
        (offset_relocate_modEq _ _ _).symm.add_right _
    _ ≡ c.offset [ZMOD target.space.size] := hc.symm

theorem relocate_displace (hsize : a.space.size = target.space.size) (d : Int) :
    relocate origin target (a.displace d) = (relocate origin target a).displace d :=
  relocate_eq_of_modEq (hsize ▸ a.offset_displace_modEq d) rfl (offset_displace_modEq _ _)

theorem relocate_advance (hsize : a.space.size = target.space.size) (n : Nat) :
    relocate origin target (a.advance n) = (relocate origin target a).advance n :=
  relocate_eq_of_modEq (hsize ▸ a.offset_advance_modEq n) rfl (offset_advance_modEq _ _)

end Address

/-! ## Instructions and statements with other addresses -/

section

variable (f : Address → Address)

def Operand.mapAddress : Operand → Operand
  | .address a => .address (f a)
  | o => o

def Flow.mapAddress : Flow → Flow
  | .jump target => .jump (f target)
  | .branch target condition next => .branch (f target) condition (f next)
  | .call target next => .call (f target) (f next)
  | flow => flow

def Instruction.mapAddress (i : Instruction) : Instruction :=
  { i with
    address := f i.address
    operands := i.operands.map (Operand.mapAddress f)
    flow := i.flow.mapAddress f }

def Expr.mapAddress : Expr → Expr
  | .address a => .address (f a)
  | .binary op left right bits => .binary op (left.mapAddress) (right.mapAddress) bits
  | .unary op e bits => .unary op (e.mapAddress) bits
  | .memory segment place bits => .memory segment (place.mapAddress) bits
  | .conditionOf e => .conditionOf (e.mapAddress)
  | e => e

def Stmt.mapAddress : Stmt → Stmt
  | .assign dst src => .assign (dst.mapAddress f) (src.mapAddress f)
  | .store dst src => .store (dst.mapAddress f) (src.mapAddress f)
  | .branch condition target => .branch (condition.mapAddress f) (f target)
  | .goto target => .goto (target.mapAddress f)
  | .call target returnSize => .call (target.mapAddress f) returnSize
  | statement => statement

def Cluster.mapAddress (c : Cluster) : Cluster :=
  ⟨f c.address, c.length, c.statements.map (Stmt.mapAddress f)⟩

def X86.Item.mapAddress : X86.Item → X86.Item
  | .ok i => .ok (i.mapAddress f)
  | .error e => .error ⟨f e.address, e.fault⟩

def X86.Piece.mapAddress : X86.Piece → X86.Piece
  | .undecodable a => .undecodable (f a)
  | .unsupported i => .unsupported (i.mapAddress f)
  | .lifted i statements => .lifted (i.mapAddress f) (statements.map (Stmt.mapAddress f))
  | .copied push pop src dst => .copied (push.mapAddress f) (pop.mapAddress f) src dst

end

/-! ## Decoding -/

section

variable (f : Address → Address)

theorem X86.Bank.Admits.mapAddress {bank : X86.Bank} {o : Operand} (h : bank.Admits o) :
    o.mapAddress f = o := by
  cases o with
  | register | memory => rfl
  | immediate | address => exact h.elim

theorem X86.IsSlotOperand.mapAddress {o : Operand} (h : X86.IsSlotOperand o) :
    o.mapAddress f = o := by
  rcases h with ⟨bits, -, hadmits⟩ | ⟨r, -, rfl⟩
  · exact hadmits.mapAddress f
  · rfl

end

namespace X86

open Address (relocate)

variable {origin target a : Address}

/-- Only the targets of jumps and calls tell where a body was placed. -/
theorem Body.Formed.place_relocate {body : Body} (h : body.Formed)
    (hsize : a.space.size = target.space.size) (bytes : List UInt8) :
    body.place (relocate origin target a) bytes =
      (body.place a bytes).mapAddress (relocate origin target) := by
  have hplain : ∀ {mnemonic operation operands flow},
      operands.map (Operand.mapAddress (relocate origin target)) = operands →
      flow.mapAddress (relocate origin target) = flow →
        (Body.plain mnemonic operation operands flow).place (relocate origin target a) bytes =
          ((Body.plain mnemonic operation operands flow).place a bytes).mapAddress
            (relocate origin target) := by
    intro mnemonic operation operands flow hoperands hflow
    simp only [Body.place, Instruction.mapAddress, hoperands, hflow]
  cases h with
  | alu op hbits hdst hsrc | move hbits hdst hsrc =>
    refine hplain ?_ rfl
    rcases hsrc with hsrc | ⟨value, rfl⟩
    · rw [List.map_cons, List.map_cons, hdst.mapAddress, hsrc.mapAddress, List.map_nil]
    · rw [List.map_cons, hdst.mapAddress]
      rfl
  | loadSegment hr hsrc =>
    exact hplain (by rw [List.map_cons, List.map_cons, hsrc.mapAddress]; rfl) rfl
  | storeSegment hr hdst => exact hplain (by rw [List.map_cons, hdst.mapAddress]; rfl) rfl
  | exclusiveOr hbank hdst hsrc =>
    exact hplain (by rw [List.map_cons, List.map_cons, hdst.mapAddress, hsrc.mapAddress]; rfl) rfl
  | push hsrc => exact hplain (by rw [List.map_cons, hsrc.mapAddress]; rfl) rfl
  | pop hdst => exact hplain (by rw [List.map_cons, hdst.mapAddress]; rfl) rfl
  | call hbits htarget | jump hbits htarget =>
    exact hplain (by rw [List.map_cons, htarget.mapAddress]; rfl) rfl
  | pushImmediate | ret | retMore | nop => exact hplain rfl rfl
  | relative transfer distance =>
    have hnext : relocate origin target (a.advance bytes.length) =
        (relocate origin target a).advance bytes.length :=
      Address.relocate_advance hsize bytes.length
    have htarget : relocate origin target ((a.advance bytes.length).displace distance) =
        ((relocate origin target a).advance bytes.length).displace distance := by
      rw [← hnext]
      exact Address.relocate_displace (a := a.advance bytes.length) hsize distance
    cases transfer with
    | jump | branch | call =>
      simp only [Body.place, Instruction.mapAddress, Flow.mapAddress, Operand.mapAddress, hnext,
        htarget, List.map_cons, List.map_nil]

/-- At another address the same bytes spell the same item, moved. -/
theorem decode_relocate (hsize : a.space.size = target.space.size) (mode : Mode)
    (bytes : List UInt8) :
    decode mode (relocate origin target a) bytes =
      Item.mapAddress (relocate origin target) (decode mode a bytes) := by
  cases hdecode : decode mode a bytes with
  | ok i =>
    obtain ⟨body, c, hrun, rfl⟩ := decode_eq_ok_iff.1 hdecode
    obtain ⟨hformed, -⟩ := (Decoding.ensures_instruction mode).ok hrun
    exact decode_eq_ok_iff.2 ⟨body, c, hrun, (hformed.place_relocate hsize c.taken).symm⟩
  | error e =>
    obtain ⟨hrun, rfl⟩ := decode_eq_error_iff.1 hdecode
    exact decode_eq_error_iff.2 ⟨hrun, rfl⟩

end X86

/-! ## Statements -/

section

variable (f : Address → Address)

@[simp] theorem Operand.isImmediate_mapAddress (o : Operand) :
    (o.mapAddress f).isImmediate = o.isImmediate := by
  cases o <;> rfl

@[simp] theorem Operand.bits?_mapAddress (o : Operand) : (o.mapAddress f).bits? = o.bits? := by
  cases o <;> rfl

@[simp] theorem Operand.register?_mapAddress (o : Operand) :
    (o.mapAddress f).register? = o.register? := by
  cases o <;> rfl

@[simp] theorem Expr.isMemory_mapAddress (e : Expr) : (e.mapAddress f).isMemory = e.isMemory := by
  cases e <;> rfl

@[simp] theorem Stmt.mapAddress_set (dst src : Expr) :
    (Stmt.set dst src).mapAddress f = .set (dst.mapAddress f) (src.mapAddress f) := by
  simp only [set, Expr.isMemory_mapAddress]
  split <;> rfl

@[simp] theorem Expr.mapAddress_displaced (e : Expr) (d : Int) (bits : Nat) :
    (e.displaced d bits).mapAddress f = (e.mapAddress f).displaced d bits := by
  unfold displaced
  split
  · rfl
  · split <;> rfl

namespace X86

theorem mapAddress_effectiveAddress (mode : Mode) (m : MemoryRef) :
    (effectiveAddress mode m).mapAddress f = effectiveAddress mode m := by
  have hscaled : ∀ (bits scale : Nat) (r : Register),
      (scaledIndex bits scale r).mapAddress f = scaledIndex bits scale r := by
    intro bits scale r
    unfold scaledIndex
    split <;> rfl
  unfold effectiveAddress
  cases m.base with
  | none =>
    cases m.index with
    | none => rfl
    | some index => simp only [Option.map_some, Expr.mapAddress_displaced, hscaled]
  | some base =>
    cases m.index with
    | none => simp only [Option.map_none, Expr.mapAddress_displaced, Expr.mapAddress]
    | some index =>
      simp only [Option.map_some, Expr.mapAddress_displaced, Expr.mapAddress, hscaled]

@[simp] theorem mapAddress_stackAccess (mode : Mode) (offset : Int) (bits : Nat) :
    (stackAccess mode offset bits).mapAddress f = stackAccess mode offset bits := by
  simp only [stackAccess, Expr.mapAddress, Expr.mapAddress_displaced]

@[simp] theorem mapAddress_moveStackPointer (mode : Mode) (bytes : Int) :
    (moveStackPointer mode bytes).mapAddress f = moveStackPointer mode bytes := by
  simp only [moveStackPointer, Stmt.mapAddress_set, Expr.mapAddress, Expr.mapAddress_displaced]

@[simp] theorem slotBits_mapAddress (mode : Mode) (o : Operand) :
    slotBits mode (o.mapAddress f) = slotBits mode o := by
  cases o <;> rfl

@[simp] theorem sameRegister?_mapAddress (operands : List Operand) :
    sameRegister? (operands.map (Operand.mapAddress f)) = sameRegister? operands := by
  rcases operands with _ | ⟨dst, _ | ⟨src, _ | _⟩⟩
  case nil => rfl
  case cons.nil => cases dst <;> rfl
  all_goals cases dst <;> cases src <;> rfl

namespace Setting

variable {s : Setting}

@[simp] theorem expr_mapAddress (s : Setting) (o : Operand) :
    s.expr (o.mapAddress f) = (s.expr o).mapAddress f := by
  cases o with
  | memory m =>
    simp only [Operand.mapAddress, expr, operandExpr, memoryExpr, Expr.mapAddress,
      mapAddress_effectiveAddress]
  | register | immediate | address => rfl

@[simp] theorem slotBytes_mapAddress (s : Setting) (o : Operand) :
    s.slotBytes (o.mapAddress f) = s.slotBytes o := by
  rw [slotBytes, slotBits_mapAddress, slotBytes]

theorem import?_eq_none (hsilent : s.host = .silent) (o : Operand) : s.import? o = none := by
  rw [import?, hsilent]
  exact Option.bind_eq_none_iff.2 fun _ _ => rfl

theorem calleeSignature?_eq_none (hsilent : s.host = .silent) (target : Operand) :
    s.calleeSignature? target = none := by
  have hsignature : (callSlot? s.mode target).bind s.host.signature? = none := by
    rw [hsilent]
    exact Option.bind_eq_none_iff.2 fun _ _ => rfl
  rw [calleeSignature?, hsignature, import?_eq_none hsilent]
  rfl

section

variable (s) (operands : List Operand)

theorem moveStatements?_mapAddress :
    s.moveStatements? (operands.map (Operand.mapAddress f)) =
      (s.moveStatements? operands).map (List.map (Stmt.mapAddress f)) := by
  rcases operands with _ | ⟨dst, _ | ⟨src, _ | _⟩⟩
  case cons.cons.nil =>
    cases himmediate : dst.isImmediate <;> simp [moveStatements?, himmediate]
  all_goals rfl

theorem arithmeticStatements?_mapAddress (op : BinaryOp) :
    s.arithmeticStatements? op (operands.map (Operand.mapAddress f)) =
      (s.arithmeticStatements? op operands).map (List.map (Stmt.mapAddress f)) := by
  rcases operands with _ | ⟨dst, _ | ⟨src, _ | _⟩⟩
  case cons.cons.nil =>
    cases hbits : dst.bits? <;> simp [arithmeticStatements?, hbits, Expr.mapAddress]
  all_goals rfl

theorem compareStatements?_mapAddress :
    s.compareStatements? (operands.map (Operand.mapAddress f)) =
      (s.compareStatements? operands).map (List.map (Stmt.mapAddress f)) := by
  rcases operands with _ | ⟨dst, _ | ⟨src, _ | _⟩⟩
  case cons.cons.nil =>
    cases hbits : dst.bits? <;> simp [compareStatements?, hbits, Expr.mapAddress]
  all_goals rfl

theorem logicalStatements?_mapAddress (op : BinaryOp) :
    s.logicalStatements? op (operands.map (Operand.mapAddress f)) =
      (s.logicalStatements? op operands).map (List.map (Stmt.mapAddress f)) := by
  rcases operands with _ | ⟨dst, _ | ⟨src, _ | _⟩⟩
  case cons.cons.nil =>
    cases hbits : dst.bits? <;> simp [logicalStatements?, hbits, Expr.mapAddress]
  all_goals rfl

theorem pushStatements?_mapAddress :
    s.pushStatements? (operands.map (Operand.mapAddress f)) =
      (s.pushStatements? operands).map (List.map (Stmt.mapAddress f)) := by
  rcases operands with _ | ⟨src, _ | _⟩
  case cons.nil =>
    have hstore : ∀ dst src, (Stmt.store dst src).mapAddress f =
        .store (dst.mapAddress f) (src.mapAddress f) := fun _ _ => rfl
    simp [pushStatements?, slotAccess, hstore]
  all_goals rfl

theorem popStatements?_mapAddress :
    s.popStatements? (operands.map (Operand.mapAddress f)) =
      (s.popStatements? operands).map (List.map (Stmt.mapAddress f)) := by
  rcases operands with _ | ⟨dst, _ | _⟩
  case cons.nil =>
    cases himmediate : dst.isImmediate <;> simp [popStatements?, slotAccess, himmediate]
  all_goals rfl

theorem jumpStatements?_mapAddress :
    s.jumpStatements? (operands.map (Operand.mapAddress f)) =
      (s.jumpStatements? operands).map (List.map (Stmt.mapAddress f)) := by
  rcases operands with _ | ⟨target, _ | _⟩
  case cons.nil => simp [jumpStatements?, Stmt.mapAddress]
  all_goals rfl

theorem retStatements?_mapAddress :
    s.retStatements? (operands.map (Operand.mapAddress f)) =
      (s.retStatements? operands).map (List.map (Stmt.mapAddress f)) := by
  rcases operands with _ | ⟨o, _ | _⟩
  case nil => rfl
  all_goals cases o <;> rfl

end

/-- A host that knows nothing has no name for what is called. -/
theorem callStatements?_mapAddress (hsilent : s.host = .silent) (operands : List Operand) :
    s.callStatements? (operands.map (Operand.mapAddress f)) =
      (s.callStatements? operands).map (List.map (Stmt.mapAddress f)) := by
  rcases operands with _ | ⟨target, _ | _⟩
  case cons.nil => simp [callStatements?, callee, import?_eq_none hsilent, Stmt.mapAddress]
  all_goals rfl

/-- With other addresses an instruction has the same statements, with their addresses moved. -/
theorem statements?_mapAddress (hsilent : s.host = .silent) (i : Instruction) :
    s.statements? (i.mapAddress f) = (s.statements? i).map (List.map (Stmt.mapAddress f)) := by
  obtain ⟨address, bytes, mnemonic, operation, operands, flow⟩ := i
  unfold statements?
  simp only [Instruction.mapAddress]
  cases operation with
  | move => exact s.moveStatements?_mapAddress f operands
  | add | sub => exact s.arithmeticStatements?_mapAddress f operands _
  | compare => exact s.compareStatements?_mapAddress f operands
  | and | or => exact s.logicalStatements?_mapAddress f operands _
  | xor => cases hsame : sameRegister? operands <;> simp [zeroStatements?, hsame, Expr.mapAddress]
  | push => exact s.pushStatements?_mapAddress f operands
  | pop => exact s.popStatements?_mapAddress f operands
  | call => exact callStatements?_mapAddress f hsilent operands
  | jump => exact s.jumpStatements?_mapAddress f operands
  | conditionalJump => cases flow <;> rfl
  | ret => exact s.retStatements?_mapAddress f operands
  | nop | addWithCarry | subWithBorrow | other => rfl

end Setting

/-! ## Effects -/

/-- The frames and the depths are the same. -/
structure Progress.Alike (p q : Progress) : Prop where
  frame : q.frame = p.frame
  frameDepth : q.frameDepth = p.frameDepth
  depth : q.state.depth = p.state.depth

@[simp] theorem growthOf_mapAddress (op : BinaryOp) (dst src : Operand) :
    growthOf op (dst.mapAddress f) (src.mapAddress f) = growthOf op dst src := by
  cases dst <;> cases src <;> rfl

theorem written?_mapAddress (i : Instruction) :
    written? (i.mapAddress f) =
      (written? i).map fun (dst, src) => (dst.mapAddress f, src.map (Operand.mapAddress f)) := by
  obtain ⟨address, bytes, mnemonic, operation, operands, flow⟩ := i
  unfold written?
  simp only [Instruction.mapAddress]
  cases operands with
  | nil => cases operation <;> rfl
  | cons dst rest => cases operation <;> simp

theorem Setting.nameOperands_mapAddress (s : Setting) (operands : List Operand) :
    s.nameOperands (operands.map (Operand.mapAddress f)) = s.nameOperands operands := by
  have hregister : Operand.register? ∘ Operand.mapAddress f = Operand.register? :=
    funext (Operand.register?_mapAddress f)
  funext slots g
  rw [nameOperands, List.filterMap_map, hregister, nameOperands]

namespace Progress.Alike

open Setting (calleeSignature?_eq_none depth_arithmetic depth_clear depth_foldInto depth_pop
  depth_push depth_setOperand slotBytes_mapAddress)

variable {s : Setting} {p q : Progress}

theorem slot? (h : p.Alike q) (o : Operand) : q.slot? (o.mapAddress f) = p.slot? o := by
  cases o with
  | memory m =>
    have hdepth : q.depthOf? = p.depthOf? := by
      funext base
      rw [depthOf?, h.depth, h.frameDepth, depthOf?]
    simp only [Operand.mapAddress, Progress.slot?, entryOffset?, hdepth]
  | register | immediate | address => rfl

theorem top (h : p.Alike q) : q.state.top = p.state.top := by
  rw [State.top, h.depth, State.top]

theorem arrive (h : p.Alike q) (i j : Instruction) : (p.arrive i).Alike (q.arrive j) where
  frame := h.frame
  frameDepth := h.frameDepth
  depth := by rw [(q.moved_arrive j).depth, (p.moved_arrive i).depth, h.depth]

theorem follow (h : p.Alike q) (dst : Operand) (src : Option Operand) :
    (p.follow dst src).Alike (q.follow (dst.mapAddress f) (src.map (Operand.mapAddress f))) := by
  refine ⟨?_, ?_, ?_⟩
  · rw [frame_follow, frame_follow, h.frame]
  · cases dst with
    | register r =>
      simp only [Operand.mapAddress, Progress.follow]
      cases hframe : isFramePointer r with
      | false => simpa using h.frameDepth
      | true =>
        cases src with
        | none => rfl
        | some source => cases source <;> simp [Operand.mapAddress, h.depth]
    | immediate | memory | address => exact h.frameDepth
  · rw [state_follow, state_follow, h.depth]

section

variable (h : p.Alike q) (operands : List Operand)

include h

theorem move : (p.move operands).Alike (q.move (operands.map (Operand.mapAddress f))) := by
  rcases operands with _ | ⟨dst, _ | ⟨src, _ | _⟩⟩
  case cons.cons.nil =>
    refine ⟨h.frame, h.frameDepth, ?_⟩
    exact (depth_setOperand _ _ _).trans (h.depth.trans (depth_setOperand _ _ _).symm)
  all_goals exact h

theorem arithmetic (op : BinaryOp) :
    (p.arithmetic op operands).Alike (q.arithmetic op (operands.map (Operand.mapAddress f))) := by
  rcases operands with _ | ⟨dst, _ | ⟨src, _ | _⟩⟩
  case cons.cons.nil =>
    refine ⟨congrArg (·.addFlags arithmeticFlags) h.frame, h.frameDepth, ?_⟩
    rw [List.map_cons, List.map_cons, List.map_nil, depth_arithmetic, depth_arithmetic,
      growthOf_mapAddress, h.depth]
  all_goals exact h

theorem logical (op : BinaryOp) :
    (p.logical op operands).Alike (q.logical op (operands.map (Operand.mapAddress f))) := by
  rcases operands with _ | ⟨dst, _ | ⟨src, _ | _⟩⟩
  case cons.cons.nil =>
    refine ⟨congrArg (fun g => (g.addFlags logicalFlags).addFlags clearedFlags) h.frame,
      h.frameDepth, ?_⟩
    exact (depth_foldInto _ _ _ _).trans (h.depth.trans (depth_foldInto _ _ _ _).symm)
  all_goals exact h

theorem push : (s.push p operands).Alike (s.push q (operands.map (Operand.mapAddress f))) := by
  rcases operands with _ | ⟨src, _ | _⟩
  case cons.nil =>
    have hdepth : (s.push q [src.mapAddress f]).state.depth = (s.push p [src]).state.depth := by
      rw [depth_push, depth_push, slotBytes_mapAddress, h.depth]
    have htop : (s.push q [src.mapAddress f]).state.top = (s.push p [src]).state.top := by
      rw [State.top, hdepth, State.top]
    refine ⟨?_, h.frameDepth, hdepth⟩
    change q.frame.addLocal (s.push q [src.mapAddress f]).state.top _ =
      p.frame.addLocal (s.push p [src]).state.top _
    rw [htop, slotBits_mapAddress, h.frame]
  all_goals exact h

theorem pop : (s.pop p operands).Alike (s.pop q (operands.map (Operand.mapAddress f))) := by
  rcases operands with _ | ⟨dst, _ | _⟩
  case cons.nil =>
    refine ⟨h.frame, h.frameDepth, ?_⟩
    rw [List.map_cons, List.map_nil, depth_pop, depth_pop, slotBytes_mapAddress, h.depth]
  all_goals exact h

end

theorem branch (h : p.Alike q) (flow : Flow) :
    (p.branch flow).Alike (q.branch (flow.mapAddress f)) := by
  cases flow with
  | branch target condition next =>
    exact ⟨congrArg (·.addFlags (conditionFlags condition)) h.frame, h.frameDepth, h.depth⟩
  | sequential | jump | indirectJump | call | indirectCall | ret | halt => exact h

/-- A host that knows nothing has no signature that could move the stack. -/
theorem call (hsilent : s.host = .silent) (h : p.Alike q) (i : Instruction) :
    (s.call i p).1.Alike (s.call (i.mapAddress f) q).1 := by
  obtain ⟨address, bytes, mnemonic, operation, operands, flow⟩ := i
  rcases operands with _ | ⟨target, _ | _⟩
  case cons.nil =>
    refine ⟨h.frame, h.frameDepth, ?_⟩
    change (q.state.afterCall _ (s.calleeSignature? (target.mapAddress f))).depth =
      (p.state.afterCall _ (s.calleeSignature? target)).depth
    rw [calleeSignature?_eq_none hsilent, calleeSignature?_eq_none hsilent]
    exact (depth_clear _).trans (h.depth.trans (depth_clear _).symm)
  all_goals exact h

theorem perform (hsilent : s.host = .silent) (h : p.Alike q) (i : Instruction) :
    (s.perform i p).1.Alike (s.perform (i.mapAddress f) q).1 := by
  have hoperation : (i.mapAddress f).operation = i.operation := rfl
  unfold Setting.perform
  rw [hoperation]
  cases i.operation with
  | move => exact h.move f i.operands
  | add | sub => exact h.arithmetic f i.operands _
  | compare => exact ⟨congrArg (·.addFlags arithmeticFlags) h.frame, h.frameDepth, h.depth⟩
  | and | or => exact h.logical f i.operands _
  | xor =>
    simp only [Progress.zero, Instruction.mapAddress, sameRegister?_mapAddress]
    cases sameRegister? i.operands with
    | none => exact h
    | some r => exact ⟨h.frame, h.frameDepth, h.depth⟩
  | push => exact h.push f i.operands
  | pop => exact h.pop f i.operands
  | call => exact h.call f hsilent i
  | conditionalJump => exact h.branch f i.flow
  | nop | jump | ret | addWithCarry | subWithBorrow | other => exact h

theorem execute (hsilent : s.host = .silent) (h : p.Alike q) (i : Instruction) :
    (s.execute i p).1.Alike (s.execute (i.mapAddress f) q).1 := by
  have hperform := h.perform f hsilent i
  have hslots : (i.mapAddress f).operands.filterMap q.slot? = i.operands.filterMap p.slot? := by
    have hslot : q.slot? ∘ Operand.mapAddress f = p.slot? := funext (h.slot? f)
    rw [Instruction.mapAddress, List.filterMap_map, hslot]
  have hnamed : Progress.Alike
      ((s.perform i p).1.withFrame (s.nameOperands i.operands (i.operands.filterMap p.slot?)))
      ((s.perform (i.mapAddress f) q).1.withFrame
        (s.nameOperands (i.mapAddress f).operands
          ((i.mapAddress f).operands.filterMap q.slot?))) := by
    refine ⟨?_, hperform.frameDepth, hperform.depth⟩
    rw [hslots, Instruction.mapAddress, s.nameOperands_mapAddress f]
    exact congrArg (s.nameOperands i.operands _) hperform.frame
  unfold Setting.execute
  rw [written?_mapAddress]
  cases written? i with
  | none => exact hnamed
  | some written => exact hnamed.follow f _ _

theorem copy (h : p.Alike q) (src dst : Register) : (p.copy src dst).Alike (q.copy src dst) := by
  have hnamed : Progress.Alike
      ((p.withState fun t => t.setRegister dst (t.register src)).withFrame fun g =>
        (g.addRegister src).addRegister dst)
      ((q.withState fun t => t.setRegister dst (t.register src)).withFrame fun g =>
        (g.addRegister src).addRegister dst) :=
    ⟨congrArg (fun g => (g.addRegister src).addRegister dst) h.frame, h.frameDepth, h.depth⟩
  exact hnamed.follow id (.register dst) (some (.register src))

theorem pass (hsilent : s.host = .silent) (h : p.Alike q) (piece : Piece) :
    (s.pass p piece).Alike (s.pass q (piece.mapAddress f)) := by
  cases piece with
  | undecodable => exact h
  | unsupported i => exact h.arrive i _
  | lifted i statements => exact (h.arrive i (i.mapAddress f)).execute f hsilent i
  | copied push pop src dst => exact (h.arrive push (push.mapAddress f)).copy src dst

theorem foldl (hsilent : s.host = .silent) (h : p.Alike q) (pieces : List Piece) :
    (pieces.foldl s.pass p).Alike ((pieces.map (Piece.mapAddress f)).foldl s.pass q) := by
  induction pieces generalizing p q with
  | nil => exact h
  | cons piece rest ih => exact ih (h.pass f hsilent piece)

end Progress.Alike

end X86

end

end CodeLift
