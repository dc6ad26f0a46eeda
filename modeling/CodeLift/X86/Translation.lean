-- SUMMARY: The expressions, places and flags that instructions are translated into.
import CodeLift.Host
import CodeLift.Rtl.Stmt
import CodeLift.X86.Decoder

/-!
# Translation to register transfers

What an operand, a stack slot and the target of a call become depends on the
mode and on the names of imports, and on nothing that is known about the
processor. Stack accesses and references based on a stack or frame pointer go
through `ss` in real mode, other references through `ds`.
-/

namespace CodeLift.X86

/-- What translation depends on besides the instruction. -/
structure Setting where
  mode : Mode
  host : Host

/-! ## Operands -/

/-- The register lies in the domain of the stack pointer. -/
def isStackPointer (r : Register) : Bool := r.domain == esp.domain

/-- The register lies in the domain of the frame pointer. -/
def isFramePointer (r : Register) : Bool := r.domain == ebp.domain

/-- The width in which the address of a memory reference is computed. -/
def addressBits (mode : Mode) (m : MemoryRef) : Nat :=
  match m.base.or m.index with
  | some r => r.bits
  | none => mode.bits

/-- The index register of a memory reference, scaled. -/
def scaledIndex (bits scale : Nat) (r : Register) : Expr :=
  if 1 < scale then .binary .mul (.register r) (.constant (.ofNat bits scale)) bits
  else .register r

/-- The address of a memory reference in its segment. -/
def effectiveAddress (mode : Mode) (m : MemoryRef) : Expr :=
  let bits := addressBits mode m
  match m.base, m.index.map (scaledIndex bits m.scale) with
  | none, none => .constant (.ofInt bits m.displacement)
  | some base, none => (Expr.register base).displaced m.displacement bits
  | none, some index => index.displaced m.displacement bits
  | some base, some index =>
    (Expr.binary .add (.register base) index bits).displaced m.displacement bits

/-- The segment register that a memory reference goes through. -/
def segmentOf (mode : Mode) (m : MemoryRef) : Option Register :=
  match m.segment, mode with
  | some r, _ => some r
  | none, .protected32 => none
  | none, .real16 =>
    if m.base.any fun r => isFramePointer r || isStackPointer r then some ss else some ds

def memoryExpr (mode : Mode) (m : MemoryRef) : Expr :=
  .memory (segmentOf mode m) (effectiveAddress mode m) m.bits

def operandExpr (mode : Mode) : Operand → Expr
  | .register r => .register r
  | .immediate value bits => .constant (.ofInt bits value)
  | .memory m => memoryExpr mode m
  | .address a => .address a

/-- The access to `bits` bits of the stack at `offset` from the stack pointer. -/
def stackAccess (mode : Mode) (offset : Int) (bits : Nat) : Expr :=
  let sp := (processor mode).stackPointer
  let segment := match mode with
    | .real16 => some ss
    | .protected32 => none
  .memory segment ((Expr.register sp).displaced offset sp.bits) bits

/-! ## Flags -/

/-- The flags that arithmetic sets. -/
def arithmeticMask : Nat := signFlag ||| carryFlag ||| zeroFlag ||| overflowFlag

/-- The flags that logical operations set from their result. -/
def logicalMask : Nat := signFlag ||| zeroFlag ||| overflowFlag

/-- The flags that a condition tests. -/
def conditionMask : Condition → Nat
  | .equal | .notEqual => zeroFlag
  | .below | .aboveOrEqual => carryFlag
  | .belowOrEqual | .above => carryFlag ||| zeroFlag
  | .less | .greaterOrEqual => signFlag ||| overflowFlag
  | .lessOrEqual | .greater => signFlag ||| zeroFlag ||| overflowFlag
  | .sign | .notSign => signFlag
  | .overflow | .notOverflow => overflowFlag
  | .parity | .notParity => parityFlag

/-! ## Places -/

/-- The register, if both operands are the same one. -/
def sameRegister? : List Operand → Option Register
  | [.register a, .register b] => if a = b then some a else none
  | _ => none

/-- The width of the stack slot of an operand; a segment register takes a whole word. -/
def slotBits (mode : Mode) : Operand → Nat
  | .register r => if r.kind = .segment then mode.bits else r.bits
  | o => o.bits?.getD mode.bits

/-- Move the stack pointer by `bytes`. -/
def moveStackPointer (mode : Mode) (bytes : Int) : Stmt :=
  let sp := stackPointer mode.bits
  .set (.register sp) ((Expr.register sp).displaced bytes sp.bits)

/-- The address whose import or procedure a call goes to. -/
def callSlot? (mode : Mode) : Operand → Option Address
  | .address a => some a
  | .memory m =>
    if m.base.isNone ∧ m.index.isNone ∧ mode = .protected32 then
      some (.wrapping (.flat .w32) (m.displacement % modulus 32).toNat)
    else none
  | _ => none

namespace Setting

variable (s : Setting)

def expr (o : Operand) : Expr := operandExpr s.mode o

def returnSize : Nat := (processor s.mode).returnSize

/-- The bytes of the stack slot of an operand. -/
def slotBytes (o : Operand) : Nat := slotBits s.mode o / 8

/-- The access to the operand's slot at the stack pointer. -/
def slotAccess (o : Operand) : Expr := stackAccess s.mode 0 (slotBits s.mode o)

/-- The import that a call goes to. -/
def import? (o : Operand) : Option String := (callSlot? s.mode o).bind s.host.importName?

/-- The target of a call: its import by name, or else the operand itself. -/
def callee (o : Operand) : Expr :=
  match s.import? o with
  | some name => .external name
  | none => s.expr o

end Setting

end CodeLift.X86
