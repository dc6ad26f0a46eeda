-- SUMMARY: The registers and flags of the x86 processor.
import CodeLift.Processor
import CodeLift.X86.Mode

/-!
# Registers and flags

The eight general registers have 32 bits; their lower halves are registers too,
and of four of them also the two bytes of the lower half. Register numbers in
instructions pick from `general`, `segment?`, `mmx` and `xmm`.
-/

namespace CodeLift.X86

/-! ## Registers -/

def eax : Register := .root "eax" 0 .general 32
def ecx : Register := .root "ecx" 1 .general 32
def edx : Register := .root "edx" 2 .general 32
def ebx : Register := .root "ebx" 3 .general 32
def esp : Register := .root "esp" 4 .stackPointer 32
def ebp : Register := .root "ebp" 5 .general 32
def esi : Register := .root "esi" 6 .general 32
def edi : Register := .root "edi" 7 .general 32

def ax : Register := eax.carve "ax" 8 0 16
def cx : Register := ecx.carve "cx" 9 0 16
def dx : Register := edx.carve "dx" 10 0 16
def bx : Register := ebx.carve "bx" 11 0 16
def sp : Register := esp.carve "sp" 12 0 16
def bp : Register := ebp.carve "bp" 13 0 16
def si : Register := esi.carve "si" 14 0 16
def di : Register := edi.carve "di" 15 0 16

def al : Register := eax.carve "al" 16 0 8
def cl : Register := ecx.carve "cl" 17 0 8
def dl : Register := edx.carve "dl" 18 0 8
def bl : Register := ebx.carve "bl" 19 0 8
def ah : Register := eax.carve "ah" 20 8 8
def ch : Register := ecx.carve "ch" 21 8 8
def dh : Register := edx.carve "dh" 22 8 8
def bh : Register := ebx.carve "bh" 23 8 8

def es : Register := .root "es" 24 .segment 16
def cs : Register := .root "cs" 25 .segment 16
def ss : Register := .root "ss" 26 .segment 16
def ds : Register := .root "ds" 27 .segment 16
def fs : Register := .root "fs" 28 .segment 16
def gs : Register := .root "gs" 29 .segment 16

def eip : Register := .root "eip" 30 .programCounter 32
def ip : Register := eip.carve "ip" 31 0 16
def eflags : Register := .root "eflags" 32 .flags 32

/-- The MMX register `mm0` to `mm7` of a number. -/
def mm (n : Nat) : Register := .root s!"mm{n}" (40 + n) .vector 64

/-- The SSE register `xmm0` to `xmm7` of a number. -/
def xmm (n : Nat) : Register := .root s!"xmm{n}" (48 + n) .vector 128

def general32 : List Register := [eax, ecx, edx, ebx, esp, ebp, esi, edi]
def general16 : List Register := [ax, cx, dx, bx, sp, bp, si, di]
def general8 : List Register := [al, cl, dl, bl, ah, ch, dh, bh]
def segments : List Register := [es, cs, ss, ds, fs, gs]

def registers : RegisterTable where
  maxBits := 128
  registers :=
    general32 ++ general16 ++ general8 ++ segments ++ [eip, ip, eflags] ++
      (List.range 8).map mm ++ (List.range 8).map xmm

/-! ## Register numbers -/

/-- The general register of a number, of which three bits count, at a width. -/
def general (n bits : Nat) : Register :=
  if bits = 8 then general8.getD (n % 8) al
  else if bits = 16 then general16.getD (n % 8) ax
  else general32.getD (n % 8) eax

/-- The segment register of a number; two numbers have none. -/
def segment? (n : Nat) : Option Register := segments[n]?

/-- The stack pointer of a width. -/
def stackPointer (bits : Nat) : Register := if bits = 16 then sp else esp

/-! ## Flags -/

def signFlag : Nat := 0x01
def carryFlag : Nat := 0x02
def zeroFlag : Nat := 0x04
def directionFlag : Nat := 0x08
def overflowFlag : Nat := 0x10
def parityFlag : Nat := 0x20

/-- The flags in the order of their names; `V` reads as `O`. -/
def flags : FlagTable :=
  (FlagTable.ofFlags eflags
    [⟨signFlag, 'S'⟩, ⟨carryFlag, 'C'⟩, ⟨zeroFlag, 'Z'⟩, ⟨directionFlag, 'D'⟩,
     ⟨overflowFlag, 'O'⟩, ⟨parityFlag, 'P'⟩]).withAlias 'V' overflowFlag

/-- The group of the flags in `mask`. -/
def flagGroup (mask : Nat) : FlagGroup := ⟨eflags, mask, flags.nameOf mask⟩

/-! ## The processor -/

def processor : Mode → Processor
  | .real16 =>
    { name := Mode.real16.architectureName
      description := Mode.real16.description
      registers := registers
      flags := flags
      stackPointer := sp
      instructionPointer := ip
      codeSegment := some cs
      pointerWidth := .w16
      wordBits := 16
      order := .little
      returnSize := 2 }
  | .protected32 =>
    { name := Mode.protected32.architectureName
      description := Mode.protected32.description
      registers := registers
      flags := flags
      stackPointer := esp
      instructionPointer := eip
      codeSegment := none
      pointerWidth := .w32
      wordBits := 32
      order := .little
      returnSize := 4 }

/-- A mode with the processor that goes with it. -/
structure Variant where
  mode : Mode
  processor : Processor

namespace Variant

def of (mode : Mode) : Variant := ⟨mode, X86.processor mode⟩

abbrev real16 : Variant := of .real16

abbrev protected32 : Variant := of .protected32

instance : Coe Mode Variant := ⟨of⟩

end Variant

end CodeLift.X86
