-- SUMMARY: Locals and arguments of a frame keep apart as long as pushes land below the entry.
import CodeLift.Proofs.Stages
import CodeLift.Proofs.Text.Hex
import CodeLift.Proofs.X86.StackSlots

/-!
# Locals and arguments

The operands of an instruction name slots below the stack pointer at entry as locals, and
those beyond the return address as arguments. A push names the slot that it fills as a
local wherever that is. So what a frame can have been asked for (`Storage.Asked`) are slots
on the right side, and those that pushes have filled (`Architecture.grows_stage`).

Slots on the right side have names of their own, so a frame keeps locals and arguments
apart if and only if each push has landed below the stack pointer at entry
(`Architecture.keepsApart_iff`).
-/

namespace CodeLift

open X86 (Mode Piece Progress Setting)

/-! ## Names of slots -/

/-- The offset of a stack slot from the stack pointer at entry. -/
def Storage.offset? : Storage → Option Int
  | .stackLocal offset | .stackArgument offset => some offset
  | .register _ | .flags _ => none

theorem Storage.toList_name_stackLocal (offset : Int) :
    (stackLocal offset).name.toList =
      'l' :: 'o' :: 'c' :: Text.upperHexFilled 2 offset.natAbs := by
  simp [name]

theorem Storage.toList_name_stackArgument (offset : Int) :
    (stackArgument offset).name.toList =
      'a' :: 'r' :: 'g' :: Text.upperHexFilled 2 (offset % modulus 32).toNat := by
  simp [name]

theorem Storage.stackLocal_inj_of_name {x y : Int} (hx : x < 0) (hy : y < 0)
    (h : (stackLocal x).name = (stackLocal y).name) : x = y := by
  have htext := congrArg String.toList h
  rw [toList_name_stackLocal, toList_name_stackLocal] at htext
  simp only [List.cons.injEq, true_and] at htext
  have habs := Text.upperHexFilled_injective 2 htext
  omega

theorem Storage.stackArgument_inj_of_name {x y : Int} (hx : 0 ≤ x ∧ x < modulus 32)
    (hy : 0 ≤ y ∧ y < modulus 32) (h : (stackArgument x).name = (stackArgument y).name) :
    x = y := by
  have htext := congrArg String.toList h
  rw [toList_name_stackArgument, toList_name_stackArgument, Int.emod_eq_of_lt hx.1 hx.2,
    Int.emod_eq_of_lt hy.1 hy.2] at htext
  simp only [List.cons.injEq, true_and] at htext
  have hvalue := Text.upperHexFilled_injective 2 htext
  omega

theorem Storage.name_stackLocal_ne (x y : Int) :
    (stackLocal x).name ≠ (stackArgument y).name := by
  intro h
  have htext := congrArg String.toList h
  rw [toList_name_stackLocal, toList_name_stackArgument] at htext
  have hfirst := (List.cons.inj htext).1
  revert hfirst
  decide

/-! ## Frames that grow -/

namespace Frame

/-- Locals are below the stack pointer at entry and arguments beyond the return address, and stack
slots that have the same width and the same name are the same. -/
structure KeepsApart (f : Frame) (returnSize : Nat) : Prop where
  locals : ∀ id ∈ f.identifiers, ∀ offset, id.storage = .stackLocal offset → offset < 0
  arguments : ∀ id ∈ f.identifiers, ∀ offset, id.storage = .stackArgument offset →
    (returnSize : Int) ≤ offset
  names : ∀ id ∈ f.identifiers, ∀ id' ∈ f.identifiers, ∀ offset offset',
    id.storage.offset? = some offset → id'.storage.offset? = some offset' →
      id.bits = id'.bits → id.name = id'.name → offset = offset'

/-- From one frame to the other there are only more identifiers, each with the name of its location,
of which `P` holds. -/
structure Grows (P : Storage → Prop) (f g : Frame) : Prop where
  kept : ∀ id ∈ f.identifiers, id ∈ g.identifiers
  new : ∀ id ∈ g.identifiers, id ∈ f.identifiers ∨ P id.storage ∧ id.name = id.storage.name

variable {P Q : Storage → Prop} {f g h : Frame}

theorem Grows.refl (P : Storage → Prop) (f : Frame) : Grows P f f :=
  ⟨fun _ hid => hid, fun _ hid => .inl hid⟩

theorem Grows.trans (hfg : Grows P f g) (hgh : Grows P g h) : Grows P f h where
  kept id hid := hgh.kept id (hfg.kept id hid)
  new id hid := by
    rcases hgh.new id hid with hold | hnew
    · exact hfg.new id hold
    · exact .inr hnew

theorem Grows.mono (hfg : Grows P f g) (hPQ : ∀ storage, P storage → Q storage) :
    Grows Q f g where
  kept := hfg.kept
  new id hid := (hfg.new id hid).imp_right fun ⟨hP, hname⟩ => ⟨hPQ _ hP, hname⟩

theorem grows_add {storage : Storage} (hP : P storage) (f : Frame) (bits : Nat) :
    Grows P f (f.add storage bits) where
  kept _ hid := mem_add hid storage bits
  new id hid := by
    rcases of_mem_add hid with hold | rfl
    · exact .inl hold
    · exact .inr ⟨hP, rfl⟩

theorem grows_foldl {α : Type} {step : Frame → α → Frame} {l : List α}
    (hstep : ∀ x ∈ l, ∀ g, Grows P g (step g x)) (f : Frame) : Grows P f (l.foldl step f) :=
  List.foldlRecOn (motive := Grows P f) l step (.refl P f) fun g hg x hx => hg.trans (hstep x hx g)

end Frame

/-- What a frame is asked for: registers, flag groups, slots below the stack pointer at entry or
beyond the return address, and the slots that pushes fill. -/
inductive Storage.Asked (returnSize : Nat) (Pushed : Int → Prop) : Storage → Prop
  | register (r : Register) : Asked returnSize Pushed (.register r)
  | flags (g : FlagGroup) : Asked returnSize Pushed (.flags g)
  | below {offset : Int} (hneg : offset < 0) : Asked returnSize Pushed (.stackLocal offset)
  | beyond {offset : Int} (hle : (returnSize : Int) ≤ offset) (hlt : offset < modulus 31) :
      Asked returnSize Pushed (.stackArgument offset)
  | pushed {offset : Int} (hpushed : Pushed offset) : Asked returnSize Pushed (.stackLocal offset)

theorem Storage.Asked.mono {returnSize : Nat} {Pushed Pushed' : Int → Prop}
    (hpushed : ∀ offset, Pushed offset → Pushed' offset) {storage : Storage}
    (h : storage.Asked returnSize Pushed) : storage.Asked returnSize Pushed' := by
  cases h with
  | register r => exact .register r
  | flags g => exact .flags g
  | below hneg => exact .below hneg
  | beyond hle hlt => exact .beyond hle hlt
  | pushed h => exact .pushed (hpushed _ h)

open CodeLift.Frame (Grows grows_add grows_foldl)
open Storage (Asked)

/-- If pushes only fill slots below the stack pointer at entry, a slot that is asked for is a local
below it or an argument beyond the return address. -/
theorem Storage.Asked.side {returnSize : Nat} {Pushed : Int → Prop}
    (hpushed : ∀ offset, Pushed offset → offset < 0) {storage : Storage}
    (h : storage.Asked returnSize Pushed) {offset : Int} (hoffset : storage.offset? = some offset) :
    storage = .stackLocal offset ∧ offset < 0 ∨
      storage = .stackArgument offset ∧ (returnSize : Int) ≤ offset ∧ offset < modulus 31 := by
  cases h with
  | register | flags => cases hoffset
  | below hneg =>
    cases hoffset
    exact .inl ⟨rfl, hneg⟩
  | beyond hle hlt =>
    cases hoffset
    exact .inr ⟨rfl, hle, hlt⟩
  | pushed h =>
    cases hoffset
    exact .inl ⟨rfl, hpushed offset h⟩

/-- Slots that are on the right side keep apart. -/
theorem Frame.Grows.keepsApart {returnSize wordBits : Nat} {Pushed : Int → Prop} {f : Frame}
    (h : Grows (Asked returnSize Pushed) (.empty wordBits) f)
    (hpushed : ∀ offset, Pushed offset → offset < 0) : f.KeepsApart returnSize := by
  have hasked : ∀ id ∈ f.identifiers,
      Asked returnSize Pushed id.storage ∧ id.name = id.storage.name := fun id hid => by
    rcases h.new id hid with hnone | hnew
    · cases hnone
    · exact hnew
  have hside : ∀ id ∈ f.identifiers, ∀ offset, id.storage.offset? = some offset →
      id.storage = .stackLocal offset ∧ offset < 0 ∨
        id.storage = .stackArgument offset ∧ (returnSize : Int) ≤ offset ∧ offset < modulus 31 :=
    fun id hid offset => (hasked id hid).1.side hpushed
  have hfits : modulus 31 < modulus 32 := by decide
  refine ⟨fun id hid offset hstorage => ?_, fun id hid offset hstorage => ?_, ?_⟩
  · rcases hside id hid offset (by rw [hstorage]; rfl) with ⟨-, hneg⟩ | ⟨hargument, -⟩
    · exact hneg
    · cases hstorage.symm.trans hargument
  · rcases hside id hid offset (by rw [hstorage]; rfl) with ⟨hlocal, -⟩ | ⟨-, hle, -⟩
    · cases hstorage.symm.trans hlocal
    · exact hle
  · intro id hid id' hid' offset offset' hoffset hoffset' _ hname
    rw [(hasked id hid).2, (hasked id' hid').2] at hname
    rcases hside id hid offset hoffset with ⟨hx, hneg⟩ | ⟨hx, hle, hlt⟩
    · rcases hside id' hid' offset' hoffset' with ⟨hy, hneg'⟩ | ⟨hy, -⟩
      · rw [hx, hy] at hname
        exact Storage.stackLocal_inj_of_name hneg hneg' hname
      · rw [hx, hy] at hname
        exact absurd hname (Storage.name_stackLocal_ne _ _)
    · rcases hside id' hid' offset' hoffset' with ⟨hy, -⟩ | ⟨hy, hle', hlt'⟩
      · rw [hx, hy] at hname
        exact absurd hname.symm (Storage.name_stackLocal_ne _ _)
      · rw [hx, hy] at hname
        exact Storage.stackArgument_inj_of_name (by omega) (by omega) hname

/-! ## Instructions -/

namespace X86.Setting

variable {s : Setting} {Pushed : Int → Prop}

/-- The slot that a push fills. -/
def Fills (s : Setting) (p : Progress) (piece : Piece) (offset : Int) : Prop :=
  ∃ i statements, piece = .lifted i statements ∧ i.operation = .push ∧
    offset = (s.pass p piece).state.top

/-- The offset of a slot that an operand addresses is a signed number of 32 bits. -/
theorem slot?_lt {p : Progress} {o : Operand} {slot : Int × Nat} (h : p.slot? o = some slot) :
    slot.1 < modulus 31 := by
  have hwrap : ∀ v, wrap32 v < modulus 31 := fun v => by
    have hlt := Int.bmod_lt (x := v) (modulus_pos 32)
    have hhalf : ((modulus 32 : Int) + 1) / 2 = modulus 31 := by decide
    rwa [hhalf] at hlt
  unfold Progress.slot? at h
  split at h
  · obtain ⟨offset, hoffset, rfl⟩ := Option.map_eq_some_iff.1 h
    unfold Progress.entryOffset? at hoffset
    split at hoffset
    · split at hoffset
      · cases hoffset
        exact hwrap _
      · cases hoffset
    · cases hoffset
  · cases h

theorem grows_nameOperands (s : Setting) (Pushed : Int → Prop) (operands : List Operand)
    {slots : List (Int × Nat)} (hslots : ∀ slot ∈ slots, slot.1 < modulus 31) (f : Frame) :
    Grows (Asked s.returnSize Pushed) f (s.nameOperands operands slots f) := by
  have hregisters : Grows (Asked s.returnSize Pushed) f
      ((operands.filterMap Operand.register?).foldl Frame.addRegister f) :=
    grows_foldl (fun r _ g => grows_add (.register r) g _) f
  refine hregisters.trans (grows_foldl (fun slot hslot g => ?_) _)
  unfold nameSlot
  split
  · next hneg => exact grows_add (.below hneg) g _
  · split
    · next hle => exact grows_add (.beyond hle (hslots slot hslot)) g _
    · exact .refl _ g

/-- Only a push asks for more than flag groups. -/
theorem grows_perform (s : Setting) (i : Instruction) (p : Progress)
    (hpushed : i.operation = .push → Pushed (s.perform i p).1.state.top) :
    Grows (Asked s.returnSize Pushed) p.frame (s.perform i p).1.frame := by
  have hflags : ∀ (f : Frame) (g : FlagGroup),
      Grows (Asked s.returnSize Pushed) f (f.addFlags g) :=
    fun f g => grows_add (.flags g) f 1
  unfold perform at hpushed ⊢
  cases hoperation : i.operation with
  | move =>
    simp only [Progress.move]
    split <;> exact .refl _ _
  | add | sub =>
    simp only [Progress.arithmetic]
    split
    · exact hflags _ _
    · exact .refl _ _
  | compare => exact hflags _ _
  | and | or =>
    simp only [Progress.logical]
    split
    · exact (hflags _ _).trans (hflags _ _)
    · exact .refl _ _
  | xor =>
    simp only [Progress.zero]
    split <;> exact .refl _ _
  | push =>
    rw [hoperation] at hpushed
    have hpushed := hpushed rfl
    simp only [push] at hpushed ⊢
    split
    · next src hoperands =>
      simp only [hoperands] at hpushed
      exact grows_add (.pushed hpushed) _ _
    · exact .refl _ _
  | pop =>
    simp only [pop]
    split <;> exact .refl _ _
  | call =>
    simp only [call]
    split <;> exact .refl _ _
  | conditionalJump =>
    simp only [Progress.branch]
    split
    · exact hflags _ _
    · exact .refl _ _
  | nop | jump | ret | addWithCarry | subWithBorrow | other => exact .refl _ _

theorem grows_execute (s : Setting) (i : Instruction) (p : Progress)
    (hpushed : i.operation = .push → Pushed (s.execute i p).1.state.top) :
    Grows (Asked s.returnSize Pushed) p.frame (s.execute i p).1.frame := by
  rw [state_execute] at hpushed
  have hslots : ∀ slot ∈ i.operands.filterMap p.slot?, slot.1 < modulus 31 := by
    intro slot hslot
    obtain ⟨o, -, ho⟩ := List.mem_filterMap.1 hslot
    exact slot?_lt ho
  have hgrows := (s.grows_perform i p hpushed).trans
    (s.grows_nameOperands Pushed i.operands hslots _)
  unfold execute
  cases written? i with
  | none => exact hgrows
  | some written =>
    dsimp only
    rw [Progress.frame_follow]
    exact hgrows

theorem grows_pass (s : Setting) (p : Progress) (piece : Piece) :
    Grows (Asked s.returnSize (s.Fills p piece)) p.frame (s.pass p piece).frame := by
  cases piece with
  | undecodable => exact .refl _ _
  | unsupported => exact .refl _ _
  | lifted i statements =>
    exact s.grows_execute i (p.arrive i) fun hpush => ⟨i, statements, rfl, hpush, rfl⟩
  | copied push pop src dst =>
    change Grows _ _ ((p.arrive push).copy src dst).frame
    rw [Progress.copy, Progress.frame_follow]
    exact (grows_add (.register src) _ _).trans (grows_add (.register dst) _ _)

/-- The slot that a push fills is a local of the frame behind it. -/
theorem mem_of_fills {p : Progress} {piece : Piece} {offset : Int} (hspells : s.Spells piece)
    (h : s.Fills p piece offset) :
    ∃ id ∈ (s.pass p piece).frame.identifiers, id.storage = .stackLocal offset := by
  obtain ⟨i, statements, rfl, hpush, rfl⟩ := h
  obtain ⟨src, hoperands⟩ := exists_operand (.inl hpush) (hspells.isPiece i statements rfl)
  obtain ⟨⟨id, hid, hstorage, -⟩, -⟩ :=
    frame_execute_push (s := s) hpush hoperands (p.arrive i)
  exact ⟨id, hid, hstorage⟩

end X86.Setting

/-! ## Lifts -/

namespace Architecture

section

variable (a : Architecture) (m : Image) (entry : Address) (host : Host) (config : LiftConfig)

/-- Some push of a lift fills this slot. -/
def Fills (offset : Int) : Prop :=
  ∃ n piece, (a.taken m entry host config)[n]? = some piece ∧
    Setting.Fills ⟨a.mode, host⟩ (a.stage m entry host config n) piece offset

/-- All along a lift the frame grows by what it is asked for. -/
theorem grows_stage {k n : Nat} (h : k ≤ n) :
    Grows (Asked (X86.processor a.mode).returnSize (a.Fills m entry host config))
      (a.stage m entry host config k).frame (a.stage m entry host config n).frame := by
  induction n, h using Nat.le_induction with
  | base => exact .refl _ _
  | succ n _ ih =>
    rcases a.stage_succ m entry host config n with ⟨-, hstage⟩ | ⟨piece, hpiece, -, hstage⟩
    · rwa [hstage]
    · rw [hstage]
      have hpass := Setting.grows_pass ⟨a.mode, host⟩ (a.stage m entry host config n) piece
      exact ih.trans (hpass.mono fun _ => Asked.mono fun _ hfills => ⟨n, piece, hpiece, hfills⟩)

end

variable {a : Architecture} {m : Image} {entry : Address} {host : Host} {config : LiftConfig}

/-- The slots that the pushes of a lift fill are locals of its frame. -/
theorem mem_of_fills {offset : Int} (h : a.Fills m entry host config offset) :
    ∃ id ∈ (a.stage m entry host config (a.taken m entry host config).length).frame.identifiers,
      id.storage = .stackLocal offset := by
  obtain ⟨n, piece, hpiece, hfills⟩ := h
  obtain ⟨id, hid, hstorage⟩ := Setting.mem_of_fills (spells_of_taken hpiece) hfills
  rw [← stage_pass hpiece] at hid
  have hlt : n < (a.taken m entry host config).length := (List.getElem?_eq_some_iff.1 hpiece).1
  exact ⟨id, (a.grows_stage m entry host config hlt).kept id hid, hstorage⟩

/-- Arguments of a lifted procedure are always beyond the return address. Locals and arguments keep
apart if and only if each push lands below the stack pointer at entry. -/
theorem keepsApart_iff {p : Procedure} {events : List Event}
    (h : a.lift m entry host config = (.ok p, events)) :
    (∀ id ∈ p.frame.identifiers, ∀ offset, id.storage = .stackArgument offset →
      ((X86.processor a.mode).returnSize : Int) ≤ offset) ∧
    (p.frame.KeepsApart (X86.processor a.mode).returnSize ↔
      ∀ n i statements, (a.taken m entry host config)[n]? = some (.lifted i statements) →
        i.operation = .push → (a.stage m entry host config (n + 1)).state.top < 0) := by
  obtain ⟨-, -, rfl⟩ := eq_finish_of_lift h
  have hgrows := a.grows_stage m entry host config
    (Nat.zero_le (a.taken m entry host config).length)
  change (∀ id ∈ (a.stage m entry host config _).frame.identifiers, _) ∧
    (Frame.KeepsApart (a.stage m entry host config _).frame _ ↔ _)
  refine ⟨fun id hid offset hstorage => ?_, fun hapart n i statements hpiece hpush => ?_,
    fun hbelow => hgrows.keepsApart ?_⟩
  · rcases hgrows.new id hid with hnone | ⟨hasked, -⟩
    · cases hnone
    · rw [hstorage] at hasked
      cases hasked with
      | beyond hle _ => exact hle
  · obtain ⟨id, hid, hstorage⟩ := mem_of_fills ⟨n, _, hpiece, i, statements, rfl, hpush, rfl⟩
    rw [stage_pass hpiece]
    exact hapart.locals id hid _ hstorage
  · rintro offset ⟨n, piece, hpiece, i, statements, rfl, hpush, rfl⟩
    rw [← stage_pass hpiece]
    exact hbelow n i statements hpiece hpush

/-- Behind `push ebp` and `mov ebp, esp` a register is saved as the second local, and `[ebp+8]` is
the first argument. -/
theorem keepsApart_iff_push_ebp_push_eax :
    let a : Architecture := ⟨.protected32, .full, []⟩
    let m : Image :=
      ⟨⟨.flat .w32, 0x1000, by decide⟩, [0x55, 0x89, 0xE5, 0x50, 0x8B, 0x45, 0x08, 0xC3]⟩
    ∃ p events, a.lift m m.base .silent .standard = (.ok p, events) ∧
      p.frame.identifiers.filterMap (·.storage.offset?) = [-4, -8, 4] ∧
      p.frame.KeepsApart a.processor.returnSize := by
  intro a m
  obtain ⟨p, events, hlift, hoffsets⟩ : ∃ p events,
      a.lift m m.base .silent .standard = (.ok p, events) ∧
        p.frame.identifiers.filterMap (·.storage.offset?) = [-4, -8, 4] :=
    exists_lift_of_map_eq_some (by decide +kernel)
  have hlength : (a.taken m m.base .silent .standard).length = 5 := by decide +kernel
  have hbelow : ∀ n < 5, ∀ piece ∈ (a.taken m m.base .silent .standard)[n]?,
      piece.instructions.any (·.operation = .push) →
        (a.stage m m.base .silent .standard (n + 1)).state.top < 0 := by decide +kernel
  refine ⟨p, events, hlift, hoffsets, (keepsApart_iff hlift).2.2 ?_⟩
  intro n i statements hpiece hpush
  have hlt : n < 5 := hlength ▸ (List.getElem?_eq_some_iff.1 hpiece).1
  exact hbelow n hlt _ hpiece (by simp [Piece.instructions, hpush])

/-- A push behind `add esp, 12` lands on the first argument, which is then a local with the name of
the first local. -/
theorem not_keepsApart_push_above_entry :
    let a : Architecture := ⟨.protected32, .full, []⟩
    let m : Image := ⟨⟨.flat .w32, 0x1000, by decide⟩, [0x50, 0x83, 0xC4, 0x0C, 0x50]⟩
    ∃ p events, a.lift m m.base .silent .standard = (.ok p, events) ∧
      ⟨"loc04", 32, .stackLocal (-4)⟩ ∈ p.frame.identifiers ∧
      ⟨"loc04", 32, .stackLocal 4⟩ ∈ p.frame.identifiers ∧
      ¬ p.frame.KeepsApart a.processor.returnSize := by
  intro a m
  obtain ⟨p, events, hlift, hidentifiers⟩ : ∃ p events,
      a.lift m m.base .silent .standard = (.ok p, events) ∧
        p.frame.identifiers =
          [⟨"loc04", 32, .stackLocal (-4)⟩, ⟨"eax", 32, .register X86.eax⟩,
            ⟨X86.arithmeticFlags.name, 1, .flags X86.arithmeticFlags⟩,
            ⟨"esp", 32, .register X86.esp⟩, ⟨"loc04", 32, .stackLocal 4⟩] :=
    exists_lift_of_map_eq_some (by decide +kernel)
  have hhigh : ⟨"loc04", 32, .stackLocal 4⟩ ∈ p.frame.identifiers := by simp [hidentifiers]
  refine ⟨p, events, hlift, by simp [hidentifiers], hhigh, fun hapart => ?_⟩
  exact absurd (hapart.locals _ hhigh 4 rfl) (by decide)

end Architecture

end CodeLift
