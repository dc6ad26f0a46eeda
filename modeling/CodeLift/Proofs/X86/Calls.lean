-- SUMMARY: A call has the effects of its callee, as far as the host knows it, and no others.
import CodeLift.Proofs.X86.Portions
import CodeLift.Proofs.X86.StackPointer

/-!
# Calls

A call goes through a slot if its target is an address, or in protected mode a memory reference
without registers. What the host knows of the slot is the signature there, or a decorated import
name that stands for one (`Setting.Knows`). The state behind a call is then determined: the
registers that the signature gives away are lost, the arguments are off the stack, the direction
flag is clear, and everything else is as before (`State.Called`). Without a signature only the
direction flag is told, and the host is warned if there is not even a slot (`call_exact`).
-/

namespace CodeLift

namespace X86

variable {mode : Mode} {target : Operand} {a : Address}

/-! ## Slots -/

/-- The address through which a call goes: the target itself, or in protected mode the place of a
reference that adds no register. -/
inductive HasSlot (mode : Mode) : Operand → Address → Prop
  | direct (a : Address) : HasSlot mode (.address a) a
  | absolute {m : MemoryRef} {a : Address} (hmode : mode = .protected32) (hbase : m.base = none)
      (hindex : m.index = none) (hspace : a.space = .flat .w32)
      (hoffset : (a.offset : Int) = m.displacement % modulus 32) : HasSlot mode (.memory m) a

/-- A flat address is determined by what its offset is congruent to. -/
theorem wrapping_emod_eq_iff {d : Int} :
    Address.wrapping (.flat .w32) (d % modulus 32).toNat = a ↔
      a.space = .flat .w32 ∧ (a.offset : Int) = d % modulus 32 := by
  have hpos : (0 : Int) < modulus 32 := by decide
  have hnonneg := Int.emod_nonneg d hpos.ne'
  have hlt := Int.emod_lt_of_pos d hpos
  have hcast : ((d % modulus 32).toNat : Int) = d % modulus 32 := Int.toNat_of_nonneg hnonneg
  have hoffset : (Address.wrapping (.flat .w32) (d % modulus 32).toNat).offset =
      (d % modulus 32).toNat := Nat.mod_eq_of_lt (by change _ < modulus 32; omega)
  constructor
  · rintro rfl
    exact ⟨rfl, by rw [hoffset, hcast]⟩
  · rintro ⟨hspace, heq⟩
    exact Address.ext hspace.symm (by omega)

theorem callSlot?_eq_some_iff : callSlot? mode target = some a ↔ HasSlot mode target a := by
  constructor
  · intro h
    unfold callSlot? at h
    split at h
    · cases h
      exact .direct _
    · split at h
      · next hplain =>
        obtain ⟨hspace, hoffset⟩ := wrapping_emod_eq_iff.1 (Option.some.inj h)
        exact .absolute hplain.2.2 (Option.isNone_iff_eq_none.1 hplain.1)
          (Option.isNone_iff_eq_none.1 hplain.2.1) hspace hoffset
      · cases h
    · cases h
  · intro h
    cases h with
    | direct => rfl
    | absolute hmode hbase hindex hspace hoffset =>
      rw [callSlot?, if_pos (by simp [hmode, hbase, hindex])]
      exact congrArg some (wrapping_emod_eq_iff.2 ⟨hspace, hoffset⟩)

theorem callSlot?_eq_none_iff : callSlot? mode target = none ↔ ∀ a, ¬ HasSlot mode target a := by
  simp only [Option.eq_none_iff_forall_ne_some, ne_eq, callSlot?_eq_some_iff]

namespace Setting

variable {s : Setting}

/-- What is known of the procedure that a call goes to: the host has a signature for the slot, or it
has none but an import whose name tells one. -/
inductive Knows (s : Setting) (target : Operand) (sig : Signature) : Prop
  | host {a : Address} (hslot : HasSlot s.mode target a) (hsig : s.host.signature? a = some sig)
  | named {a : Address} {name : String} (hslot : HasSlot s.mode target a)
      (hnone : s.host.signature? a = none) (hname : s.host.importName? a = some name)
      (hsig : Signature.ofDecoratedName? name s.returnSize = some sig)

theorem calleeSignature?_eq_some_iff {sig : Signature} :
    s.calleeSignature? target = some sig ↔ s.Knows target sig := by
  unfold calleeSignature? import?
  cases hslot : callSlot? s.mode target with
  | none =>
    have hnone := callSlot?_eq_none_iff.1 hslot
    refine iff_of_false nofun fun hknows => ?_
    cases hknows with
    | host hslot => exact hnone _ hslot
    | named hslot => exact hnone _ hslot
  | some a =>
    simp only [Option.bind_some, Option.or_eq_some_iff, Option.bind_eq_some_iff]
    have hhas := callSlot?_eq_some_iff.1 hslot
    have hunique : ∀ b, HasSlot s.mode target b → b = a := fun b hb =>
      Option.some.inj ((callSlot?_eq_some_iff.2 hb).symm.trans hslot)
    constructor
    · rintro (hsig | ⟨hnone, name, hname, hsig⟩)
      · exact .host hhas hsig
      · exact .named hhas hnone hname hsig
    · intro hknows
      cases hknows with
      | host hslot hsig =>
        obtain rfl := hunique _ hslot
        exact .inl hsig
      | named hslot hnone hname hsig =>
        obtain rfl := hunique _ hslot
        exact .inr ⟨hnone, _, hname, hsig⟩

theorem calleeSignature?_eq_none_iff :
    s.calleeSignature? target = none ↔ ∀ sig, ¬ s.Knows target sig := by
  simp only [Option.eq_none_iff_forall_ne_some, ne_eq, calleeSignature?_eq_some_iff]

/-- Without a slot there is no signature. -/
theorem calleeSignature?_of_callSlot?_eq_none (h : callSlot? s.mode target = none) :
    s.calleeSignature? target = none := by
  rw [calleeSignature?, import?, h]
  rfl

end Setting

/-! ## Effects -/

/-- Behind a call registers are lost, and the depth is told. The direction flag is clear, and the
rest is as before. -/
structure Called (lost : List Register) (depth : Int) (t t' : State) : Prop where
  unknown : ∀ r ∈ lost, t'.register r = .unknown
  register : ∀ r, r ∉ lost → t'.register r = t.register r
  slot : ∀ offset, t'.slot offset = t.slot offset
  depth : t'.depth = depth
  direction : t'.flag (flagGroup directionFlag) = .ofBool false
  flag : ∀ g : FlagGroup, g.mask ≠ directionFlag → t'.flag g = t.flag g
  pointer : t'.pointer = t.pointer

variable {t : State}

/-- Whatever happens to registers and the depth, behind it the direction flag is cleared. -/
theorem called_clear {lost : List Register} {registers : Store Register} {depth : Int}
    (hcleared : t.cleared = some (flagGroup directionFlag))
    (hunknown : ∀ r ∈ lost, registers.get r = .unknown)
    (hregister : ∀ r, r ∉ lost → registers.get r = t.register r) :
    Called lost depth t ({ t with registers := registers, depth := depth } : State).clear := by
  have hclear : ({ t with registers := registers, depth := depth } : State).clear =
      ({ t with registers := registers, depth := depth } : State).setFlag
        (flagGroup directionFlag) (.ofBool false) := by
    simp only [State.clear, hcleared]
  rw [hclear]
  exact
    { unknown := hunknown
      register := hregister
      slot := fun _ => rfl
      depth := rfl
      direction := Store.get_set_self _ _ _
      flag := fun _ hne => Store.get_set_of_ne _ _ hne
      pointer := rfl }

/-- A signature is about registers and the depth only. -/
theorem applyCall_eq (t : State) (site : CallSite) (sig : Signature) :
    ∃ registers : Store Register, t.applyCall site sig =
      { t with registers := registers, depth := site.depthAfter sig } := by
  obtain ⟨registers, h⟩ : ∃ registers : Store Register,
      (sig.trashed ++ sig.result.toList).foldl (fun t r => t.setRegister r .unknown) t =
        { t with registers := registers } := by
    refine List.foldlRecOn (motive := fun t' => ∃ registers : Store Register,
      t' = { t with registers := registers }) _ _ ⟨t.registers, rfl⟩ ?_
    rintro _ ⟨registers, rfl⟩ r _
    exact ⟨_, rfl⟩
  exact ⟨registers, by rw [State.applyCall, h]⟩

/-- The bytes beyond the return address are cut to 32 bits before they are taken off. -/
theorem depthAfter_callSite (t : State) (returnSize : Nat) (sig : Signature) :
    (t.callSite returnSize).depthAfter sig = wrap32 (t.depth - (sig.stackDelta - returnSize)) :=
  Int.sub_bmod_bmod

/-- Without a signature nothing is lost. -/
theorem called_afterCall_none (hcleared : t.cleared = some (flagGroup directionFlag))
    (site : CallSite) : Called [] t.depth t (t.afterCall site none) :=
  called_clear hcleared nofun fun _ _ => rfl

theorem called_afterCall_some (hcleared : t.cleared = some (flagGroup directionFlag))
    (returnSize : Nat) (sig : Signature) :
    Called (sig.trashed ++ sig.result.toList) (wrap32 (t.depth - (sig.stackDelta - returnSize))) t
      (t.afterCall (t.callSite returnSize) (some sig)) := by
  have hregister := Setting.register_applyCall t (t.callSite returnSize) sig
  obtain ⟨registers, happly⟩ := applyCall_eq t (t.callSite returnSize) sig
  simp only [happly, depthAfter_callSite] at hregister
  rw [State.afterCall, happly, depthAfter_callSite]
  exact called_clear hcleared (fun r hr => (hregister r).trans (if_pos hr))
    fun r hr => (hregister r).trans (if_neg hr)

/-! ## Calls in a run -/

theorem Run.item?_of_instruction? {r : Run} {i : Instruction} (h : r.instruction? = some i) :
    ∃ taken, r.item? = some taken ∧ taken.item = .ok i := by
  obtain ⟨taken, hitem, hok⟩ := Option.bind_eq_some_iff.1 h
  refine ⟨taken, hitem, ?_⟩
  cases hresult : taken.item with
  | error e =>
    rw [hresult] at hok
    cases hok
  | ok j =>
    rw [hresult] at hok
    exact congrArg Except.ok (Option.some.inj hok)

namespace Setting

variable {s : Setting} {r : Run} {i : Instruction}

/-- Of an instruction that is lifted and no push, the host hears what a call has to be warned of. -/
theorem warnings_of_ne_push {r' : Run} {outcome : Outcome} {statements : List Stmt}
    (hi : r.instruction? = some i) (hpush : i.operation ≠ .push)
    (hstatements : s.statements? i = some statements) (hnext : s.next? r = some (outcome, r')) :
    outcome.warnings = s.callWarnings i := by
  obtain ⟨taken, hitem, hok⟩ := Run.item?_of_instruction? hi
  obtain ⟨portion, hportions, hvisible⟩ := portion_of_next? hnext
  rw [Run.pending_of_item? hitem, hok,
    portions_of_single fun next _ => copy?_of_ne_push hpush next] at hportions
  have halone : s.alone i = ⟨[.ok i], .ok ⟨i.address, i.length, statements⟩, s.callWarnings i⟩ := by
    simp only [alone, hstatements]
  rw [← (List.cons.inj hportions).1, halone] at hvisible
  exact congrArg Prod.snd hvisible

/-- A call has exactly the effects of its callee. In every state that clears the direction flag
behind calls, it is lifted into one statement. Arriving at it is followed by what the signature of
the callee says (`Called`): the registers it gives away are lost and arguments are off the stack, or
nothing if there is no signature. The host is warned exactly if there is no slot. -/
theorem call_exact (hi : r.instruction? = some i) (hoperation : i.operation = .call)
    (hoperands : i.operands = [target])
    (hcleared : r.progress.state.cleared = some (flagGroup directionFlag)) :
    ∃ outcome r' callee arrived, s.next? r = some (outcome, r') ∧
      outcome.result = .ok ⟨i.address, i.length, [.call callee s.returnSize]⟩ ∧
      ((∃ name, s.import? target = some name ∧ callee = .external name) ∨
        s.import? target = none ∧ callee = s.expr target) ∧
      Progress.Moved i.address r.progress arrived ∧
      (∀ sig, s.Knows target sig →
        Called (sig.trashed ++ sig.result.toList)
          (wrap32 (arrived.state.depth - (sig.stackDelta - s.returnSize)))
          arrived.state r'.progress.state) ∧
      ((∀ sig, ¬ s.Knows target sig) →
        Called [] arrived.state.depth arrived.state r'.progress.state) ∧
      (∀ a, HasSlot s.mode target a → outcome.warnings = []) ∧
      ((∀ a, ¬ HasSlot s.mode target a) →
        outcome.warnings = [(i.address, "indirect call to unknown callee")]) := by
  have hpush : i.operation ≠ .push := by
    rw [hoperation]
    decide
  have hstatements : s.statements? i = some [.call (s.callee target) s.returnSize] := by
    rw [statements?, hoperation, hoperands]
    rfl
  obtain ⟨taken, hitem, hok⟩ := Run.item?_of_instruction? hi
  obtain ⟨outcome, r', hnext, hresult, hprogress, -⟩ :=
    next?_of_single hitem hok hstatements fun next _ => copy?_of_ne_push hpush next.item
  have harrived : (r.progress.arrive i).state.cleared = some (flagGroup directionFlag) := by
    obtain ⟨registers, hstate⟩ := r.progress.state_arrive_eq i
    rw [hstate]
    exact hcleared
  have hstate : r'.progress.state = (r.progress.arrive i).state.afterCall
      ((r.progress.arrive i).state.callSite s.returnSize) (s.calleeSignature? target) := by
    rw [hprogress, state_execute_call hoperation hoperands]
  have hwarnings := warnings_of_ne_push hi hpush hstatements hnext
  simp only [callWarnings, hoperation, hoperands] at hwarnings
  refine ⟨outcome, r', s.callee target, r.progress.arrive i, hnext, hresult, s.callee_cases target,
    r.progress.moved_arrive i, fun sig hsig => ?_, fun hnone => ?_, fun a ha => ?_, fun hnone => ?_⟩
  · rw [hstate, calleeSignature?_eq_some_iff.2 hsig]
    exact called_afterCall_some harrived s.returnSize sig
  · rw [hstate, calleeSignature?_eq_none_iff.2 hnone]
    exact called_afterCall_none harrived _
  · rw [hwarnings, callSlot?_eq_some_iff.2 ha, Option.isNone_some, Bool.and_false]
    rfl
  · have hslot := callSlot?_eq_none_iff.2 hnone
    rw [hwarnings, hslot, calleeSignature?_of_callSlot?_eq_none hslot]
    rfl

/-- A call through memory: the signature at the slot comes before the name of the import there, a
register is lost twice, and the depth wraps around. -/
theorem call_exact_signature_before_name :
    let slot : Address := ⟨.flat .w32, 0x402000, by decide⟩
    let sig : Signature := ⟨"f", some eax, [], [ecx, eax], -modulus 31⟩
    let host : Host :=
      { Host.silent with
        importName? := fun _ => some "_f@12"
        signature? := fun a => if a = slot then some sig else none }
    let s : Setting := ⟨.protected32, host⟩
    let target : Operand := .memory ⟨none, none, 1, 0x402000, 32, none⟩
    let i : Instruction := ⟨⟨.flat .w32, 0x1000, by decide⟩, [0xFF, 0x15, 0x00, 0x20, 0x40, 0x00],
      "call", .call, [target], .indirectCall⟩
    let t := ((State.initial (processor .protected32) (some (flagGroup directionFlag))).setRegister
      eax (.ofNat 32 1)).setRegister ebx (.ofNat 32 2)
    let r : Run := .start ⟨t, .empty 32, none⟩ (.items [.ok i])
    r.instruction? = some i ∧ i.operation = .call ∧ i.operands = [target] ∧
      t.cleared = some (flagGroup directionFlag) ∧
      ∃ outcome r', s.next? r = some (outcome, r') ∧ outcome.warnings = [] ∧
        r'.progress.state.register eax = .unknown ∧
        r'.progress.state.register ebx = .ofNat 32 2 ∧
        r'.progress.state.depth = 4 - modulus 31 ∧
        r'.progress.state.flag (flagGroup directionFlag) = .ofBool false := by
  intro slot sig host s target i t r
  have hslot : HasSlot s.mode target slot := .absolute rfl rfl rfl rfl rfl
  have hsig : s.Knows target sig := .host hslot rfl
  have hi : r.instruction? = some i := rfl
  have hoperands : i.operands = [target] := rfl
  obtain ⟨outcome, r', -, arrived, hnext, -, -, hmoved, hknown, -, hheard, -⟩ :=
    call_exact (s := s) hi rfl hoperands rfl
  have hcalled := hknown sig hsig
  have hebx : arrived.state.register ebx = .ofNat 32 2 := hmoved.register ebx (.inr rfl)
  refine ⟨hi, rfl, hoperands, rfl, outcome, r', hnext, hheard slot hslot,
    hcalled.unknown eax (by decide), (hcalled.register ebx (by decide)).trans hebx, ?_,
    hcalled.direction⟩
  rw [hcalled.depth, hmoved.depth]
  decide

end Setting

end X86

end CodeLift
