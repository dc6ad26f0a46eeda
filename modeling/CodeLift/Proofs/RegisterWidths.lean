-- SUMMARY: Known registers have their own width unless pops take over notes of another one.
import CodeLift.Proofs.Stages

/-!
# Widths of known registers

What a state knows of a register is a constant, which has a width of its own. Moves, folds
and copies only come with operands of one width, the stack pointer moves in its own width,
and the code segment register is set in its own, so all of them give a register what is of
its width (`State.Sized`). That such values describe some machine spares going through the
operations: those keep step with a machine.

A pop is different. It takes over what a push has noted at the slot, whatever the width of
the push. So all states of a lift are well sized if and only if each of its pops into a
register finds a note of the register's width, or none (`Architecture.sized_iff`).
-/

namespace CodeLift

open X86 (Mode Piece Progress Setting soleRegister?)

/-! ## States -/

/-- Every register that is known has its own width, and its value fits. -/
def State.Sized (t : State) : Prop := ∀ r, (t.register r).Sized r.bits

theorem State.Sized.setRegister {t : State} (h : t.Sized) {r : Register} {c : Constant}
    (hc : c.Sized r.bits) : (t.setRegister r c).Sized := by
  intro r'
  by_cases hr : r' = r
  · subst hr
    rw [State.register, State.setRegister, Store.get_set_self]
    exact hc
  · rw [State.register, State.setRegister, Store.get_set_of_ne _ _ hr]
    exact h r'

theorem State.Sized.setPointer {t : State} (h : t.Sized) (a : Address) :
    (t.setPointer a).Sized := by
  unfold State.setPointer
  split
  · exact h.setRegister (Constant.sized_ofNat _ _)
  · exact h

/-- The machine that holds in each register what is known of it. -/
def Machine.holding (registers : Store Register) : Machine :=
  { blank with
    cell := fun
      | .register r =>
        match registers.get r with
        | .known _ value => value % modulus r.bits
        | .unknown => 0
      | _ => 0
    cell_fits := by
      intro c
      cases c with
      | register r =>
        dsimp only
        split <;> simp [Cell.fit]
      | flags | identifier => simp [Cell.fit] }

/-- Well sized are the states that some machine matches. -/
theorem State.sized_iff_matches {t : State} : t.Sized ↔ ∃ m : Machine, m.Matches t.registers := by
  constructor
  · intro h
    refine ⟨.holding t.registers, fun r b value hknown => ?_⟩
    obtain ⟨hbits, hlt⟩ := h r b value hknown
    refine ⟨hbits, ?_⟩
    simp only [Machine.holding, hknown]
    exact (Nat.mod_eq_of_lt hlt).symm
  · rintro ⟨m, hm⟩ r b value hknown
    obtain ⟨hbits, rfl⟩ := hm r b value hknown
    exact ⟨hbits, m.cell_lt r⟩

/-- Registers are well sized, and notes on the stack fit the width that they have there. -/
structure State.Typed (t : State) : Prop where
  registers : t.Sized
  notes : ∀ offset, (t.slot offset).Fits

theorem X86.fits_operandValue {t : State} (h : t.Sized) (o : Operand) :
    (X86.operandValue t o).Fits := by
  cases o with
  | register r => exact (h r).fits
  | immediate value bits => exact (Constant.sized_ofInt _ _).fits
  | memory => exact (Constant.sized_unknown 0).fits
  | address => exact (Constant.sized_ofNat _ _).fits

/-! ## Pieces -/

namespace X86.Setting

variable {s : Setting} {p : Progress} {i : Instruction} {statements : List Stmt} {piece : Piece}

/-- What a pop into a register takes over is of the width of the register, if it is known. -/
def PopsOwnWidth (t : State) (piece : Piece) : Prop :=
  ∀ i statements r bits, piece = .lifted i statements → soleRegister? .pop i = some r →
    (t.slot t.top).bits? = some bits → bits = r.bits

theorem slot_top_arrive (p : Progress) (i : Instruction) :
    (p.arrive i).state.slot (p.arrive i).state.top = p.state.slot p.state.top := by
  have hmoved := p.moved_arrive i
  rw [hmoved.slot, State.top, hmoved.depth, State.top]

theorem typed_arrive (h : p.state.Typed) (i : Instruction) : (p.arrive i).state.Typed where
  registers := h.registers.setPointer i.address
  notes offset := by
    rw [(p.moved_arrive i).slot]
    exact h.notes offset

theorem sized_shiftStackPointer {t : State} (h : t.Sized) (mode : Mode) (bytes : Int) :
    (shiftStackPointer mode bytes t).Sized := h.setRegister ((h _).displace bytes)

theorem stack_afterCall (t : State) (site : CallSite) (signature : Option Signature) :
    (t.afterCall site signature).stack = t.stack := by
  have hclear : ∀ t : State, t.clear.stack = t.stack := fun t => by
    unfold State.clear
    split <;> rfl
  cases signature with
  | none => exact hclear t
  | some signature =>
    refine (hclear _).trans ?_
    exact List.foldlRecOn (motive := fun t' : State => t'.stack = t.stack) _ _ rfl
      fun _ h _ _ => h

theorem typed_call (h : p.state.Typed) (hs : s.statements? i = some statements)
    (hcall : i.operation = .call) : (s.execute i p).1.state.Typed := by
  obtain ⟨target, hoperands⟩ := exists_operand (.inr (.inr hcall)) hs
  rw [state_execute_call hcall hoperands]
  refine ⟨fun r => ?_, fun offset => ?_⟩
  · rcases register_afterCall p.state (p.state.callSite s.returnSize) (s.calleeSignature? target) r
      with hlost | hkept
    · rw [hlost]
      exact Constant.sized_unknown _
    · rw [hkept]
      exact h.registers r
  · rw [State.slot, stack_afterCall]
    exact h.notes offset

theorem typed_push (h : p.state.Typed) (hs : s.statements? i = some statements)
    (hpush : i.operation = .push) : (s.execute i p).1.state.Typed := by
  obtain ⟨src, hoperands⟩ := exists_operand (.inl hpush) hs
  rw [state_execute_push hpush hoperands]
  refine ⟨sized_shiftStackPointer h.registers s.mode _, fun offset => ?_⟩
  rw [State.slot, stack_push]
  by_cases hoffset : offset = (s.push p [src]).state.top
  · rw [hoffset, Store.get_set_self]
    exact fits_operandValue (sized_shiftStackPointer h.registers s.mode _) src
  · rw [Store.get_set_of_ne _ _ hoffset]
    exact h.notes offset

/-- A pop leaves the stack as it is, and gives a register what is noted at the top. -/
theorem typed_pop (h : p.state.Typed) (hs : s.statements? i = some statements)
    (hpop : i.operation = .pop) (howns : PopsOwnWidth p.state (.lifted i statements)) :
    (s.execute i p).1.state.Typed := by
  obtain ⟨dst, hoperands⟩ := exists_operand (.inr (.inl hpop)) hs
  rw [state_execute_pop hpop hoperands]
  refine ⟨?_, fun offset => ?_⟩
  · have hshifted := sized_shiftStackPointer h.registers s.mode (s.slotBytes dst)
    cases dst with
    | register r =>
      have hsole := soleRegister?_eq_some.2 ⟨hpop, hoperands⟩
      exact hshifted.setRegister ((h.notes _).sized fun b hb => howns i statements r b rfl hsole hb)
    | immediate | memory | address => exact hshifted
  · rw [State.slot, (keepsStack_pop s p [dst]).1]
    exact h.notes offset

theorem typed_execute (h : p.state.Typed) (hi : s.mode.Encodes i)
    (hs : s.statements? i = some statements)
    (howns : PopsOwnWidth p.state (.lifted i statements)) : (s.execute i p).1.state.Typed := by
  by_cases hcall : i.operation = .call
  · exact typed_call h hs hcall
  by_cases hpush : i.operation = .push
  · exact typed_push h hs hpush
  by_cases hpop : i.operation = .pop
  · exact typed_pop h hs hpop howns
  · obtain ⟨m, hm⟩ := State.sized_iff_matches.1 h.registers
    refine ⟨State.sized_iff_matches.2 ⟨_, matches_execute hi hs hcall hpop hm⟩, fun offset => ?_⟩
    rw [State.slot, (keepsStack_execute s p hpush hcall).1]
    exact h.notes offset

/-- A piece keeps states typed if it pops no register at another width. -/
theorem typed_pass (h : p.state.Typed) (hspells : s.Spells piece)
    (howns : PopsOwnWidth p.state piece) : (s.pass p piece).state.Typed := by
  cases hspells with
  | undecodable => exact h
  | unsupported => exact typed_arrive h _
  | @lifted i statements hi hs =>
    refine typed_execute (typed_arrive h i) hi hs ?_
    rintro _ _ r bits ⟨⟩ hsole hbits
    exact howns i statements r bits rfl hsole (by rw [← slot_top_arrive p i, hbits])
  | @copied push pop src dst _ _ hcopy =>
    obtain ⟨-, -, -, hwidth, -⟩ := copy?_eq_some.1 hcopy
    have harrived := typed_arrive h push
    change ((p.arrive push).copy src dst).state.Typed
    rw [state_copy]
    exact ⟨harrived.registers.setRegister (hwidth ▸ harrived.registers src), harrived.notes⟩

/-- Behind a pop the register has what was noted, so it is well sized only if the note was. -/
theorem popsOwnWidth_of_sized (hspells : s.Spells piece) (h : (s.pass p piece).state.Sized) :
    PopsOwnWidth p.state piece := by
  rintro i statements r bits rfl hsole hbits
  obtain ⟨hpop, hoperands⟩ := soleRegister?_eq_some.1 hsole
  have hregister : (s.execute i (p.arrive i)).1.state.register r = p.state.slot p.state.top := by
    rw [state_execute_pop hpop hoperands, ← slot_top_arrive p i]
    exact Store.get_set_self _ _ _
  have hsized := h r
  change ((s.execute i (p.arrive i)).1.state.register r).Sized r.bits at hsized
  rw [hregister] at hsized
  exact hsized.bits_eq hbits

end X86.Setting

/-! ## Lifts -/

namespace Architecture

open X86.Setting (PopsOwnWidth)

theorem typed_atEntry (a : Architecture) (entry : Address) : (a.atEntry entry).state.Typed := by
  have hnew : a.newState.Sized := fun r => Constant.sized_unknown r.bits
  have hpointer := hnew.setPointer entry
  have hslot : ∀ offset, (a.atEntry entry).state.slot offset = .unknown := by
    intro offset
    change ((a.newState.setPointer entry).clear).slot offset = .unknown
    unfold State.clear State.setPointer
    split <;> split <;> rfl
  refine ⟨fun r => ?_, fun offset => ?_⟩
  · change (((a.newState.setPointer entry).clear).register r).Sized r.bits
    rw [Setting.register_clear]
    exact hpointer r
  · rw [hslot]
    exact nofun

/-- All along a lift known registers have their own width, with values that fit, if and only if each
pop into a register finds a note of the register's width or none. The last of these states is that
of the procedure, if the lift succeeds; if an instruction makes it fail, it has come to the piece of
that. -/
theorem sized_iff (a : Architecture) (m : Image) (entry : Address) (host : Host)
    (config : LiftConfig) :
    (∀ n, (∀ k ≤ n, (a.stage m entry host config k).state.Sized) ↔
      ∀ k < n, ∀ piece ∈ (a.taken m entry host config)[k]?,
        PopsOwnWidth (a.stage m entry host config k).state piece) ∧
    (∀ p events, a.lift m entry host config = (.ok p, events) →
      p.clusters.length = (a.taken m entry host config).length ∧
        p.state = (a.stage m entry host config p.clusters.length).state) ∧
    ∀ e events, a.lift m entry host config = (.error (.instruction e), events) →
      ∃ piece ∈ a.taken m entry host config, piece.cluster = e.cluster := by
  refine ⟨fun n => ⟨fun hsized k hk piece hpiece => ?_, fun howns => ?_⟩, fun p events h => ?_,
    fun e events h => exists_taken_of_lift h⟩
  · have hbehind := hsized (k + 1) hk
    rw [stage_pass hpiece] at hbehind
    exact Setting.popsOwnWidth_of_sized (spells_of_taken hpiece) hbehind
  · suffices htyped : ∀ k ≤ n, (a.stage m entry host config k).state.Typed from
      fun k hk => (htyped k hk).registers
    intro k
    induction k with
    | zero => exact fun _ => a.typed_atEntry entry
    | succ k ih =>
      intro hk
      have hstage := ih (by omega)
      rcases a.stage_succ m entry host config k with ⟨-, hsame⟩ | ⟨piece, hpiece, hspells, hpass⟩
      · rwa [hsame]
      · rw [hpass]
        exact Setting.typed_pass hstage hspells (howns k hk piece hpiece)
  · obtain ⟨-, -, rfl⟩ := eq_finish_of_lift h
    have hlength : ((a.taken m entry host config).map Piece.cluster).length =
        (a.taken m entry host config).length := List.length_map _
    refine ⟨hlength, ?_⟩
    change (a.stage m entry host config _).state =
      (a.stage m entry host config ((a.taken m entry host config).map Piece.cluster).length).state
    rw [hlength]

/-- A pop of a word finds the word that a push has left, and all states are well sized. -/
theorem sized_iff_push_word_pop_ax :
    let a : Architecture := ⟨.protected32, .full, []⟩
    let m : Image := ⟨⟨.flat .w32, 0x1000, by decide⟩, [0x66, 0x68, 0x34, 0x12, 0x66, 0x58]⟩
    ∃ p events, a.lift m m.base .silent .standard = (.ok p, events) ∧
      p.clusters.length = 2 ∧ p.state.register X86.ax = .known 16 0x1234 ∧
      ∀ k ≤ 2, (a.stage m m.base .silent .standard k).state.Sized := by
  intro a m
  obtain ⟨p, events, hlift, hview⟩ : ∃ p events,
      a.lift m m.base .silent .standard = (.ok p, events) ∧
        (p.clusters.length, p.state.register X86.ax) = (2, .known 16 0x1234) :=
    exists_lift_of_map_eq_some (by decide +kernel)
  obtain ⟨hlength, hax⟩ := Prod.mk.inj hview
  have hnotes : ∀ k < 2, ∀ piece ∈ (a.taken m m.base .silent .standard)[k]?,
      ∀ i ∈ piece.instructions, ∀ r ∈ soleRegister? .pop i,
        let t := (a.stage m m.base .silent .standard k).state
        ∀ bits ∈ (t.slot t.top).bits?, bits = r.bits := by decide +kernel
  refine ⟨p, events, hlift, hlength, hax, ((sized_iff a m m.base .silent .standard).1 2).2 ?_⟩
  rintro k hk piece hpiece i statements r bits rfl hsole hbits
  exact hnotes k hk _ hpiece i (by simp [Piece.instructions]) r hsole bits hbits

/-- A pop of a double word finds the word that a push has left, and takes it over as it is. -/
theorem not_sized_push_word_pop_eax :
    let a : Architecture := ⟨.protected32, .full, []⟩
    let m : Image := ⟨⟨.flat .w32, 0x1000, by decide⟩, [0x66, 0x68, 0x34, 0x12, 0x58]⟩
    ∃ p events, a.lift m m.base .silent .standard = (.ok p, events) ∧
      p.state.register X86.eax = .known 16 0x1234 ∧ ¬ p.state.Sized := by
  intro a m
  obtain ⟨p, events, hlift, hknown⟩ : ∃ p events,
      a.lift m m.base .silent .standard = (.ok p, events) ∧
        p.state.register X86.eax = .known 16 0x1234 :=
    exists_lift_of_map_eq_some (by decide +kernel)
  refine ⟨p, events, hlift, hknown, fun hsized => ?_⟩
  exact absurd (hsized X86.eax 16 0x1234 hknown).1 (by decide)

end Architecture

end CodeLift
