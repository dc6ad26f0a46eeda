-- SUMMARY: When a push and a pop merged into a register copy agree with the two lifted apart.
import CodeLift.Proofs.X86.Stack

/-!
# Register copies through the stack

A push and the pop behind it are merged into one assignment, unless control may
reach the pop from elsewhere; then they are lifted apart. The merged cluster and
the two apart agree on every register and on the stack depth exactly if the pair
is a plain copy (`merged_agrees_iff`).

They differ when one register is the stack pointer, which the push lowers before
its operand is read and the pop raises behind its load, and when a segment
register, whose slot is a whole word, meets a register of half a word.
-/

namespace CodeLift.X86

/-- The slots have one size and neither register is the stack pointer, or the registers are one. -/
def IsPlainCopy (mode : Mode) (src dst : Register) : Prop :=
  src = dst ∨ slotBits mode (.register src) = slotBits mode (.register dst) ∧
    src ≠ stackPointer mode.bits ∧ dst ≠ stackPointer mode.bits

instance (mode : Mode) (src dst : Register) : Decidable (IsPlainCopy mode src dst) :=
  inferInstanceAs (Decidable (_ ∨ _))

namespace Setting

/-- The setting in which control may also reach `a` from elsewhere. -/
def reaching (s : Setting) (a : Address) : Setting :=
  { s with host := { s.host with isJumpTarget := fun b => b == a || s.host.isJumpTarget b } }

/-! ## On a machine -/

section

variable {s : Setting} {src dst : Register} {pushed popped : List Stmt} (m : Machine)

theorem cell_copy (hbits : dst.bits = src.bits) (r : Register) :
    (m.step (.set (.register dst) (.register src))).cell (.register r) =
      if r = dst then m.cell (.register src) else m.cell (.register r) := by
  change (m.set (.register dst) (m.cell (.register src))).cell _ = _
  by_cases hdst : r = dst
  · subst hdst
    rw [if_pos rfl, Machine.cell_set_self, Cell.fit, hbits, Machine.cell_mod]
  · rw [if_neg hdst, Machine.cell_set_of_ne _ _ (by simpa using hdst)]

/-- The pop finds the value that the source has behind the move of the stack pointer. -/
theorem value_push_register (hsrc : IsSlotOperand (.register src))
    (hslot : s.slotBytes (.register dst) = s.slotBytes (.register src))
    (hpush : s.pushStatements? [.register src] = some pushed) :
    (m.run pushed).value (s.topRegion (m.run pushed) (s.slotBytes (.register dst))) =
      (s.lowered m (.register src)).cell (.register src) := by
  obtain ⟨-, bits, -, hbits, hle⟩ := hsrc.bits s.mode
  cases hbits
  have hlt := (s.lowered m (.register src)).cell_lt src
  rw [hslot, value_push m hpush le_rfl, (hsrc.slotBytes s).1]
  exact Nat.mod_eq_of_lt (by exact hlt.trans_le (modulus_le hle))

variable (hsrc : IsSlotOperand (.register src)) (hbits : dst.bits = src.bits)
  (hslot : s.slotBytes (.register dst) = s.slotBytes (.register src))
  (hpush : s.pushStatements? [.register src] = some pushed)
  (hpop : s.popStatements? [.register dst] = some popped)

include hsrc hbits hslot hpush hpop

theorem cell_push_pop {r : Register} (hr : r ≠ stackPointer s.mode.bits) :
    ((m.run pushed).run popped).cell (.register r) =
      if r = dst then (s.lowered m (.register src)).cell (.register src)
      else m.cell (.register r) := by
  rw [run_pop _ hpop, cell_moveStackPointer_of_ne _ _ hr,
    value_push_register m hsrc hslot hpush]
  by_cases hdst : r = dst
  · subst hdst
    rw [if_pos rfl, Machine.cell_set_self, Cell.fit, hbits, Machine.cell_mod]
  · rw [if_neg hdst, Machine.cell_set_of_ne _ _ (by simpa using hdst), cell_run_push m hpush]
    exact cell_moveStackPointer_of_ne _ _ hr

theorem cell_push_pop_stackPointer :
    (((m.run pushed).run popped).cell (.register (stackPointer s.mode.bits)) : Int) =
      ((if stackPointer s.mode.bits = dst then
          (s.lowered m (.register src)).cell (.register src)
        else (s.lowered m (.register src)).cell (.register (stackPointer s.mode.bits)) : Nat) +
        s.slotBytes (.register src)) % modulus (stackPointer s.mode.bits).bits := by
  rw [run_pop _ hpop, cell_moveStackPointer, value_push_register m hsrc hslot hpush, hslot]
  by_cases hdst : stackPointer s.mode.bits = dst
  · rw [if_pos hdst, hdst, Machine.cell_set_self, Cell.fit, hbits, Machine.cell_mod]
  · rw [if_neg hdst, Machine.cell_set_of_ne _ _ (by simpa using hdst), cell_run_push m hpush]

/-- A plain copy leaves every register as the push and the pop do. -/
theorem copy_eq_push_pop (hplain : IsPlainCopy s.mode src dst) (r : Register) :
    (m.step (.set (.register dst) (.register src))).cell (.register r) =
      ((m.run pushed).run popped).cell (.register r) := by
  rw [cell_copy m hbits]
  by_cases hr : r = stackPointer s.mode.bits
  · have hsame : ∀ m' : Machine,
        (if stackPointer s.mode.bits = dst then m'.cell (.register src)
          else m'.cell (.register (stackPointer s.mode.bits))) =
            m'.cell (.register (stackPointer s.mode.bits)) := by
      intro m'
      split
      · next hdst =>
        rcases hplain with hsrc' | ⟨-, -, hdst'⟩
        · rw [hsrc', hdst]
        · exact absurd hdst.symm hdst'
      · rfl
    have happart := cell_push_pop_stackPointer m hsrc hbits hslot hpush hpop
    rw [hsame, lowered, cell_moveStackPointer_neg] at happart
    rw [hr, hsame]
    exact_mod_cast happart.symm
  · rw [cell_push_pop m hsrc hbits hslot hpush hpop hr]
    rcases hplain with rfl | ⟨-, hsrc', -⟩
    · by_cases hdst : r = src
      · subst hdst
        rw [if_pos rfl, if_pos rfl]
        exact (cell_moveStackPointer_of_ne m _ hr).symm
      · rw [if_neg hdst, if_neg hdst]
    · rw [lowered, cell_moveStackPointer_of_ne m _ hsrc']

/-- A push of the stack pointer stores what it has lowered it to. -/
theorem ne_stackPointer_of_agree_push (hne : src ≠ dst)
    (h : (Machine.blank.step (.set (.register dst) (.register src))).cell (.register dst) =
      ((Machine.blank.run pushed).run popped).cell (.register dst)) :
    src ≠ stackPointer s.mode.bits := by
  intro hsp
  have hdst : dst ≠ stackPointer s.mode.bits := fun hdst => hne (hsp.trans hdst.symm)
  obtain ⟨hpos, hlt⟩ := hsrc.slotBytes_lt s
  have hlowered := cell_moveStackPointer s.mode .blank (-s.slotBytes (.register src) : Int)
  rw [cell_copy _ hbits, cell_push_pop _ hsrc hbits hslot hpush hpop hdst, if_pos rfl,
    if_pos rfl, Machine.cell_blank, lowered, hsp] at h
  rw [hsp] at hlowered hlt hpos
  rw [← h, Machine.cell_blank, Nat.cast_zero, zero_add] at hlowered
  have hdvd := Int.dvd_of_emod_eq_zero hlowered.symm
  rw [Int.dvd_neg] at hdvd
  have hle := Nat.le_of_dvd hpos (Int.natCast_dvd_natCast.1 hdvd)
  omega

/-- A pop of the stack pointer raises what it has loaded. -/
theorem ne_stackPointer_of_agree_pop (hne : src ≠ dst)
    (h : (Machine.blank.step (.set (.register dst) (.register src))).cell
        (.register (stackPointer s.mode.bits)) =
      ((Machine.blank.run pushed).run popped).cell (.register (stackPointer s.mode.bits))) :
    dst ≠ stackPointer s.mode.bits := by
  intro hsp
  have hsrc' : src ≠ stackPointer s.mode.bits := fun hsrc' => hne (hsrc'.trans hsp.symm)
  obtain ⟨hpos, hlt⟩ := hsrc.slotBytes_lt s
  have hraised := cell_push_pop_stackPointer .blank hsrc hbits hslot hpush hpop
  rw [cell_copy _ hbits, if_pos hsp.symm, Machine.cell_blank] at h
  rw [← h, if_pos hsp.symm, lowered, cell_moveStackPointer_of_ne _ _ hsrc', Machine.cell_blank,
    Nat.cast_zero, zero_add, Int.emod_eq_of_lt (by omega) (by omega)] at hraised
  omega

/-- The blank machine tells a copy that is not plain from the push and the pop. -/
theorem isPlainCopy_of_agree
    (hslots : slotBits s.mode (.register src) = slotBits s.mode (.register dst))
    (h : ∀ (m : Machine) (r : Register),
      (m.step (.set (.register dst) (.register src))).cell (.register r) =
        ((m.run pushed).run popped).cell (.register r)) : IsPlainCopy s.mode src dst := by
  by_cases heq : src = dst
  · exact .inl heq
  · exact .inr ⟨hslots,
      ne_stackPointer_of_agree_push hsrc hbits hslot hpush hpop heq (h _ _),
      ne_stackPointer_of_agree_pop hsrc hbits hslot hpush hpop heq (h _ _)⟩

end

/-! ## On a run -/

/-- The depth is back where it was exactly if the slots have one size. -/
theorem depth_restored_iff {depth : Int} {n n' : Nat} (hdepth : wrap32 depth = depth)
    (hn : n = 2 ∨ n = 4) (hn' : n' = 2 ∨ n' = 4) :
    depth = wrap32 (wrap32 (depth + n) - n') ↔ n' = n := by
  constructor
  · intro h
    have hlow : depth % modulus 32 = (wrap32 (depth + n) - n') % modulus 32 := by
      conv_lhs => rw [h]
      exact Int.bmod_emod
    have hgrown : wrap32 (depth + n) % modulus 32 = (depth + n) % modulus 32 := Int.bmod_emod
    have hmodulus : (modulus 32 : Int) = 4294967296 := rfl
    rw [hmodulus] at hlow hgrown
    omega
  · rintro rfl
    unfold wrap32
    rw [Int.bmod_sub_bmod, add_sub_cancel_right]
    exact hdepth.symm

theorem depth_copy (p : Progress) (src dst : Register) :
    (p.copy src dst).state.depth = p.state.depth := by
  rw [Progress.copy, Progress.state_follow]
  rfl

theorem runClusters_pair (m : Machine) (c₁ c₂ : Cluster) :
    m.runClusters [c₁, c₂] = (m.run c₁.statements).run c₂.statements := by
  simp [Machine.runClusters, Machine.run_append]

theorem copy?_reaching {s : Setting} {push pop : Instruction} :
    (s.reaching pop.address).copy? push (.ok pop) = none := by
  cases hcopy : (s.reaching pop.address).copy? push (.ok pop) with
  | none => rfl
  | some copy =>
    obtain ⟨pop', src, dst⟩ := copy
    obtain ⟨hitem, -, -, -, -, hreach⟩ := copy?_eq_some.1 hcopy
    cases hitem
    simp [reaching] at hreach

/-- What is merged in one setting is lifted apart where control may reach the pop from elsewhere. -/
theorem next?_reaching {s : Setting} {r : Run} {taken next : Taken} {push pop : Instruction}
    {src dst : Register} (hitem : r.item? = some taken) (hok : taken.item = .ok push)
    (hnext : taken.rest.next? = some next)
    (hcopy : s.copy? push next.item = some (pop, src, dst)) :
    ∃ first second r₁ r₂ c₁ c₂,
      (s.reaching pop.address).next? r = some (first, r₁) ∧ first.result = .ok c₁ ∧
      (s.reaching pop.address).next? r₁ = some (second, r₂) ∧ second.result = .ok c₂ ∧
      s.pushStatements? [.register src] = some c₁.statements ∧
      s.popStatements? [.register dst] = some c₂.statements ∧
      r₂.progress.state.depth = wrap32 (wrap32 (r.progress.state.depth +
        s.slotBytes (.register src)) - s.slotBytes (.register dst)) := by
  obtain ⟨hpop, hpush, hpop', -⟩ := copy?_eq_some.1 hcopy
  obtain ⟨hoperation, hoperands⟩ := soleRegister?_eq_some.1 hpush
  obtain ⟨hoperation', hoperands'⟩ := soleRegister?_eq_some.1 hpop'
  have hpushed : (s.reaching pop.address).statements? push =
      some [moveStackPointer s.mode (-s.slotBytes (.register src)),
        .store (s.slotAccess (.register src)) (s.expr (.register src))] := by
    rw [statements?, hoperation, hoperands]
    rfl
  have hpopped : (s.reaching pop.address).statements? pop =
      some [.set (s.expr (.register dst)) (s.slotAccess (.register dst)),
        moveStackPointer s.mode (s.slotBytes (.register dst))] := by
    rw [statements?, hoperation', hoperands']
    rfl
  have hsingle : ∀ next', taken.rest.next? = some next' →
      (s.reaching pop.address).copy? push next'.item = none := by
    intro next' hnext'
    cases hnext.symm.trans hnext'
    rw [hpop]
    exact copy?_reaching
  obtain ⟨first, r₁, hfirst, hresult, hprogress, hrest⟩ :=
    next?_of_single hitem hok hpushed hsingle
  obtain ⟨taken', hitem', hsame, -⟩ := hrest.item?_eq_some hnext
  obtain ⟨second, r₂, hsecond, hresult', hprogress', -⟩ :=
    next?_of_single hitem' (hsame.trans hpop) hpopped
      fun _ _ => copy?_of_ne_push (by rw [hoperation']; decide) _
  refine ⟨first, second, r₁, r₂, _, _, hfirst, hresult, hsecond, hresult', rfl, rfl, ?_⟩
  rw [hprogress', state_execute_pop hoperation' hoperands', depth_pop, depth_arrive, hprogress,
    state_execute_push hoperation hoperands, depth_push, depth_arrive]
  rfl

/-- The cluster of a merged pair and the two clusters of the pair lifted apart leave the same in
every register, and the same stack depth, exactly if the pair is a plain copy. -/
theorem merged_agrees_iff {s : Setting} {r : Run} {taken next : Taken} {push pop : Instruction}
    {src dst : Register} (hr : r.Encoded s.mode) (hitem : r.item? = some taken)
    (hok : taken.item = .ok push) (hnext : taken.rest.next? = some next)
    (hcopy : s.copy? push next.item = some (pop, src, dst))
    (hdepth : wrap32 r.progress.state.depth = r.progress.state.depth) :
    ∃ merged first second r' r₁ r₂ c₁ c₂,
      s.next? r = some (merged, r') ∧ merged.result = .ok (copyCluster push pop src dst) ∧
      (s.reaching pop.address).next? r = some (first, r₁) ∧ first.result = .ok c₁ ∧
      (s.reaching pop.address).next? r₁ = some (second, r₂) ∧ second.result = .ok c₂ ∧
      ((∀ (m : Machine) (reg : Register),
          (m.run (copyCluster push pop src dst).statements).cell (.register reg) =
            (m.runClusters [c₁, c₂]).cell (.register reg)) ∧
        r'.progress.state.depth = r₂.progress.state.depth ↔ IsPlainCopy s.mode src dst) := by
  obtain ⟨hpop, hpush, hpop', hbits, -⟩ := copy?_eq_some.1 hcopy
  obtain ⟨hoperation, hoperands⟩ := soleRegister?_eq_some.1 hpush
  obtain ⟨hoperation', hoperands'⟩ := soleRegister?_eq_some.1 hpop'
  have hsrc : IsSlotOperand (.register src) := by
    obtain ⟨o, ho, hslot | ⟨value, bits, -, rfl⟩⟩ :=
      ((hr.item? hitem).1 push hok).operands_push hoperation
    · cases hoperands.symm.trans ho
      exact hslot
    · cases hoperands.symm.trans ho
  have hdst : IsSlotOperand (.register dst) := by
    obtain ⟨o, ho, hslot⟩ :=
      (((hr.item? hitem).2.next? hnext).1 pop hpop).operands_pop hoperation'
    cases hoperands'.symm.trans ho
    exact hslot
  obtain ⟨merged, r', hmerged, hresult, hprogress, -⟩ := next?_of_copy? hitem hok hnext hcopy
  obtain ⟨first, second, r₁, r₂, c₁, c₂, hfirst, hresult₁, hsecond, hresult₂, hpushed, hpopped,
    hdepth₂⟩ := next?_reaching hitem hok hnext hcopy
  refine ⟨merged, first, second, r', r₁, r₂, c₁, c₂, hmerged, hresult, hfirst, hresult₁,
    hsecond, hresult₂, ?_⟩
  rw [hprogress, depth_copy, depth_arrive, hdepth₂,
    depth_restored_iff hdepth (hsrc.slotBytes s).2 (hdst.slotBytes s).2]
  simp only [runClusters_pair]
  constructor
  · rintro ⟨hcells, hslot⟩
    have hslots : slotBits s.mode (.register src) = slotBits s.mode (.register dst) := by
      rw [← (hsrc.slotBytes s).1, ← (hdst.slotBytes s).1, hslot]
    exact isPlainCopy_of_agree hsrc hbits hslot hpushed hpopped hslots hcells
  · intro hplain
    have hslot : s.slotBytes (.register dst) = s.slotBytes (.register src) := by
      unfold slotBytes
      rcases hplain with rfl | ⟨hslots, -⟩
      · rfl
      · rw [hslots]
    exact ⟨fun m => copy_eq_push_pop m hsrc hbits hslot hpushed hpopped hplain, hslot⟩

/-- `push cs` and `pop ds` in real mode are a plain copy. -/
theorem merged_agrees_iff_push_cs_pop_ds :
    let s : Setting := ⟨.real16, .silent⟩
    let image : Image := ⟨⟨.segment 0x0C00, 0, by decide⟩, [0x0E, 0x1F]⟩
    let p : Progress := ⟨.initial (processor .real16) none, .empty 16, none⟩
    let r : Run := .start p (.code .real16 (.ofImage image .little))
    ∃ push pop merged first second r' r₁ r₂ c₁ c₂,
      s.next? r = some (merged, r') ∧ merged.result = .ok (copyCluster push pop cs ds) ∧
      (s.reaching pop.address).next? r = some (first, r₁) ∧ first.result = .ok c₁ ∧
      (s.reaching pop.address).next? r₁ = some (second, r₂) ∧ second.result = .ok c₂ ∧
      (∀ (m : Machine) (reg : Register),
        (m.run (copyCluster push pop cs ds).statements).cell (.register reg) =
          (m.runClusters [c₁, c₂]).cell (.register reg)) ∧
      r'.progress.state.depth = r₂.progress.state.depth := by
  intro s image p r
  have hr : r.Encoded s.mode := (Run.resumes_start _ _).encoded rfl
  obtain ⟨taken, next, push, pop, hitem, hok, hnext, hcopy⟩ : ∃ taken next push pop,
      r.item? = some taken ∧ taken.item = .ok push ∧ taken.rest.next? = some next ∧
        s.copy? push next.item = some (pop, cs, ds) := ⟨_, _, _, _, rfl, rfl, rfl, rfl⟩
  obtain ⟨merged, first, second, r', r₁, r₂, c₁, c₂, hmerged, hresult, hfirst, hresult₁, hsecond,
    hresult₂, hagree⟩ := merged_agrees_iff hr hitem hok hnext hcopy rfl
  have hplain : IsPlainCopy s.mode cs ds := by decide
  exact ⟨push, pop, merged, first, second, r', r₁, r₂, c₁, c₂, hmerged, hresult, hfirst, hresult₁,
    hsecond, hresult₂, hagree.2 hplain⟩

/-- Merged, `push cs` and `pop ax` in protected mode leave the stack pointer as it was; apart they
lower it by two bytes, for `cs` is pushed as four. -/
theorem merged_differs_push_cs_pop_ax :
    let s : Setting := ⟨.protected32, .silent⟩
    let image : Image := ⟨⟨.flat .w32, 0x1000, by decide⟩, [0x0E, 0x66, 0x58]⟩
    let p : Progress := ⟨.initial (processor .protected32) none, .empty 32, none⟩
    let r : Run := .start p (.code .protected32 (.ofImage image .little))
    ∃ merged first second r' r₁ r₂ c c₁ c₂,
      s.next? r = some (merged, r') ∧ merged.result = .ok c ∧
      (s.reaching (image.addressAt 1)).next? r = some (first, r₁) ∧ first.result = .ok c₁ ∧
      (s.reaching (image.addressAt 1)).next? r₁ = some (second, r₂) ∧ second.result = .ok c₂ ∧
      (Machine.blank.run c.statements).cell (.register esp) = 0 ∧
      (Machine.blank.runClusters [c₁, c₂]).cell (.register esp) = 0xFFFFFFFE ∧
      r'.progress.state.depth = 0 ∧ r₂.progress.state.depth = 2 := by
  intro s image p r
  obtain ⟨taken, next, push, pop, hitem, hok, hnext, -, hcopy, haddress⟩ :
      ∃ taken next push pop, r.item? = some taken ∧ taken.item = .ok push ∧
        taken.rest.next? = some next ∧ next.item = .ok pop ∧
        s.copy? push next.item = some (pop, cs, ax) ∧ pop.address = image.addressAt 1 :=
    ⟨_, _, _, _, rfl, rfl, rfl, rfl, by decide +kernel, rfl⟩
  obtain ⟨merged, r', hmerged, hresult, hprogress, -⟩ := next?_of_copy? hitem hok hnext hcopy
  obtain ⟨first, second, r₁, r₂, c₁, c₂, hfirst, hresult₁, hsecond, hresult₂, hpushed, hpopped,
    hdepth⟩ := next?_reaching hitem hok hnext hcopy
  rw [haddress] at hfirst hsecond
  refine ⟨merged, first, second, r', r₁, r₂, _, c₁, c₂, hmerged, hresult, hfirst, hresult₁,
    hsecond, hresult₂, ?_, ?_, ?_, ?_⟩
  · exact cell_copy .blank rfl esp
  · rw [runClusters_pair, ← Option.some.inj hpushed, ← Option.some.inj hpopped]
    decide +kernel
  · rw [hprogress, depth_copy]
    exact depth_arrive p push
  · rw [hdepth]
    decide +kernel

end Setting

end CodeLift.X86
