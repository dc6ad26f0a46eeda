-- SUMMARY: A state knows of a flag group the constant that was last assigned to this very group.
import CodeLift.Procedure
import CodeLift.Proofs.Register.Masks
import CodeLift.Proofs.X86.Coverage
import Mathlib.Data.List.Induction

/-!
# Known flags

A state keeps flag groups by their masks, and follows each assignment to a group for this group
alone (`Setting.flags_execute`). So along a run from the entry of a procedure it knows of a group
the constant that was last assigned to it, or what is known at entry.

Groups may share flags, and then a group is out of date once another one has been assigned. The
groups that instructions assign are so chosen that this happens to one of them only: behind a
logical operation the carry flag is known to be clear, and it stays known when arithmetic or a
comparison assigns it along with other flags (`known_flags_assigned`).
-/

namespace CodeLift

/-! ## Assignments to flags -/

/-- A flag group to which an expression is assigned. -/
structure FlagWrite where
  group : FlagGroup
  value : Expr

def Stmt.flagWrite? : Stmt → Option FlagWrite
  | .assign (.flags g) e => some ⟨g, e⟩
  | _ => none

/-- What statements assign to flag groups, in order. -/
def flagWrites (statements : List Stmt) : List FlagWrite := statements.filterMap Stmt.flagWrite?

/-- The last write to a group of this kind. -/
def lastWrite? (writes : List FlagWrite) (p : FlagGroup → Bool) : Option FlagWrite :=
  writes.reverse.find? fun w => p w.group

/-- The last write to a group of this kind assigns the value as a constant. If there is none, the
value is the one at the start. -/
def StemsFrom (writes : List FlagWrite) (p : FlagGroup → Bool) (start value : Constant) : Prop :=
  match lastWrite? writes p with
  | some w => w.value = .constant value
  | none => value = start

section

variable {writes : List FlagWrite} {w : FlagWrite} {p : FlagGroup → Bool}

theorem lastWrite?_concat :
    lastWrite? (writes ++ [w]) p = if p w.group then some w else lastWrite? writes p := by
  rw [lastWrite?, List.reverse_concat, List.find?_cons]
  cases p w.group <;> rfl

theorem mem_of_lastWrite? (h : lastWrite? writes p = some w) : w ∈ writes ∧ p w.group = true := by
  have hkind : p w.group = true := List.find?_some (p := fun w : FlagWrite => p w.group) h
  exact ⟨List.mem_reverse.1 (List.mem_of_find?_eq_some h), hkind⟩

theorem lastWrite?_eq_none_iff : lastWrite? writes p = none ↔ ∀ w ∈ writes, p w.group = false := by
  simp [lastWrite?]

end

/-- What is known of a flag group to which the expression is assigned. -/
def Expr.known : Expr → Constant
  | .constant c => c
  | _ => .unknown

theorem Expr.known_eq_iff {e : Expr} {value : Constant} (hvalue : value.isKnown) :
    e.known = value ↔ e = .constant value := by
  cases e with
  | constant c => exact (Expr.constant.injEq c value).symm ▸ Iff.rfl
  | _ =>
    refine iff_of_false (fun h => ?_) nofun
    rw [← h] at hvalue
    cases hvalue

/-- Note what is written to each group, under its mask. -/
def Store.note (flags : Store Nat) (writes : List FlagWrite) : Store Nat :=
  writes.foldl (fun flags w => flags.set w.group.mask w.value.known) flags

theorem Store.note_append (flags : Store Nat) (writes more : List FlagWrite) :
    flags.note (writes ++ more) = (flags.note writes).note more := List.foldl_append ..

/-- The last write to a mask is what is read there. -/
theorem Store.get_note (flags : Store Nat) (writes : List FlagWrite) (mask : Nat) :
    (flags.note writes).get mask =
      match lastWrite? writes (·.mask == mask) with
      | some w => w.value.known
      | none => flags.get mask := by
  induction writes using List.reverseRecOn with
  | nil => rfl
  | append_singleton writes w ih =>
    rw [note_append, lastWrite?_concat]
    change ((flags.note writes).set w.group.mask w.value.known).get mask = _
    by_cases hmask : w.group.mask = mask
    · rw [if_pos (beq_iff_eq.2 hmask), ← hmask, get_set_self]
    · rw [if_neg (mt beq_iff_eq.1 hmask), get_set_of_ne _ _ (Ne.symm hmask), ih]

namespace X86

/-! ## Instructions -/

/-- The assignments to flag groups that instructions are lifted into. -/
inductive Emitted : FlagWrite → Prop
  | arithmetic (e : Expr) : Emitted ⟨arithmeticFlags, .conditionOf e⟩
  | logical (e : Expr) : Emitted ⟨logicalFlags, .conditionOf e⟩
  | cleared : Emitted ⟨clearedFlags, .constant (.ofBool false)⟩

/-- A constant is assigned to the carry flag only. -/
theorem Emitted.eq_cleared {w : FlagWrite} {value : Constant} (h : Emitted w)
    (hvalue : w.value = .constant value) : w = ⟨clearedFlags, .constant (.ofBool false)⟩ := by
  cases h with
  | arithmetic | logical => cases hvalue
  | cleared => rfl

/-- The carry flag is written with the others by arithmetic, and on its own. -/
theorem Emitted.of_testBit_carry {w : FlagWrite} (h : Emitted w)
    (hbit : w.group.mask.testBit 1 = true) :
    (∃ e, w = ⟨arithmeticFlags, .conditionOf e⟩) ∨
      w = ⟨clearedFlags, .constant (.ofBool false)⟩ := by
  cases h with
  | arithmetic e => exact .inl ⟨e, rfl⟩
  | logical =>
    have hclear : logicalFlags.mask.testBit 1 = false := by decide
    cases hclear.symm.trans hbit
  | cleared => exact .inr rfl

theorem Emitted.testBit_direction {w : FlagWrite} (h : Emitted w) :
    w.group.mask.testBit 3 = false := by
  cases h with
  | arithmetic => exact (by decide : arithmeticFlags.mask.testBit 3 = false)
  | logical => exact (by decide : logicalFlags.mask.testBit 3 = false)
  | cleared => exact (by decide : clearedFlags.mask.testBit 3 = false)

theorem flags_setOperand (o : Operand) (c : Constant) (t : State) :
    (setOperand o c t).flags = t.flags := by
  cases o <;> rfl

theorem flags_foldInto (op : BinaryOp) (dst src : Operand) (t : State) :
    (foldInto op dst src t).flags = t.flags := by
  cases dst <;> rfl

namespace Setting

variable {s : Setting} {i : Instruction} {statements : List Stmt} {p : Progress}

/-- No operand is a flag group. -/
theorem flagWrites_set_cons (s : Setting) (o : Operand) (e : Expr) (rest : List Stmt) :
    flagWrites (.set (s.expr o) e :: rest) = flagWrites rest := by
  refine List.filterMap_cons_none ?_
  cases o <;> rfl

theorem flags_arithmetic (p : Progress) (op : BinaryOp) (dst src : Operand) :
    (p.arithmetic op [dst, src]).state.flags = p.state.flags.set arithmeticFlags.mask .unknown :=
  congrArg (Store.set · arithmeticFlags.mask .unknown) (flags_foldInto op dst src p.state)

theorem flags_logical (p : Progress) (op : BinaryOp) (dst src : Operand) :
    (p.logical op [dst, src]).state.flags =
      (p.state.flags.set logicalFlags.mask .unknown).set clearedFlags.mask (.ofBool false) :=
  congrArg (fun flags : Store Nat =>
    (flags.set logicalFlags.mask .unknown).set clearedFlags.mask (.ofBool false))
    (flags_foldInto op dst src p.state)

/-- Apart from calls, what becomes known of flags behind an instruction is what its statements
assign to flag groups. -/
theorem flags_execute (hs : s.statements? i = some statements) (hcall : i.operation ≠ .call)
    (p : Progress) :
    (∀ w ∈ flagWrites statements, Emitted w) ∧
      (s.execute i p).1.state.flags = p.state.flags.note (flagWrites statements) := by
  rw [state_execute, perform]
  cases emits_of_statements? hs with
  | move hoperation hoperands =>
    rw [hoperation, hoperands, flagWrites_set_cons]
    exact ⟨List.forall_mem_nil _, flags_setOperand _ _ _⟩
  | arithmetic hoperation hoperands =>
    rw [flagWrites_set_cons, hoperands]
    refine ⟨List.forall_mem_singleton.2 (.arithmetic _), ?_⟩
    rcases hoperation with ⟨hoperation, -⟩ | ⟨hoperation, -⟩
    all_goals
      rw [hoperation]
      exact flags_arithmetic _ _ _ _
  | compare hoperation =>
    rw [hoperation]
    exact ⟨List.forall_mem_singleton.2 (.arithmetic _), rfl⟩
  | logical hoperation hoperands =>
    rw [flagWrites_set_cons, hoperands]
    refine ⟨List.forall_mem_cons.2 ⟨.logical _, List.forall_mem_singleton.2 .cleared⟩, ?_⟩
    rcases hoperation with ⟨hoperation, -⟩ | ⟨hoperation, -⟩
    all_goals
      rw [hoperation]
      exact flags_logical _ _ _ _
  | zero hoperation hoperands =>
    rw [hoperation]
    simp only [Progress.zero, sameRegister?_eq_some.2 hoperands]
    exact ⟨List.forall_mem_nil _, rfl⟩
  | push hoperation hoperands =>
    rw [hoperation, hoperands]
    exact ⟨List.forall_mem_nil _, rfl⟩
  | pop hoperation hoperands =>
    rw [hoperation, hoperands, flagWrites_set_cons]
    exact ⟨List.forall_mem_nil _, flags_setOperand _ _ _⟩
  | branch hoperation hflow =>
    rw [hoperation, hflow]
    exact ⟨List.forall_mem_nil _, rfl⟩
  | call hoperation => exact absurd hoperation hcall
  | nop hoperation | jump hoperation | ret _ hoperation =>
    rw [hoperation]
    exact ⟨List.forall_mem_nil _, rfl⟩

/-! ## Runs -/

/-- What is known of flags at the entry of a procedure: the direction flag is clear. -/
def entryFlags : Store Nat := Store.empty.set directionFlag (.ofBool false)

theorem eq_direction_of_isKnown {mask : Nat} (h : (entryFlags.get mask).isKnown) :
    mask = directionFlag := by
  by_contra hne
  rw [entryFlags, Store.get_set_of_ne _ _ hne] at h
  cases h

theorem flags_atEntry (mode : Mode) (kept : Options) (entry : Address) :
    (Architecture.atEntry ⟨mode, .full, kept⟩ entry).state.flags = entryFlags := by
  have hpointer : ∀ t : State, (t.setPointer entry).flags = t.flags ∧
      (t.setPointer entry).cleared = t.cleared := by
    intro t
    unfold State.setPointer
    split <;> exact ⟨rfl, rfl⟩
  obtain ⟨hflags, hcleared⟩ := hpointer (Architecture.newState ⟨mode, .full, kept⟩)
  have hcleared : ((Architecture.newState ⟨mode, .full, kept⟩).setPointer entry).cleared =
      some (flagGroup directionFlag) := hcleared
  simp only [Architecture.atEntry, State.enter, State.clear, hcleared, State.setFlag, hflags]
  rfl

theorem flags_copy (p : Progress) (src dst : Register) :
    (p.copy src dst).state.flags = p.state.flags := by
  rw [Progress.copy, Progress.state_follow]
  rfl

/-- Runs without calls from the entry of a procedure, with what their statements assign to flag
groups. What cannot be lifted is passed over. -/
inductive Assigns (s : Setting) : List FlagWrite → Run → Prop
  | entry {kept : Options} {entry : Address} {feed : Feed} :
      Assigns s [] (.start (Architecture.atEntry ⟨s.mode, .full, kept⟩ entry) feed)
  | lifted {writes : List FlagWrite} {r r' : Run} {i : Instruction} {outcome : Outcome}
      {c : Cluster} (hassigns : Assigns s writes r) (hi : r.instruction? = some i)
      (hcall : i.operation ≠ .call) (hnext : s.next? r = some (outcome, r'))
      (hresult : outcome.result = .ok c) : Assigns s (writes ++ flagWrites c.statements) r'
  | failed {writes : List FlagWrite} {r r' : Run} {outcome : Outcome} {e : LiftError}
      (hassigns : Assigns s writes r) (hnext : s.next? r = some (outcome, r'))
      (hresult : outcome.result = .error e) : Assigns s writes r'

variable {writes : List FlagWrite} {r : Run}

/-- Behind a run the state knows of flags what the assignments on the way tell. -/
theorem Assigns.flags (h : s.Assigns writes r) :
    (∀ w ∈ writes, Emitted w) ∧ r.progress.state.flags = entryFlags.note writes := by
  induction h with
  | entry => exact ⟨List.forall_mem_nil _, flags_atEntry _ _ _⟩
  | @lifted writes r r' i outcome c hassigns hi hcall hnext hresult ih =>
    obtain ⟨hwrites, hflags⟩ := ih
    have hstep := step_of_next? hnext
    rw [hresult] at hstep
    cases hstep with
    | lifted hitem hok hstatements hprogress =>
      cases hi.symm.trans (Run.instruction?_eq hitem hok)
      obtain ⟨hmore, hexecute⟩ := flags_execute hstatements hcall (r.progress.arrive i)
      refine ⟨List.forall_mem_append.2 ⟨hwrites, hmore⟩, ?_⟩
      rw [hprogress, hexecute, flags_arrive, hflags, Store.note_append]
    | copied hitem hok hnext' hcopy hprogress =>
      have hnone : ∀ push pop src dst,
          writes ++ flagWrites (copyCluster push pop src dst).statements = writes :=
        fun _ _ _ _ => List.append_nil _
      rw [hprogress, flags_copy, flags_arrive, hnone]
      exact ⟨hwrites, hflags⟩
  | failed hassigns hnext hresult ih =>
    have hstep := step_of_next? hnext
    rw [hresult] at hstep
    cases hstep with
    | undecodable _ _ hprogress =>
      rw [hprogress]
      exact ih
    | unsupported _ _ _ hprogress =>
      rw [hprogress, flags_arrive]
      exact ih

/-- What is known of a group is the constant that was last assigned to it, or what is known at
entry. -/
theorem Assigns.flag_eq_iff (h : s.Assigns writes r) (g : FlagGroup) {value : Constant}
    (hvalue : value.isKnown) :
    r.progress.state.flag g = value ↔
      StemsFrom writes (·.mask == g.mask) (entryFlags.get g.mask) value := by
  rw [State.flag, h.flags.2, Store.get_note, StemsFrom]
  split
  · exact Expr.known_eq_iff hvalue
  · exact eq_comm

/-- Along a run without calls from the entry of a procedure, a flag group is known to have a value
if it is the constant that was last assigned to this group, or if there is none the one known at
entry. The last write to each of its flags tells the same, unless the group is the carry flag and
arithmetic or a comparison has assigned it since. -/
theorem known_flags_assigned (h : s.Assigns writes r) (g : FlagGroup) {value : Constant}
    (hvalue : value.isKnown) :
    (r.progress.state.flag g = value ↔
        StemsFrom writes (·.mask == g.mask) (entryFlags.get g.mask) value) ∧
      (r.progress.state.flag g = value → ∀ bit, g.mask.testBit bit = true →
        (StemsFrom writes (·.mask.testBit bit) (entryFlags.get g.mask) value ↔
          ¬ (g.mask = clearedFlags.mask ∧
            ∃ e, lastWrite? writes (·.mask.testBit bit) = some ⟨arithmeticFlags, e⟩))) := by
  have hwrites := h.flags.1
  refine ⟨h.flag_eq_iff g hvalue, fun hflag bit hbit => ?_⟩
  have hstems := (h.flag_eq_iff g hvalue).1 hflag
  unfold StemsFrom at hstems ⊢
  cases hlast : lastWrite? writes (·.mask == g.mask) with
  | none =>
    -- Without a write the group is the direction flag, which nothing writes.
    simp only [hlast] at hstems
    have hmask : g.mask = directionFlag := eq_direction_of_isKnown (hstems ▸ hvalue)
    obtain rfl : bit = 3 := (testBit_single_iff hmask).1 hbit
    have hunwritten : lastWrite? writes (·.mask.testBit 3) = none :=
      lastWrite?_eq_none_iff.2 fun w hw => (hwrites w hw).testBit_direction
    simp only [hunwritten]
    refine iff_of_true hstems fun hcarry => ?_
    rw [hmask] at hcarry
    exact absurd hcarry.1 (by decide)
  | some w =>
    -- A write of a constant clears the carry flag.
    simp only [hlast] at hstems
    obtain ⟨hw, hgroup⟩ := mem_of_lastWrite? hlast
    obtain rfl := (hwrites w hw).eq_cleared hstems
    have hmask : clearedFlags.mask = g.mask := beq_iff_eq.1 hgroup
    obtain rfl : bit = 1 := (testBit_single_iff hmask.symm).1 hbit
    cases hwritten : lastWrite? writes (·.mask.testBit 1) with
    | none => exact absurd (lastWrite?_eq_none_iff.1 hwritten _ hw) (by decide)
    | some w' =>
      obtain ⟨hw', hcarry⟩ := mem_of_lastWrite? hwritten
      rcases (hwrites w' hw').of_testBit_carry hcarry with ⟨e, rfl⟩ | rfl
      · exact iff_of_false nofun fun hnot => hnot ⟨hmask.symm, _, rfl⟩
      · refine iff_of_true hstems ?_
        rintro ⟨-, e, heq⟩
        cases heq

/-- Behind `and eax, eax`, `cmp eax, eax` and `or eax, eax` the carry flag is known from its last
write. -/
theorem known_flags_assigned_and_cmp_or :
    let s : Setting := ⟨.protected32, .silent⟩
    let operands : List Operand := [.register eax, .register eax]
    let first : Instruction := ⟨⟨.flat .w32, 0x1000, by decide⟩, [0x21, 0xC0], "and", .and,
      operands, .sequential⟩
    let second : Instruction := ⟨⟨.flat .w32, 0x1002, by decide⟩, [0x39, 0xC0], "cmp", .compare,
      operands, .sequential⟩
    let third : Instruction := ⟨⟨.flat .w32, 0x1004, by decide⟩, [0x09, 0xC0], "or", .or,
      operands, .sequential⟩
    decode s.mode first.address first.bytes = .ok first ∧
    decode s.mode second.address second.bytes = .ok second ∧
    decode s.mode third.address third.bytes = .ok third ∧
    (Constant.ofBool false).isKnown ∧
    ∃ writes r, s.Assigns writes r ∧ r.progress.state.flag clearedFlags = .ofBool false ∧
      writes.map (fun w => w.group.mask) = [0x15, 0x02, 0x17, 0x15, 0x02] ∧
      StemsFrom writes (·.mask.testBit 1) .unknown (.ofBool false) := by
  intro s operands first second third
  let r : Run := .start (Architecture.atEntry ⟨.protected32, .full, []⟩ first.address)
    (.items [.ok first, .ok second, .ok third])
  obtain ⟨o₁, o₂, o₃, r₁, r₂, r₃, c₁, c₂, c₃, hnext₁, hresult₁, hi₂, hnext₂, hresult₂, hi₃, hnext₃,
    hresult₃, hflag, hmasks, hlast⟩ : ∃ o₁ o₂ o₃ r₁ r₂ r₃ c₁ c₂ c₃,
      s.next? r = some (o₁, r₁) ∧ o₁.result = .ok c₁ ∧ r₁.instruction? = some second ∧
      s.next? r₁ = some (o₂, r₂) ∧ o₂.result = .ok c₂ ∧ r₂.instruction? = some third ∧
      s.next? r₂ = some (o₃, r₃) ∧ o₃.result = .ok c₃ ∧
      r₃.progress.state.flag clearedFlags = .ofBool false ∧
      ((flagWrites c₁.statements ++ flagWrites c₂.statements ++ flagWrites c₃.statements).map
        fun w => w.group.mask) = [0x15, 0x02, 0x17, 0x15, 0x02] ∧
      lastWrite? (flagWrites c₁.statements ++ flagWrites c₂.statements ++
        flagWrites c₃.statements) (·.mask.testBit 1) =
          some ⟨clearedFlags, .constant (.ofBool false)⟩ :=
    ⟨_, _, _, _, _, _, _, _, _, next?_start_items rfl rfl, rfl, rfl, next?_start_items rfl rfl, rfl,
      rfl, next?_start_items rfl rfl, rfl, rfl, rfl, rfl⟩
  have hassigns : s.Assigns _ r₃ :=
    .lifted (.lifted (.lifted .entry rfl (by decide) hnext₁ hresult₁) hi₂ (by decide) hnext₂
      hresult₂) hi₃ (by decide) hnext₃ hresult₃
  refine ⟨rfl, rfl, rfl, rfl, _, r₃, hassigns, hflag, hmasks,
    ((known_flags_assigned hassigns clearedFlags rfl).2 hflag 1 rfl).2 ?_⟩
  rintro ⟨-, e, heq⟩
  cases hlast.symm.trans heq

/-- A comparison goes unnoticed: behind `and eax, eax` and `cmp eax, eax` the carry flag is still
known to be clear, though the last statement to write it does not assign a constant. -/
theorem known_flag_fails_cmp :
    let s : Setting := ⟨.protected32, .silent⟩
    let operands : List Operand := [.register eax, .register eax]
    let first : Instruction := ⟨⟨.flat .w32, 0x1000, by decide⟩, [0x21, 0xC0], "and", .and,
      operands, .sequential⟩
    let second : Instruction := ⟨⟨.flat .w32, 0x1002, by decide⟩, [0x39, 0xC0], "cmp", .compare,
      operands, .sequential⟩
    decode s.mode first.address first.bytes = .ok first ∧
    decode s.mode second.address second.bytes = .ok second ∧
    ∃ writes r, s.Assigns writes r ∧ r.progress.state.flag clearedFlags = .ofBool false ∧
      clearedFlags.mask.testBit 1 = true ∧
      ¬ StemsFrom writes (·.mask.testBit 1) (entryFlags.get clearedFlags.mask)
        (r.progress.state.flag clearedFlags) := by
  intro s operands first second
  let r : Run := .start (Architecture.atEntry ⟨.protected32, .full, []⟩ first.address)
    (.items [.ok first, .ok second])
  obtain ⟨o₁, o₂, r₁, r₂, c₁, c₂, hnext₁, hresult₁, hi₂, hnext₂, hresult₂, hflag, e, hlast⟩ :
      ∃ o₁ o₂ r₁ r₂ c₁ c₂,
        s.next? r = some (o₁, r₁) ∧ o₁.result = .ok c₁ ∧ r₁.instruction? = some second ∧
        s.next? r₁ = some (o₂, r₂) ∧ o₂.result = .ok c₂ ∧
        r₂.progress.state.flag clearedFlags = .ofBool false ∧
        ∃ e, flagWrites c₂.statements = [⟨arithmeticFlags, .conditionOf e⟩] :=
    ⟨_, _, _, _, _, _, next?_start_items rfl rfl, rfl, rfl, next?_start_items rfl rfl, rfl, rfl, _,
      rfl⟩
  have hassigns : s.Assigns _ r₂ :=
    .lifted (.lifted .entry rfl (by decide) hnext₁ hresult₁) hi₂ (by decide) hnext₂ hresult₂
  refine ⟨rfl, rfl, _, r₂, hassigns, hflag, rfl, ?_⟩
  change ¬ StemsFrom (flagWrites c₁.statements ++ flagWrites c₂.statements) _ _ _
  have hbit : arithmeticFlags.mask.testBit 1 = true := by decide
  rw [StemsFrom, hlast, lastWrite?_concat, if_pos hbit]
  exact nofun

end Setting

end X86

end CodeLift
