-- SUMMARY: What a step of a run can be, and which items it leaves for the steps to come.
import CodeLift.Proofs.X86.Decoding
import CodeLift.Proofs.X86.Rewriter

/-!
# Steps of a run

`Setting.Step` lists the four things that can come of a step: bytes that do not
decode, an instruction that cannot be lifted, one lifted on its own, and a push
and pop lifted as a register copy. `step_of_next?` says that there is no fifth,
so a property of runs is proved by these four cases.

Looking ahead takes nothing away: behind every step the run `Resumes` the feed
that the step has left.
-/

namespace CodeLift.X86

/-! ## Items to come -/

/-- The items to come are those of the feed, of which the first may have been looked at. -/
def Run.Resumes (r : Run) (feed : Feed) : Prop :=
  (r.ahead = none ∧ r.feed = feed) ∨
    ∃ taken, feed.next? = some taken ∧ r.ahead = some taken.item ∧ r.feed = taken.rest

theorem Run.resumes_start (p : Progress) (feed : Feed) : (Run.start p feed).Resumes feed :=
  .inl ⟨rfl, rfl⟩

/-- A run that resumes a feed has its next item, and then resumes what is left of it. -/
theorem Run.Resumes.item? {r : Run} {feed : Feed} (h : r.Resumes feed) :
    r.item?.map (fun taken => (taken.item, taken.rest)) =
      feed.next?.map fun taken => (taken.item, taken.rest) := by
  rcases h with ⟨hahead, rfl⟩ | ⟨taken, hnext, hahead, hfeed⟩
  · simp [Run.item?, hahead]
  · simp [Run.item?, hahead, hnext, hfeed]

theorem Run.Resumes.item?_eq_some {r : Run} {feed : Feed} {next : Taken} (h : r.Resumes feed)
    (hnext : feed.next? = some next) :
    ∃ taken, r.item? = some taken ∧ taken.item = next.item ∧ taken.rest = next.rest := by
  have hitem := h.item?
  rw [hnext, Option.map_some, Option.map_eq_some_iff] at hitem
  obtain ⟨taken, htaken, heq⟩ := hitem
  exact ⟨taken, htaken, congrArg Prod.fst heq, congrArg Prod.snd heq⟩

/-- Every instruction that the feed can give is spelled by bytes. -/
def Feed.Encoded (mode : Mode) : Feed → Prop
  | .items list => ∀ i, .ok i ∈ list → mode.Encodes i
  | .code mode' _ => mode' = mode

/-- Every instruction that the run can come to is spelled by bytes. -/
def Run.Encoded (mode : Mode) (r : Run) : Prop :=
  (∀ i, r.ahead = some (.ok i) → mode.Encodes i) ∧ r.feed.Encoded mode

theorem Feed.Encoded.next? {mode : Mode} {feed : Feed} {taken : Taken} (h : feed.Encoded mode)
    (hnext : feed.next? = some taken) :
    (∀ i, taken.item = .ok i → mode.Encodes i) ∧ taken.rest.Encoded mode := by
  cases feed with
  | items list =>
    cases list with
    | nil => cases hnext
    | cons item rest =>
      cases hnext
      exact ⟨fun i hi => h i (by simp [← hi]), fun i hi => h i (List.mem_cons_of_mem _ hi)⟩
  | code mode' reader =>
    have hmode : mode' = mode := h
    simp only [Feed.next?, hmode] at hnext
    split at hnext
    · split at hnext
      · next i hdecode =>
        cases hnext
        refine ⟨fun j hj => ?_, rfl⟩
        cases hj
        have haddress := (decode_eq_ok hdecode).1
        exact ⟨_, by rw [haddress]; exact hdecode⟩
      · cases hnext
        exact ⟨fun i hi => (by cases hi), rfl⟩
    · cases hnext

theorem Run.Encoded.item? {mode : Mode} {r : Run} {taken : Taken} (h : r.Encoded mode)
    (hitem : r.item? = some taken) :
    (∀ i, taken.item = .ok i → mode.Encodes i) ∧ taken.rest.Encoded mode := by
  unfold Run.item? at hitem
  split at hitem
  · next item hahead =>
    cases hitem
    exact ⟨fun i hi => h.1 i (by simp [hahead, ← hi]), h.2⟩
  · exact h.2.next? hitem

theorem Run.Resumes.encoded {mode : Mode} {r : Run} {feed : Feed} (h : r.Resumes feed)
    (hfeed : feed.Encoded mode) : r.Encoded mode := by
  rcases h with ⟨hahead, rfl⟩ | ⟨taken, hnext, hahead, hrest⟩
  · exact ⟨by simp [hahead], hfeed⟩
  · obtain ⟨hitem, htaken⟩ := hfeed.next? hnext
    exact ⟨fun i hi => hitem i (by simpa [hahead] using hi), hrest ▸ htaken⟩

/-! ## Steps -/

/-- The instruction that the run comes to, unless the bytes there do not decode. -/
def Run.instruction? (r : Run) : Option Instruction := r.item?.bind fun taken => taken.item.toOption

theorem Run.instruction?_eq {r : Run} {taken : Taken} {i : Instruction}
    (hitem : r.item? = some taken) (hok : taken.item = .ok i) : r.instruction? = some i := by
  rw [instruction?, hitem, Option.bind_some, hok]
  rfl

/-- The progress at an instruction that has come off the feed. -/
def Progress.arrive (p : Progress) (i : Instruction) : Progress :=
  p.withState (·.setPointer i.address)

/-- Arriving at an instruction sets the instruction pointer, and at most a register. -/
theorem Progress.state_arrive_eq (p : Progress) (i : Instruction) :
    ∃ registers, (p.arrive i).state =
      { p.state with pointer := some i.address, registers := registers } := by
  change ∃ registers, p.state.setPointer i.address = _
  unfold State.setPointer
  split <;> exact ⟨_, rfl⟩

theorem Progress.state_follow (p : Progress) (dst : Operand) (src : Option Operand) :
    (p.follow dst src).state = p.state := by
  unfold follow
  split
  · split
    · split <;> rfl
    · rfl
  · rfl

namespace Setting

/-- Naming operands and following the frame pointer leave the state alone. -/
theorem state_execute (s : Setting) (i : Instruction) (p : Progress) :
    (s.execute i p).1.state = (s.perform i p).1.state := by
  unfold execute
  cases written? i with
  | none => rfl
  | some written => exact Progress.state_follow _ _ _

variable (s : Setting)

/-- Exactly a push and a pop of registers of one width are merged, if the pop is behind the push and
is no jump target. -/
theorem copy?_eq_some {s : Setting} {push pop : Instruction} {item : Item} {src dst : Register} :
    s.copy? push item = some (pop, src, dst) ↔
      item = .ok pop ∧ soleRegister? .push push = some src ∧ soleRegister? .pop pop = some dst ∧
        dst.bits = src.bits ∧ pop.address.coincides push.next ∧
          ¬ s.host.isJumpTarget pop.address := by
  unfold copy?
  constructor
  · intro h
    split at h
    · next hpush =>
      split at h
      · next hpop =>
        split at h
        · next hmerge =>
          cases h
          exact ⟨rfl, hpush, hpop, hmerge⟩
        · cases h
      · cases h
    · cases h
  · rintro ⟨rfl, hpush, hpop, hmerge⟩
    simp only [hpush, hpop, if_pos hmerge]

/-- Only a push of a register is merged with what is behind it. -/
theorem copy?_of_soleRegister?_eq_none {s : Setting} {i : Instruction}
    (h : soleRegister? .push i = none) (item : Item) : s.copy? i item = none := by
  simp only [copy?, h]

/-- A step from one run to the next, by what comes of it. -/
inductive Step (r : Run) : Except LiftError Cluster → Run → Prop
  | undecodable {taken : Taken} {e : DecodeError} {r' : Run} (hitem : r.item? = some taken)
      (herror : taken.item = .error e) (hprogress : r'.progress = r.progress)
      (hrest : r'.Resumes taken.rest) : Step r (.error (.undecodable e)) r'
  | unsupported {taken : Taken} {i : Instruction} {r' : Run} (hitem : r.item? = some taken)
      (hok : taken.item = .ok i) (hstatements : s.statements? i = none)
      (hprogress : r'.progress = r.progress.arrive i) (hrest : r'.Resumes taken.rest)
      (hsingle : ∀ next, taken.rest.next? = some next → s.copy? i next.item = none) :
      Step r (.error (.unsupported i)) r'
  | lifted {taken : Taken} {i : Instruction} {statements : List Stmt} {r' : Run}
      (hitem : r.item? = some taken) (hok : taken.item = .ok i)
      (hstatements : s.statements? i = some statements)
      (hprogress : r'.progress = (s.execute i (r.progress.arrive i)).1)
      (hrest : r'.Resumes taken.rest)
      (hsingle : ∀ next, taken.rest.next? = some next → s.copy? i next.item = none) :
      Step r (.ok ⟨i.address, i.length, statements⟩) r'
  | copied {taken next : Taken} {push pop : Instruction} {src dst : Register} {r' : Run}
      (hitem : r.item? = some taken) (hok : taken.item = .ok push)
      (hnext : taken.rest.next? = some next) (hcopy : s.copy? push next.item = some (pop, src, dst))
      (hprogress : r'.progress = (r.progress.arrive push).copy src dst)
      (hrest : r'.Resumes next.rest) : Step r (.ok (copyCluster push pop src dst)) r'

variable {s : Setting}

theorem next?_eq_none {r : Run} : s.next? r = none ↔ r.item? = none := by
  unfold next?
  split
  · simp_all
  · split <;> simp_all

/-- Every instruction that comes behind a step is spelled by bytes if those before it are. -/
theorem Step.encoded {mode : Mode} {r r' : Run} {result : Except LiftError Cluster}
    (hstep : s.Step r result r') (h : r.Encoded mode) : r'.Encoded mode := by
  cases hstep with
  | undecodable hitem _ _ hrest => exact hrest.encoded (h.item? hitem).2
  | unsupported hitem _ _ _ hrest => exact hrest.encoded (h.item? hitem).2
  | lifted hitem _ _ _ hrest => exact hrest.encoded (h.item? hitem).2
  | copied hitem _ hnext _ _ hrest => exact hrest.encoded ((h.item? hitem).2.next? hnext).2

/-- An instruction that is not merged with the one behind it makes a step on its own, whether that
one has been looked at or not. -/
theorem step_single {r : Run} {taken : Taken} {i : Instruction} {ahead : Option Item} {feed : Feed}
    (hitem : r.item? = some taken) (hok : taken.item = .ok i)
    (hrest : ∀ p, Run.Resumes ⟨p, ahead, feed⟩ taken.rest)
    (hsingle : ∀ next, taken.rest.next? = some next → s.copy? i next.item = none) :
    s.Step r (s.singleStep i (r.progress.arrive i) ahead feed).1.result
      (s.singleStep i (r.progress.arrive i) ahead feed).2 := by
  unfold singleStep
  cases hstatements : s.statements? i with
  | none =>
    rw [single_of_none hstatements]
    exact .unsupported hitem hok hstatements rfl (hrest _) hsingle
  | some statements =>
    rw [single_of_some hstatements]
    exact .lifted hitem hok hstatements rfl (hrest _) hsingle

theorem step_instruction {r : Run} {taken : Taken} {i : Instruction}
    (hitem : r.item? = some taken) (hok : taken.item = .ok i) :
    s.Step r (s.instructionStep i (r.progress.arrive i) taken.rest).1.result
      (s.instructionStep i (r.progress.arrive i) taken.rest).2 := by
  have hfresh : ∀ p, Run.Resumes ⟨p, none, taken.rest⟩ taken.rest := fun p => .inl ⟨rfl, rfl⟩
  unfold instructionStep
  split
  · unfold pushStep
    split
    · next hend =>
      refine step_single hitem hok hfresh fun next hnext => ?_
      cases hend.symm.trans hnext
    · next next hnext =>
      split
      · next hcopy => exact .copied hitem hok hnext hcopy rfl (Run.resumes_start _ _)
      · next hcopy =>
        refine step_single hitem hok (fun _ => .inr ⟨next, hnext, rfl, rfl⟩) fun next' hnext' => ?_
        cases hnext.symm.trans hnext'
        exact hcopy
  · next hpush =>
    exact step_single hitem hok hfresh fun next _ => copy?_of_soleRegister?_eq_none hpush next.item

/-- Whatever a run gives is one of the four steps. -/
theorem step_of_next? {r r' : Run} {outcome : Outcome} (h : s.next? r = some (outcome, r')) :
    s.Step r outcome.result r' := by
  unfold next? at h
  split at h
  · cases h
  · next taken hitem =>
    split at h
    · next e herror =>
      cases h
      exact .undecodable hitem herror rfl (Run.resumes_start _ _)
    · next i hok =>
      cases h
      exact step_instruction hitem hok

theorem soleRegister?_eq_some {operation : Operation} {i : Instruction} {reg : Register} :
    soleRegister? operation i = some reg ↔
      i.operation = operation ∧ i.operands = [.register reg] := by
  unfold soleRegister?
  constructor
  · intro h
    split at h
    · next hoperands =>
      split at h
      · next hoperation =>
        cases h
        exact ⟨hoperation, hoperands⟩
      · cases h
    · cases h
  · rintro ⟨hoperation, hoperands⟩
    simp only [hoperands, if_pos hoperation]

/-- A step at an instruction fails for want of statements, lifts it on its own, or merges it with
what is behind it. -/
theorem Step.of_instruction? {r r' : Run} {i : Instruction} {result : Except LiftError Cluster}
    (hstep : s.Step r result r') (hi : r.instruction? = some i) :
    s.statements? i = none ∧ result = .error (.unsupported i) ∨
      (∃ statements, s.statements? i = some statements ∧
        result = .ok ⟨i.address, i.length, statements⟩) ∨
      ∃ item pop src dst, s.copy? i item = some (pop, src, dst) ∧
        result = .ok (copyCluster i pop src dst) := by
  cases hstep with
  | undecodable hitem herror =>
    rw [Run.instruction?, hitem, Option.bind_some, herror] at hi
    cases hi
  | unsupported hitem hok hstatements =>
    cases hi.symm.trans (Run.instruction?_eq hitem hok)
    exact .inl ⟨hstatements, rfl⟩
  | lifted hitem hok hstatements =>
    cases hi.symm.trans (Run.instruction?_eq hitem hok)
    exact .inr (.inl ⟨_, hstatements, rfl⟩)
  | copied hitem hok _ hcopy =>
    cases hi.symm.trans (Run.instruction?_eq hitem hok)
    exact .inr (.inr ⟨_, _, _, _, hcopy, rfl⟩)

/-- A run that has come to an instruction makes a step. -/
theorem exists_next?_of_instruction? {r : Run} {i : Instruction} (hi : r.instruction? = some i) :
    ∃ outcome r', s.next? r = some (outcome, r') := by
  cases hnext : s.next? r with
  | none =>
    rw [Run.instruction?, next?_eq_none.1 hnext] at hi
    cases hi
  | some step => exact ⟨step.1, step.2, rfl⟩

/-- Only a push is merged with what is behind it. -/
theorem copy?_of_ne_push {i : Instruction} (h : i.operation ≠ .push) (item : Item) :
    s.copy? i item = none := by
  refine copy?_of_soleRegister?_eq_none ?_ item
  cases hsole : soleRegister? .push i with
  | none => rfl
  | some r => exact absurd (soleRegister?_eq_some.1 hsole).1 h

/-- An instruction that has statements and is not merged is lifted on its own. -/
theorem next?_of_single {r : Run} {taken : Taken} {i : Instruction} {statements : List Stmt}
    (hitem : r.item? = some taken) (hok : taken.item = .ok i)
    (hstatements : s.statements? i = some statements)
    (hsingle : ∀ next, taken.rest.next? = some next → s.copy? i next.item = none) :
    ∃ outcome r', s.next? r = some (outcome, r') ∧
      outcome.result = .ok ⟨i.address, i.length, statements⟩ ∧
      r'.progress = (s.execute i (r.progress.arrive i)).1 ∧ r'.Resumes taken.rest := by
  cases hnext : s.next? r with
  | none => simp [next?_eq_none.1 hnext] at hitem
  | some step =>
    obtain ⟨outcome, r'⟩ := step
    refine ⟨outcome, r', rfl, ?_⟩
    have hstep := step_of_next? hnext
    generalize hresult : outcome.result = result at hstep ⊢
    cases hstep with
    | undecodable hitem' herror =>
      cases hitem.symm.trans hitem'
      cases hok.symm.trans herror
    | unsupported hitem' hok' hnone =>
      cases hitem.symm.trans hitem'
      cases hok.symm.trans hok'
      cases hstatements.symm.trans hnone
    | lifted hitem' hok' hstatements' hprogress hrest =>
      cases hitem.symm.trans hitem'
      cases hok.symm.trans hok'
      cases hstatements.symm.trans hstatements'
      exact ⟨rfl, hprogress, hrest⟩
    | copied hitem' hok' hnext' hcopy =>
      cases hitem.symm.trans hitem'
      cases hok.symm.trans hok'
      cases (hsingle _ hnext').symm.trans hcopy

/-- Of a list of items, an instruction that pushes no register is lifted on its own. -/
theorem next?_start_items {p : Progress} {i : Instruction} {rest : List Item}
    {statements : List Stmt} (hpush : soleRegister? .push i = none)
    (hstatements : s.statements? i = some statements) :
    s.next? (.start p (.items (.ok i :: rest))) =
      some (⟨.ok ⟨i.address, i.length, statements⟩, (s.execute i (p.arrive i)).2⟩,
        .start (s.execute i (p.arrive i)).1 (.items rest)) := by
  have hstep : s.instructionStep i (p.arrive i) (.items rest) =
      s.singleStep i (p.arrive i) none (.items rest) := by
    simp only [instructionStep, hpush]
  change some (s.instructionStep i (p.arrive i) (.items rest)) = _
  rw [hstep, singleStep, single_of_some hstatements]
  rfl

/-- A push and the pop behind it that copy a register make one step. -/
theorem next?_of_copy? {r : Run} {taken next : Taken} {push pop : Instruction}
    {src dst : Register} (hitem : r.item? = some taken) (hok : taken.item = .ok push)
    (hnext : taken.rest.next? = some next) (hcopy : s.copy? push next.item = some (pop, src, dst)) :
    ∃ outcome r', s.next? r = some (outcome, r') ∧
      outcome.result = .ok (copyCluster push pop src dst) ∧
      r'.progress = (r.progress.arrive push).copy src dst ∧ r'.Resumes next.rest := by
  let events := taken.events ++ (next.events ++ [copyEvent push src dst])
  refine ⟨⟨.ok (copyCluster push pop src dst), events⟩,
    .start ((r.progress.arrive push).copy src dst) next.rest, ?_, rfl, rfl,
    Run.resumes_start _ _⟩
  unfold next? instructionStep pushStep
  simp only [hitem, hok, (copy?_eq_some.1 hcopy).2.1, hnext, hcopy]
  rfl

end Setting

end CodeLift.X86
