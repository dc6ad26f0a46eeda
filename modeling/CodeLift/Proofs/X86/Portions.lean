-- SUMMARY: The outcomes of a run divide its items into portions, told by the items alone.
import CodeLift.Proofs.X86.Items
import Mathlib.Data.List.Basic

/-!
# Portions of a feed

A run gives one outcome after another until its items are used up
(`Setting.leads_outcomes`). `Setting.portions` tells these outcomes from the list of
items, without a run: an item gives an outcome of its own, apart from a push and a pop
that make a register copy. It knows nothing of what is known about the processor, of the
frame, or of what has been looked at, so neither result nor warning of an outcome can
depend on them (`outcomes_eq_portions`, `outcomes_independent`).

The portions leave out no item and take none twice, and two neighbours share one exactly
if they are merged (`outcomes_partition`). In front of an item that is not merged with
the one before it the list can be divided (`portions_append`).
-/

namespace CodeLift.X86

/-! ## Warnings -/

/-- The warnings that the host hears of an outcome. -/
def Outcome.warnings (o : Outcome) : List (Address × String) := o.events.filterMap Event.warning?

/-- What the host sees of an outcome: the cluster or the error, and the warnings. -/
def Outcome.visible (o : Outcome) : Except LiftError Cluster × List (Address × String) :=
  (o.result, o.warnings)

theorem Feed.pending_of_next?_eq_none {feed : Feed} (h : feed.next? = none) :
    feed.pending = [] := by
  rw [pending, take_of_next?_eq_none h]

theorem Run.pending_of_item?_eq_none {r : Run} (h : r.item? = none) : r.pending = [] := by
  unfold item? at h
  unfold pending
  cases hahead : r.ahead with
  | some item => simp [hahead] at h
  | none =>
    rw [hahead] at h
    exact Feed.pending_of_next?_eq_none h

/-- Taking an item off a feed is no matter for the host. -/
theorem Feed.warnings_next? {feed : Feed} {taken : Taken} (h : feed.next? = some taken) :
    taken.events.filterMap Event.warning? = [] := by
  cases feed with
  | items list =>
    cases list with
    | nil => cases h
    | cons item rest =>
      cases h
      rfl
  | code mode reader =>
    simp only [next?] at h
    split at h
    · split at h
      · cases h
        rfl
      · cases h
        rfl
    · cases h

theorem Run.warnings_item? {r : Run} {taken : Taken} (h : r.item? = some taken) :
    taken.events.filterMap Event.warning? = [] := by
  unfold item? at h
  split at h
  · cases h
    rfl
  · exact Feed.warnings_next? h

namespace Setting

variable (s : Setting)

/-- The warning of a call that could go anywhere. -/
def callWarnings (i : Instruction) : List (Address × String) :=
  match i.operation, i.operands with
  | .call, [target] =>
    if (s.calleeSignature? target).isNone && (callSlot? s.mode target).isNone then
      [(i.address, "indirect call to unknown callee")]
    else []
  | _, _ => []

theorem warnings_afterCallEvents (site : CallSite) (signature : Option Signature) :
    (State.afterCallEvents site signature).filterMap Event.warning? = [] := by
  cases signature <;> rfl

theorem warnings_call {i : Instruction} (hoperation : i.operation = .call) (p : Progress) :
    (s.call i p).2.filterMap Event.warning? = s.callWarnings i := by
  unfold call callWarnings
  rw [hoperation]
  cases i.operands with
  | nil => rfl
  | cons target rest =>
    cases rest with
    | nil =>
      simp only [List.filterMap_append, warnings_afterCallEvents, List.append_nil]
      split <;> rfl
    | cons => rfl

/-- Whatever is known about the processor, an instruction gives the same warnings. -/
theorem warnings_execute (i : Instruction) (p : Progress) :
    (s.execute i p).2.filterMap Event.warning? = s.callWarnings i := by
  have hevents : (s.execute i p).2 = (s.perform i p).2 := by
    unfold execute
    cases written? i <;> rfl
  rw [hevents, perform]
  cases hoperation : i.operation with
  | call => exact s.warnings_call hoperation p
  | xor =>
    simp only [Progress.zero, callWarnings, hoperation]
    split <;> rfl
  | _ => simp only [callWarnings, hoperation, List.filterMap_nil]

/-! ## Portions -/

end Setting

/-- Items that share an outcome, and what the host sees of it. -/
structure Portion where
  items : List Item
  result : Except LiftError Cluster
  warnings : List (Address × String)

def Portion.visible (p : Portion) : Except LiftError Cluster × List (Address × String) :=
  (p.result, p.warnings)

namespace Setting

variable (s : Setting)

/-- The portion of an instruction on its own. -/
def alone (i : Instruction) : Portion :=
  match s.statements? i with
  | some statements => ⟨[.ok i], .ok ⟨i.address, i.length, statements⟩, s.callWarnings i⟩
  | none => ⟨[.ok i], .error (.unsupported i), []⟩

/-- The portions of a list of items. -/
def portions : List Item → List Portion
  | [] => []
  | .error e :: rest => ⟨[.error e], .error (.undecodable e), []⟩ :: portions rest
  | [.ok i] => [s.alone i]
  | .ok i :: next :: rest =>
    match s.copy? i next with
    | some (pop, src, dst) =>
      ⟨[.ok i, next], .ok (copyCluster i pop src dst), []⟩ :: portions rest
    | none => s.alone i :: portions (next :: rest)

variable {s}

theorem items_alone (i : Instruction) : (s.alone i).items = [.ok i] := by
  unfold alone
  split <;> rfl

theorem portions_of_copy? {push pop : Instruction} {next : Item} {src dst : Register}
    (h : s.copy? push next = some (pop, src, dst)) (rest : List Item) :
    s.portions (.ok push :: next :: rest) =
      ⟨[.ok push, next], .ok (copyCluster push pop src dst), []⟩ :: s.portions rest := by
  simp only [portions, h]

theorem portions_of_single {i : Instruction} {rest : List Item}
    (h : ∀ next ∈ rest.head?, s.copy? i next = none) :
    s.portions (.ok i :: rest) = s.alone i :: s.portions rest := by
  cases rest with
  | nil => simp only [portions]
  | cons next rest => simp only [portions, h next rfl]

/-! ## Steps -/

/-- An instruction on its own gives what its portion says, whatever the progress. -/
theorem visible_singleStep (i : Instruction) (p : Progress) (ahead : Option Item) (feed : Feed) :
    (s.singleStep i p ahead feed).1.visible = (s.alone i).visible := by
  unfold singleStep alone
  cases hstatements : s.statements? i with
  | none =>
    rw [single_of_none hstatements]
    rfl
  | some statements =>
    rw [single_of_some hstatements]
    simp only [Outcome.visible, Outcome.warnings, warnings_execute]
    rfl

/-- Events that the host does not hear make no difference to what it sees. -/
theorem visible_append {events : List Event} (h : events.filterMap Event.warning? = [])
    (o : Outcome) : Outcome.visible ⟨o.result, events ++ o.events⟩ = o.visible := by
  simp [Outcome.visible, Outcome.warnings, List.filterMap_append, h]

theorem portion_of_instructionStep (i : Instruction) (p : Progress) (feed : Feed) :
    ∃ portion, s.portions (.ok i :: feed.pending) =
        portion :: s.portions (s.instructionStep i p feed).2.pending ∧
      (s.instructionStep i p feed).1.visible = portion.visible := by
  unfold instructionStep
  split
  · unfold pushStep
    split
    · next hend =>
      have hpending : feed.pending = [] := Feed.pending_of_next?_eq_none hend
      refine ⟨s.alone i, portions_of_single ?_, visible_singleStep ..⟩
      simp [hpending]
    · next next hnext =>
      have hpending := Feed.pending_of_next? hnext
      split
      · next pop src dst hcopy =>
        refine ⟨_, by rw [hpending]; exact portions_of_copy? hcopy _, ?_⟩
        exact visible_append (Feed.warnings_next? hnext) ⟨_, [copyEvent i src dst]⟩
      · next hcopy =>
        refine ⟨s.alone i, ?_, ?_⟩
        · rw [hpending]
          exact portions_of_single fun _ hfirst => Option.some.inj hfirst ▸ hcopy
        · rw [visible_append (Feed.warnings_next? hnext), visible_singleStep]
  · next hpush =>
    refine ⟨s.alone i, portions_of_single fun next _ => ?_, visible_singleStep ..⟩
    exact copy?_of_soleRegister?_eq_none hpush next

/-- A step takes the first portion of the items, and leaves the others. -/
theorem portion_of_next? {r r' : Run} {outcome : Outcome} (h : s.next? r = some (outcome, r')) :
    ∃ portion, s.portions r.pending = portion :: s.portions r'.pending ∧
      outcome.visible = portion.visible := by
  unfold next? at h
  split at h
  · cases h
  · next taken hitem =>
    have hwarnings := Run.warnings_item? hitem
    rw [Run.pending_of_item? hitem]
    split at h
    · next e herror =>
      cases h
      rw [herror]
      refine ⟨⟨[.error e], .error (.undecodable e), []⟩, rfl, ?_⟩
      rw [Outcome.visible, Outcome.warnings, hwarnings]
      rfl
    · next i hok =>
      cases h
      rw [hok]
      obtain ⟨portion, hportions, hvisible⟩ :=
        portion_of_instructionStep i (r.progress.arrive i) taken.rest
      exact ⟨portion, hportions, (visible_append hwarnings _).trans hvisible⟩

/-! ## The items of portions -/

/-- The portions have all items, each once and in order. -/
theorem flatMap_items_portions (s : Setting) (items : List Item) :
    (s.portions items).flatMap Portion.items = items := by
  fun_induction s.portions items with
  | case1 => rfl
  | case2 e rest ih => rw [List.flatMap_cons, ih, List.singleton_append]
  | case3 i => rw [List.flatMap_cons, items_alone]; rfl
  | case4 i next rest pop src dst hcopy ih => rw [List.flatMap_cons, ih]; rfl
  | case5 i next rest hcopy ih => rw [List.flatMap_cons, ih, items_alone, List.singleton_append]

/-- The items are a push and a pop of registers of one width, the pop directly behind the push and
no jump target. -/
def Merges (s : Setting) (a b : Item) : Prop :=
  ∃ push pop src dst, a = .ok push ∧ b = .ok pop ∧
    push.operation = .push ∧ push.operands = [.register src] ∧
    pop.operation = .pop ∧ pop.operands = [.register dst] ∧
    dst.bits = src.bits ∧ pop.address.coincides push.next ∧ ¬ s.host.isJumpTarget pop.address

theorem merges_of_copy? {push pop : Instruction} {next : Item} {src dst : Register}
    (h : s.copy? push next = some (pop, src, dst)) : next = .ok pop ∧ s.Merges (.ok push) next := by
  obtain ⟨hnext, hpush, hpop, hmerge⟩ := copy?_eq_some.1 h
  obtain ⟨hoperation, hoperands⟩ := soleRegister?_eq_some.1 hpush
  obtain ⟨hoperation', hoperands'⟩ := soleRegister?_eq_some.1 hpop
  exact ⟨hnext, push, pop, src, dst, rfl, hnext, hoperation, hoperands, hoperation', hoperands',
    hmerge⟩

theorem Merges.copy? {push : Instruction} {next : Item} (h : s.Merges (.ok push) next) :
    ∃ pop src dst, s.copy? push next = some (pop, src, dst) := by
  obtain ⟨_, pop, src, dst, hfirst, hnext, hoperation, hoperands, hoperation', hoperands',
    hmerge⟩ := h
  cases hfirst
  have hpush := soleRegister?_eq_some.2 ⟨hoperation, hoperands⟩
  have hpop := soleRegister?_eq_some.2 ⟨hoperation', hoperands'⟩
  exact ⟨pop, src, dst, copy?_eq_some.2 ⟨hnext, hpush, hpop, hmerge⟩⟩

theorem copy?_of_not_merges {i : Instruction} {next : Item} (h : ¬ s.Merges (.ok i) next) :
    s.copy? i next = none := by
  cases hcopy : s.copy? i next with
  | none => rfl
  | some copy => exact absurd (merges_of_copy? hcopy).2 h

/-- What is merged with the item behind it is not merged with the one before it. -/
theorem Merges.not_merges {a b c : Item} (h : s.Merges b c) : ¬ s.Merges a b := by
  rintro ⟨_, pop, _, _, -, rfl, -, -, hpop, -⟩
  obtain ⟨push, _, _, _, heq, -, hpush, -⟩ := h
  cases heq
  cases hpop.symm.trans hpush

/-- What the items of a portion give: a decode error itself, an instruction a cluster of its address
and length or the error that says it has none, and two that are merged a cluster over both. -/
inductive Takes (s : Setting) : List Item → Except LiftError Cluster → Prop
  | undecodable (e : DecodeError) : Takes s [.error e] (.error (.undecodable e))
  | unsupported (i : Instruction) : Takes s [.ok i] (.error (.unsupported i))
  | lifted {i : Instruction} {c : Cluster} (haddress : c.address = i.address)
      (hlength : c.length = i.length) : Takes s [.ok i] (.ok c)
  | merged {push pop : Instruction} {c : Cluster} (hmerges : s.Merges (.ok push) (.ok pop))
      (haddress : c.address = push.address) (hlength : c.length = push.length + pop.length) :
      Takes s [.ok push, .ok pop] (.ok c)

theorem Takes.items_ne_nil {items : List Item} {result : Except LiftError Cluster}
    (h : s.Takes items result) : items ≠ [] := by
  cases h <;> exact List.cons_ne_nil _ _

theorem takes_alone (s : Setting) (i : Instruction) :
    s.Takes (s.alone i).items (s.alone i).result := by
  unfold alone
  split
  · exact .lifted rfl rfl
  · exact .unsupported i

theorem takes_portions (s : Setting) (items : List Item) :
    ∀ portion ∈ s.portions items, s.Takes portion.items portion.result := by
  fun_induction s.portions items with
  | case1 => exact List.forall_mem_nil _
  | case2 e rest ih => exact List.forall_mem_cons.2 ⟨.undecodable e, ih⟩
  | case3 i => exact List.forall_mem_cons.2 ⟨s.takes_alone i, List.forall_mem_nil _⟩
  | case4 i next rest pop src dst hcopy ih =>
    obtain ⟨rfl, hmerges⟩ := merges_of_copy? hcopy
    exact List.forall_mem_cons.2 ⟨.merged hmerges rfl rfl, ih⟩
  | case5 i next rest hcopy ih => exact List.forall_mem_cons.2 ⟨s.takes_alone i, ih⟩

/-- A list can be divided in front of an item that is not merged with the one before it. -/
theorem portions_append {first : Item} {before : List Item}
    (h : ∀ last ∈ before.getLast?, ¬ s.Merges last first) (rest : List Item) :
    s.portions (before ++ first :: rest) = s.portions before ++ s.portions (first :: rest) := by
  fun_induction s.portions before with
  | case1 => rfl
  | case2 e before ih =>
    rw [List.cons_append, portions, ih, List.cons_append]
    exact fun last hlast => h last (List.mem_getLast?_cons hlast)
  | case3 i =>
    have hsingle : ∀ next ∈ (first :: rest).head?, s.copy? i next = none :=
      fun _ hnext => Option.some.inj hnext ▸ copy?_of_not_merges (h (.ok i) rfl)
    exact portions_of_single hsingle
  | case4 i next before pop src dst hcopy ih =>
    rw [List.cons_append, List.cons_append, portions_of_copy? hcopy, ih, List.cons_append]
    exact fun last hlast => h last (List.mem_getLast?_cons (List.mem_getLast?_cons hlast))
  | case5 i next before hcopy ih =>
    have hsingle : ∀ next' ∈ (next :: before ++ first :: rest).head?, s.copy? i next' = none :=
      fun _ hnext => Option.some.inj hnext ▸ hcopy
    rw [List.cons_append, portions_of_single hsingle, ih, List.cons_append]
    exact fun last hlast => h last (List.mem_getLast?_cons hlast)

/-! ## Outcomes -/

/-- A step leaves fewer items. -/
theorem length_pending_lt {r r' : Run} {outcome : Outcome} (h : s.next? r = some (outcome, r')) :
    r'.pending.length < r.pending.length := by
  obtain ⟨portion, hportions, -⟩ := portion_of_next? h
  have hne : portion.items ≠ [] :=
    (s.takes_portions r.pending portion (by simp [hportions])).items_ne_nil
  have hitems := s.flatMap_items_portions r.pending
  rw [hportions, List.flatMap_cons, flatMap_items_portions] at hitems
  have hpos := List.length_pos_iff.2 hne
  rw [← hitems, List.length_append]
  omega

/-- The outcomes of a run, up to its end. -/
def outcomes (s : Setting) (r : Run) : List Outcome :=
  match _hnext : s.next? r with
  | none => []
  | some (outcome, rest) => outcome :: s.outcomes rest
termination_by r.pending.length
decreasing_by exact length_pending_lt _hnext

/-- The outcomes on the way from one run to another. -/
inductive Leads (s : Setting) : Run → List Outcome → Run → Prop
  | done (r : Run) : Leads s r [] r
  | step {r r' r'' : Run} {outcome : Outcome} {outcomes : List Outcome}
      (hnext : s.next? r = some (outcome, r')) (hrest : Leads s r' outcomes r'') :
      Leads s r (outcome :: outcomes) r''

/-- A run comes to an end. -/
theorem leads_outcomes (s : Setting) (r : Run) :
    ∃ final, s.Leads r (s.outcomes r) final ∧ s.next? final = none := by
  fun_induction s.outcomes r with
  | case1 r hnext => exact ⟨r, .done r, hnext⟩
  | case2 r outcome rest hnext ih =>
    obtain ⟨final, hleads, hend⟩ := ih
    exact ⟨final, .step hnext hleads, hend⟩

theorem outcomes_eq_portions (s : Setting) (r : Run) :
    (s.outcomes r).map Outcome.visible = (s.portions r.pending).map Portion.visible := by
  fun_induction s.outcomes r with
  | case1 r hnext => rw [Run.pending_of_item?_eq_none (next?_eq_none.1 hnext)]; rfl
  | case2 r outcome rest hnext ih =>
    obtain ⟨portion, hportions, hvisible⟩ := portion_of_next? hnext
    rw [hportions, List.map_cons, List.map_cons, ih, hvisible]

/-! ## Partition -/

/-- The portion stands behind the items `before`. -/
def StandsBehind (before : List Item) (portions : List Portion) (portion : Portion) : Prop :=
  ∃ front back, portions = front ++ portion :: back ∧ front.flatMap Portion.items = before

/-- What is behind a place where the list can be divided stands behind what is in front of it. -/
theorem standsBehind_portions {before rest : List Item} {first : Item} {portion : Portion}
    {back : List Portion} (h : ∀ last ∈ before.getLast?, ¬ s.Merges last first)
    (hfirst : s.portions (first :: rest) = portion :: back) :
    StandsBehind before (s.portions (before ++ first :: rest)) portion :=
  ⟨s.portions before, back, by rw [portions_append h, hfirst], s.flatMap_items_portions before⟩

/-- The first portion starts with the first item. -/
theorem exists_first_portion (s : Setting) (first : Item) (rest : List Item) :
    ∃ portion back, s.portions (first :: rest) = portion :: back ∧
      portion.items.head? = some first := by
  have hitems := s.flatMap_items_portions (first :: rest)
  cases hportions : s.portions (first :: rest) with
  | nil =>
    rw [hportions] at hitems
    cases hitems
  | cons portion back =>
    have hne := (s.takes_portions (first :: rest) portion (by simp [hportions])).items_ne_nil
    refine ⟨portion, back, rfl, ?_⟩
    rw [hportions, List.flatMap_cons] at hitems
    rw [← List.head?_append_of_ne_nil _ hne, hitems, List.head?_cons]

/-- A run comes to an end, and its outcomes divide the items into portions, with no item left out or
taken twice. A portion is one item with an outcome of its own, or two that are merged; and two
neighbours make a portion exactly if they are. So an instruction at a jump target is the first of
its portion. -/
theorem outcomes_partition (s : Setting) (r : Run) :
    ∃ final portions, s.Leads r (s.outcomes r) final ∧ s.next? final = none ∧
      (s.outcomes r).map Outcome.result = portions.map Portion.result ∧
      portions.flatMap Portion.items = r.pending ∧
      (∀ portion ∈ portions, s.Takes portion.items portion.result) ∧
      (∀ before a b after, r.pending = before ++ a :: b :: after →
        ((∃ portion, StandsBehind before portions portion ∧ portion.items = [a, b]) ↔
          s.Merges a b)) ∧
      ∀ before i after, r.pending = before ++ .ok i :: after → s.host.isJumpTarget i.address →
        ∃ portion, StandsBehind before portions portion ∧ portion.items.head? = some (.ok i) := by
  obtain ⟨final, hleads, hend⟩ := s.leads_outcomes r
  refine ⟨final, s.portions r.pending, hleads, hend, ?_, s.flatMap_items_portions r.pending,
    s.takes_portions r.pending, ?_, ?_⟩
  · have hvisible := congrArg (List.map Prod.fst) (s.outcomes_eq_portions r)
    rw [List.map_map, List.map_map] at hvisible
    exact hvisible
  · intro before a b after hpending
    constructor
    · rintro ⟨portion, ⟨front, back, hportions, -⟩, hitems⟩
      have htakes := s.takes_portions r.pending portion (by simp [hportions])
      generalize portion.result = result at htakes
      rw [hitems] at htakes
      cases htakes with
      | merged hmerges => exact hmerges
    · intro hmerges
      obtain ⟨push, -, -, -, rfl, -⟩ := id hmerges
      obtain ⟨pop, src, dst, hcopy⟩ := hmerges.copy?
      rw [hpending]
      have hshared := portions_of_copy? hcopy after
      exact ⟨_, standsBehind_portions (fun _ _ => hmerges.not_merges) hshared, rfl⟩
  · intro before i after hpending htarget
    obtain ⟨portion, back, hfirst, hhead⟩ := s.exists_first_portion (.ok i) after
    refine ⟨portion, ?_, hhead⟩
    rw [hpending]
    refine standsBehind_portions (fun _ _ => ?_) hfirst
    rintro ⟨_, _, _, _, -, heq, -, -, -, -, -, -, hfree⟩
    cases heq
    exact hfree htarget

/-- A copy, bytes that do not decode, and a push in front of a pop at a jump target: the copy is one
portion, and the second pop is the first item of its own. -/
theorem outcomes_partition_around_target :
    let place : Nat → Address := fun n => .wrapping (.segment 0x1000) n
    let s : Setting := ⟨.real16, { Host.silent with isJumpTarget := fun a => a == place 4 }⟩
    let push : Instruction := ⟨place 0, [0x50], "push", .push, [.register ax], .sequential⟩
    let pop : Instruction := ⟨place 1, [0x5B], "pop", .pop, [.register bx], .sequential⟩
    let push' : Instruction := ⟨place 3, [0x51], "push", .push, [.register cx], .sequential⟩
    let pop' : Instruction := ⟨place 4, [0x5A], "pop", .pop, [.register dx], .sequential⟩
    let items : List Item :=
      [.ok push, .ok pop, .error ⟨place 2, .unknownOpcode [0xF4]⟩, .ok push', .ok pop']
    let r : Run := .start ⟨.initial (processor .real16) none, .empty 16, none⟩ (.items items)
    ∃ portions : List Portion,
      (s.outcomes r).map Outcome.result = portions.map Portion.result ∧
      portions.flatMap Portion.items = items ∧
      (∃ portion, StandsBehind [] portions portion ∧ portion.items = [.ok push, .ok pop]) ∧
      (¬ ∃ portion, StandsBehind (items.take 3) portions portion ∧
        portion.items = [.ok push', .ok pop']) ∧
      ∃ portion, StandsBehind (items.take 4) portions portion ∧
        portion.items.head? = some (.ok pop') := by
  intro place s push pop push' pop' items r
  obtain ⟨final, portions, -, -, hresults, hitems, -, hshare, htarget⟩ := s.outcomes_partition r
  have hmerges : s.Merges (.ok push) (.ok pop) :=
    ⟨push, pop, ax, bx, rfl, rfl, rfl, rfl, rfl, rfl, rfl, by decide, by decide⟩
  have hreached : s.host.isJumpTarget pop'.address := by decide
  have hapart : ¬ s.Merges (.ok push') (.ok pop') := by
    rintro ⟨_, _, _, _, -, hpop, -, -, -, -, -, -, hfree⟩
    cases hpop
    exact hfree hreached
  exact ⟨portions, hresults, hitems, (hshare [] _ _ _ rfl).2 hmerges,
    fun hshared => hapart ((hshare (items.take 3) _ _ [] rfl).1 hshared),
    htarget (items.take 4) pop' [] rfl hreached⟩

/-! ## Independence -/

/-- Whatever is known about the processor, and whatever the frame has handed out, a run gives the
same clusters and errors, and the host hears the same warnings with each. -/
theorem outcomes_independent (s : Setting) (feed : Feed) (p q : Progress) :
    (s.outcomes (.start p feed)).map Outcome.visible =
      (s.outcomes (.start q feed)).map Outcome.visible :=
  calc (s.outcomes (.start p feed)).map Outcome.visible
      = (s.portions feed.pending).map Portion.visible := s.outcomes_eq_portions (.start p feed)
    _ = (s.outcomes (.start q feed)).map Outcome.visible :=
      (s.outcomes_eq_portions (.start q feed)).symm

end Setting

end CodeLift.X86
