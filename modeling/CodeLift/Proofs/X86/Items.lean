-- SUMMARY: The items that a run has still to come, and what a step that fails leaves as it was.
import CodeLift.Proofs.X86.Steps

/-!
# Items of a run

`Run.pending` is the list of all items that a run has still to come, the one that has
been looked at included: looking ahead takes nothing away (`Run.Resumes.pending`).

A step that fails takes the one item that its error is about (`Step.pending_of_error`),
and leaves the rest of the run as it was: behind bytes that do not decode nothing at
all has changed, behind an instruction that cannot be lifted only the instruction
pointer, with the code segment register that follows it in real mode (`next?_failed`).
That its rewriting has changed nothing by then is `comesTo_rewrite`.
-/

namespace CodeLift.X86

/-! ## Feeds -/

/-- Taking an item off a feed leaves fewer. -/
theorem Feed.size_rest_lt {feed : Feed} {taken : Taken} (h : feed.next? = some taken) :
    taken.rest.size < feed.size := by
  cases feed with
  | items list =>
    cases list with
    | nil => cases h
    | cons item rest =>
      cases h
      exact Nat.lt_succ_self _
  | code mode reader =>
    simp only [next?] at h
    split at h
    · next hmore =>
      have hlt : reader.position < reader.limit := of_decide_eq_true hmore
      split at h
      · next i hdecode =>
        cases h
        have hpos : 0 < i.length := List.length_pos_iff.2 (decode_eq_ok hdecode).2.1
        simp only [size, Reader.remaining]
        omega
      · cases h
        simp only [size, Reader.remaining]
        omega
    · cases h

theorem Feed.take_of_next?_eq_none {feed : Feed} (h : feed.next? = none) (n : Nat) :
    feed.take n = ([], []) := by
  cases n with
  | zero => rfl
  | succ n => simp only [take, h]

theorem Feed.take_of_next? {feed : Feed} {taken : Taken} (h : feed.next? = some taken) (n : Nat) :
    (feed.take (n + 1)).1 = taken.item :: (taken.rest.take n).1 := by
  simp only [take, h]

/-- All items of a feed, in order. -/
def Feed.pending (feed : Feed) : List Item := (feed.take feed.size).1

/-- However many are asked for beyond the size, all items come. -/
theorem Feed.take_of_size_le {n : Nat} {feed : Feed} (h : feed.size ≤ n) :
    (feed.take n).1 = feed.pending := by
  suffices hsame : ∀ m, feed.size ≤ m → (feed.take n).1 = (feed.take m).1 from
    hsame _ (Nat.le_refl _)
  induction n generalizing feed with
  | zero =>
    intro m _
    have hend : feed.next? = none := by
      cases hnext : feed.next? with
      | none => rfl
      | some taken => exact absurd (size_rest_lt hnext) (by omega)
    rw [take_of_next?_eq_none hend, take_of_next?_eq_none hend]
  | succ n ih =>
    intro m hm
    cases hnext : feed.next? with
    | none => rw [take_of_next?_eq_none hnext, take_of_next?_eq_none hnext]
    | some taken =>
      have hlt := size_rest_lt hnext
      obtain ⟨m, rfl⟩ : ∃ k, m = k + 1 := ⟨m - 1, by omega⟩
      rw [take_of_next? hnext, take_of_next? hnext, ih (by omega) m (by omega)]

theorem Feed.pending_of_next? {feed : Feed} {taken : Taken} (h : feed.next? = some taken) :
    feed.pending = taken.item :: taken.rest.pending := by
  have hlt := size_rest_lt h
  rw [← take_of_size_le (Nat.le_refl feed.size), ← take_of_size_le (Nat.le_sub_one_of_lt hlt),
    ← take_of_next? h, Nat.sub_add_cancel (by omega)]

/-! ## Runs -/

/-- All items that a run has still to come to, in order. -/
def Run.pending (r : Run) : List Item := r.ahead.toList ++ r.feed.pending

theorem Run.pending_of_item? {r : Run} {taken : Taken} (h : r.item? = some taken) :
    r.pending = taken.item :: taken.rest.pending := by
  unfold item? at h
  unfold pending
  cases hahead : r.ahead with
  | some item =>
    rw [hahead] at h
    cases h
    rfl
  | none =>
    rw [hahead] at h
    exact Feed.pending_of_next? h

/-- A run that resumes a feed has its items to come, whether it has looked ahead or not. -/
theorem Run.Resumes.pending {r : Run} {feed : Feed} (h : r.Resumes feed) :
    r.pending = feed.pending := by
  rcases h with ⟨hahead, rfl⟩ | ⟨taken, hnext, hahead, hfeed⟩
  · simp [Run.pending, hahead]
  · simp [Run.pending, hahead, hfeed, Feed.pending_of_next? hnext]

/-! ## Steps that fail -/

/-- The item that an error is about. -/
def LiftError.item : LiftError → Item
  | .unsupported i => .ok i
  | .undecodable e => .error e

/-- A step that fails takes the item that its error is about, and no more. -/
theorem Setting.Step.pending_of_error {s : Setting} {r r' : Run} {e : LiftError}
    (h : s.Step r (.error e) r') : r.pending = e.item :: r'.pending := by
  cases h with
  | undecodable hitem herror _ hrest =>
    rw [Run.pending_of_item? hitem, herror, hrest.pending]
    rfl
  | unsupported hitem hok _ _ hrest =>
    rw [Run.pending_of_item? hitem, hok, hrest.pending]
    rfl

/-- From `p` to `q` nothing changes but the instruction pointer, which moves to `a`, and the code
segment register of the processor, which takes the selector of `a` if there is one. -/
structure Progress.Moved (a : Address) (p q : Progress) : Prop where
  frame : q.frame = p.frame
  frameDepth : q.frameDepth = p.frameDepth
  processor : q.state.processor = p.state.processor
  flag : ∀ g, q.state.flag g = p.state.flag g
  slot : ∀ offset, q.state.slot offset = p.state.slot offset
  depth : q.state.depth = p.state.depth
  pointer : q.state.pointer = some a
  register : ∀ r, p.state.processor.codeSegment ≠ some r ∨ a.selector? = none →
    q.state.register r = p.state.register r
  selector : ∀ r selector, p.state.processor.codeSegment = some r → a.selector? = some selector →
    q.state.register r = .ofNat r.bits selector.toNat

theorem Progress.moved_arrive (p : Progress) (i : Instruction) :
    Progress.Moved i.address p (p.arrive i) := by
  obtain ⟨registers, hstate⟩ := p.state_arrive_eq i
  refine ⟨rfl, rfl, ?_, ?_, ?_, ?_, ?_, ?_, ?_⟩
  · simp [hstate]
  · simp [hstate, State.flag]
  · simp [hstate, State.slot]
  · simp [hstate]
  · simp [hstate]
  · intro r hr
    change (p.state.setPointer i.address).register r = _
    unfold State.setPointer
    split
    · next cs selector hsegment hselector =>
      have hne : r ≠ cs := by
        rintro rfl
        rcases hr with hr | hr
        · exact hr hsegment
        · cases hselector.symm.trans hr
      exact Store.get_set_of_ne _ _ hne
    · rfl
  · intro r selector hsegment hselector
    change (p.state.setPointer i.address).register r = _
    simp [State.setPointer, hsegment, hselector, State.register]

/-- A step that fails takes one item off those to come and leaves the rest of the run as it was. Of
an instruction that cannot be lifted the instruction pointer has moved to it, and in real mode `cs`
holds its selector, while in protected mode all registers are as before; of bytes that do not
decode there is no trace. -/
theorem Setting.next?_failed {s : Setting} {r r' : Run} {outcome : Outcome}
    (hnext : s.next? r = some (outcome, r')) :
    (∀ i, outcome.result = .error (.unsupported i) →
      r.pending = .ok i :: r'.pending ∧ Progress.Moved i.address r.progress r'.progress ∧
        (∀ selector, r.progress.state.processor = processor .real16 →
          i.address.selector? = some selector →
            r'.progress.state.register cs = .known 16 selector.toNat) ∧
        (r.progress.state.processor = processor .protected32 →
          ∀ reg, r'.progress.state.register reg = r.progress.state.register reg)) ∧
    ∀ e, outcome.result = .error (.undecodable e) →
      r.pending = .error e :: r'.pending ∧ r'.progress = r.progress := by
  have hstep := step_of_next? hnext
  constructor
  · intro i hresult
    rw [hresult] at hstep
    refine ⟨hstep.pending_of_error, ?_⟩
    cases hstep with
    | unsupported hitem hok hstatements hprogress hrest =>
      have hmoved := r.progress.moved_arrive i
      rw [hprogress]
      refine ⟨hmoved, fun selector hprocessor hselector => ?_, fun hprocessor reg => ?_⟩
      · have hlow : selector.toNat % modulus (min cs.bits 128) = selector.toNat :=
          Nat.mod_eq_of_lt selector.toNat_lt
        rw [hmoved.selector cs selector (by rw [hprocessor]; rfl) hselector, Constant.ofNat, hlow]
        rfl
      · refine hmoved.register reg (.inl ?_)
        rw [hprocessor]
        exact (Option.some_ne_none reg).symm
  · intro e hresult
    rw [hresult] at hstep
    refine ⟨hstep.pending_of_error, ?_⟩
    cases hstep with
    | undecodable hitem herror hprogress hrest => exact hprogress

/-- A push of two registers, which no bytes spell, fails in front of a pop: the pop is still to
come, and of the progress only the place has changed. -/
theorem Setting.next?_failed_push_two :
    let s : Setting := ⟨.real16, .silent⟩
    let a : Address := ⟨.segment 0x1234, 0x10, by decide⟩
    let push : Instruction :=
      ⟨a, [0x50], "push", .push, [.register ax, .register cx], .sequential⟩
    let pop : Instruction := ⟨a.advance 1, [0x58], "pop", .pop, [.register ax], .sequential⟩
    let p : Progress := ⟨.initial (processor .real16) none, .empty 16, some 2⟩
    ∃ outcome r', s.next? (.start p (.items [.ok push, .ok pop])) = some (outcome, r') ∧
      outcome.result = .error (.unsupported push) ∧ r'.pending = [.ok pop] ∧
        r'.progress.frameDepth = some 2 ∧ r'.progress.state.register cs = .known 16 0x1234 := by
  intro s a push pop p
  obtain ⟨outcome, r', hnext, hresult⟩ : ∃ outcome r',
      s.next? (.start p (.items [.ok push, .ok pop])) = some (outcome, r') ∧
        outcome.result = .error (.unsupported push) := ⟨_, _, rfl, rfl⟩
  obtain ⟨hpending, hmoved, hcs, -⟩ := (next?_failed hnext).1 push hresult
  exact ⟨outcome, r', hnext, hresult, (List.cons.inj hpending).2.symm, hmoved.frameDepth,
    hcs 0x1234 rfl rfl⟩

end CodeLift.X86
