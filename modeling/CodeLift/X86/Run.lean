-- SUMMARY: Lifting a feed of instructions, cluster by cluster.
import CodeLift.X86.Feed
import CodeLift.X86.Rewriter

/-!
# Runs

A run takes items off a feed and gives an outcome for each: a cluster, or an
error. Only one pair of items shares an outcome: a push of a register directly
before a pop of one of the same width is a register copy, unless control may
reach the pop from elsewhere. To tell, a run looks one item ahead, which takes
nothing away from the outcomes to come.

An instruction that cannot be lifted gives an error, with what its rewriting has
come to by then; so do bytes that do not decode, which nothing is done about.
-/

namespace CodeLift.X86

structure Outcome where
  result : Except LiftError Cluster
  events : List Event

structure Run where
  progress : Progress
  /-- The item that was looked at and not yet used. -/
  ahead : Option Item
  feed : Feed

namespace Run

/-- A run at the start of a feed. -/
def start (progress : Progress) (feed : Feed) : Run := ⟨progress, none, feed⟩

/-- The next item; its event is reported when it comes off the feed. -/
def item? (r : Run) : Option Taken :=
  match r.ahead with
  | some item => some ⟨item, [], r.feed⟩
  | none => r.feed.next?

/-- An upper bound on the number of items to come. -/
def size (r : Run) : Nat := r.ahead.toList.length + r.feed.size

end Run

/-! ## Register copies -/

/-- The register, if the instruction is this operation on one register. -/
def soleRegister? (operation : Operation) (i : Instruction) : Option Register :=
  match i.operands with
  | [.register r] => if i.operation = operation then some r else none
  | _ => none

/-- The progress past a register copy. -/
def Progress.copy (p : Progress) (src dst : Register) : Progress :=
  ((p.withState fun t => t.setRegister dst (t.register src)).withFrame fun f =>
    (f.addRegister src).addRegister dst).follow (.register dst) (some (.register src))

/-- The cluster of a register copy. -/
def copyCluster (push pop : Instruction) (src dst : Register) : Cluster :=
  ⟨push.address, push.length + pop.length, [.set (.register dst) (.register src)]⟩

/-- What is reported for a register copy. -/
def copyEvent (push : Instruction) (src dst : Register) : Event :=
  .debug .translator
    s!"{push.address.render}: push {src.name}; pop {dst.name} is a copy"

namespace Setting

variable (s : Setting)

/-- The pop, the source and the destination, if the item behind a push makes it a register
copy. -/
def copy? (push : Instruction) (follower : Item) : Option (Instruction × Register × Register) :=
  match soleRegister? .push push, follower with
  | some src, .ok pop =>
    match soleRegister? .pop pop with
    | some dst =>
      if dst.bits = src.bits ∧ pop.address.coincides push.next ∧ ¬ s.host.isJumpTarget pop.address
      then some (pop, src, dst)
      else none
    | none => none
  | _, _ => none

/-! ## Steps -/

/-- Lift one instruction on its own. -/
def single (i : Instruction) (p : Progress) : Outcome × Progress :=
  match (s.lift i).on ⟨p, [], []⟩ with
  | (.ok (), w) => (⟨.ok ⟨i.address, i.length, w.statements⟩, w.events⟩, w.progress)
  | (.error e, w) => (⟨.error e, w.events⟩, w.progress)

/-- Lift the instruction `i` on its own, in front of the given items. -/
def singleStep (i : Instruction) (p : Progress) (ahead : Option Item) (feed : Feed) :
    Outcome × Run :=
  let (outcome, after) := s.single i p
  (outcome, ⟨after, ahead, feed⟩)

/-- Lift the push `i` together with the pop behind it if they copy a register. -/
def pushStep (i : Instruction) (p : Progress) (feed : Feed) : Outcome × Run :=
  match feed.next? with
  | none => s.singleStep i p none feed
  | some next =>
    match s.copy? i next.item with
    | some (pop, src, dst) =>
      (⟨.ok (copyCluster i pop src dst), next.events ++ [copyEvent i src dst]⟩,
        .start (p.copy src dst) next.rest)
    | none =>
      let (outcome, run) := s.singleStep i p (some next.item) next.rest
      (⟨outcome.result, next.events ++ outcome.events⟩, run)

/-- Lift the instruction `i`, which has come off the feed. -/
def instructionStep (i : Instruction) (p : Progress) (feed : Feed) : Outcome × Run :=
  match soleRegister? .push i with
  | some _ => s.pushStep i p feed
  | none => s.singleStep i p none feed

/-- The next outcome of a run, and the run behind it. -/
def next? (r : Run) : Option (Outcome × Run) :=
  match r.item? with
  | none => none
  | some taken =>
    match taken.item with
    | .error e => some (⟨.error (.undecodable e), taken.events⟩, .start r.progress taken.rest)
    | .ok i =>
      let moved := r.progress.withState (·.setPointer i.address)
      let (outcome, after) := s.instructionStep i moved taken.rest
      some (⟨outcome.result, taken.events ++ outcome.events⟩, after)

end Setting

end CodeLift.X86
