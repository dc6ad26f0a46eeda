-- SUMMARY: The clusters of a lift cover the image from the entry on, without gaps and overlaps.
import CodeLift.Procedure
import CodeLift.Proofs.X86.Steps

/-!
# Lifts tile the image

`Covers` says what a cluster stands for at a position of an image. A run that is
`At` a position gives a cluster that covers bytes from there on, and is then at
the position behind them, also where it has looked ahead or passed over bytes
that do not decode. By induction the clusters of a lift tile the image, and a
lift that nothing stops reaches its end.
-/

namespace CodeLift

open X86 (Feed Item LiftError Mode Run Setting Taken copyCluster decode decode_eq_ok)

/-! ## Items of an image -/

/-- The instruction at a position, or why the bytes from there on spell none. -/
def Image.item (m : Image) (mode : Mode) (position : Nat) : Item :=
  decode mode (m.addressAt position) (m.bytes.drop position)

/-- The bytes from one item to the next. -/
def X86.stride : Item → Nat
  | .ok i => i.length
  | .error _ => 1

namespace Image

variable {m : Image} {mode : Mode} {position : Nat}

theorem address_of_item {i : Instruction} (h : m.item mode position = .ok i) :
    i.address = m.addressAt position := (decode_eq_ok h).1

theorem length_of_item {i : Instruction} (h : m.item mode position = .ok i) :
    0 < i.length ∧ position + i.length ≤ m.size := by
  obtain ⟨_, hne, hprefix, _⟩ := decode_eq_ok h
  have hpos : 0 < i.length := List.length_pos_iff.2 hne
  have hle : i.length ≤ m.bytes.length - position := by
    calc i.length ≤ ((m.bytes.drop position).take X86.maxLength).length := hprefix.length_le
      _ ≤ (m.bytes.drop position).length := List.length_take_le' _ _
      _ = m.bytes.length - position := List.length_drop
  exact ⟨hpos, by unfold size; omega⟩

theorem address_of_item_error {e : DecodeError} (h : m.item mode position = .error e) :
    e.address = m.addressAt position := by
  unfold item decode at h
  split at h
  · cases h
  · cases h
    rfl

end Image

/-! ## Clusters -/

/-- What a cluster stands for at a position of an image. -/
inductive Covers (s : Setting) (m : Image) (position : Nat) : Cluster → Prop
  | instruction {i : Instruction} {statements : List Stmt}
      (hitem : m.item s.mode position = .ok i) (hstatements : s.statements? i = some statements) :
      Covers s m position ⟨i.address, i.length, statements⟩
  | copy {push pop : Instruction} {src dst : Register}
      (hpush : m.item s.mode position = .ok push)
      (hpop : m.item s.mode (position + push.length) = .ok pop)
      (hcopy : s.copy? push (.ok pop) = some (pop, src, dst)) :
      Covers s m position (copyCluster push pop src dst)
  | unsupported {i : Instruction} (hitem : m.item s.mode position = .ok i)
      (hstatements : s.statements? i = none) :
      Covers s m position ⟨i.address, i.length, [.invalid]⟩
  | undecodable {e : DecodeError} (hitem : m.item s.mode position = .error e) :
      Covers s m position ⟨e.address, 1, [.invalid]⟩

namespace Covers

variable {s : Setting} {m : Image} {position : Nat} {c : Cluster}

theorem address (h : Covers s m position c) : c.address = m.addressAt position := by
  cases h with
  | instruction hitem => exact Image.address_of_item hitem
  | copy hpush => exact Image.address_of_item hpush
  | unsupported hitem => exact Image.address_of_item hitem
  | undecodable hitem => exact Image.address_of_item_error hitem

theorem length (h : Covers s m position c) (hlt : position < m.size) :
    0 < c.length ∧ position + c.length ≤ m.size := by
  cases h with
  | instruction hitem => exact Image.length_of_item hitem
  | @copy push pop src dst hpush hpop =>
    obtain ⟨hpos, _⟩ := Image.length_of_item hpush
    obtain ⟨_, hle⟩ := Image.length_of_item hpop
    simp only [copyCluster]
    omega
  | unsupported hitem => exact Image.length_of_item hitem
  | undecodable => exact ⟨Nat.one_pos, hlt⟩

theorem next (h : Covers s m position c) : c.next = m.addressAt (position + c.length) := by
  rw [Cluster.next, h.address, Image.addressAt, Address.advance_advance]
  rfl

end Covers

/-! ## Feeds and runs at a position -/

/-- The feed reads the image from a position on. -/
def X86.Feed.At (m : Image) (mode : Mode) (position : Nat) (feed : Feed) : Prop :=
  ∃ first order, feed = .code mode ⟨m, first, position, m.size, order⟩

/-- The next item of the run is the one at a position of the image. -/
def X86.Run.At (m : Image) (mode : Mode) (position : Nat) (r : Run) : Prop :=
  ∃ feed, r.Resumes feed ∧ feed.At m mode position

section

variable {m : Image} {mode : Mode} {position : Nat} {feed : Feed} {r : Run}

theorem X86.Feed.At.next?_eq_none (h : feed.At m mode position) (hend : m.size ≤ position) :
    feed.next? = none := by
  obtain ⟨first, order, rfl⟩ := h
  simp [Feed.next?, Reader.hasMore, Nat.not_lt.2 hend]

theorem X86.Feed.At.next? (h : feed.At m mode position) (hlt : position < m.size) :
    ∃ taken, feed.next? = some taken ∧ taken.item = m.item mode position ∧
      taken.rest.At m mode (position + X86.stride taken.item) := by
  obtain ⟨first, order, rfl⟩ := h
  have hread : decode mode (Reader.address ⟨m, first, position, m.size, order⟩)
      (Reader.peek ⟨m, first, position, m.size, order⟩ X86.maxLength) = m.item mode position := by
    have hpeek : Reader.peek ⟨m, first, position, m.size, order⟩ X86.maxLength =
        (m.bytes.drop position).take X86.maxLength := by
      simp [Reader.peek, Reader.remaining, List.take_eq_take_iff, Image.size]
    rw [hpeek, X86.decode_take (Nat.le_refl _)]
    rfl
  simp only [Feed.next?, Reader.hasMore, hlt, decide_true, if_true, hread]
  cases m.item mode position with
  | ok i => exact ⟨_, rfl, rfl, first, order, rfl⟩
  | error e => exact ⟨_, rfl, rfl, first, order, rfl⟩

/-- What a feed gives at a position is what the image has there. -/
theorem X86.Feed.At.of_next? {taken : Taken} (h : feed.At m mode position)
    (hnext : feed.next? = some taken) :
    taken.item = m.item mode position ∧
      taken.rest.At m mode (position + X86.stride taken.item) := by
  have hlt : position < m.size := Nat.lt_of_not_le fun hend => by
    rw [h.next?_eq_none hend] at hnext
    cases hnext
  obtain ⟨first, hfirst, hitem, hrest⟩ := h.next? hlt
  cases hfirst.symm.trans hnext
  exact ⟨hitem, hrest⟩

theorem X86.Run.At.item?_eq_none (h : r.At m mode position) (hend : m.size ≤ position) :
    r.item? = none := by
  obtain ⟨feed, hresumes, hat⟩ := h
  simpa [hat.next?_eq_none hend] using hresumes.item?

theorem X86.Run.At.item? (h : r.At m mode position) (hlt : position < m.size) :
    ∃ taken, r.item? = some taken ∧ taken.item = m.item mode position ∧
      taken.rest.At m mode (position + X86.stride taken.item) := by
  obtain ⟨feed, hresumes, hat⟩ := h
  obtain ⟨taken, hnext, hitem, hrest⟩ := hat.next? hlt
  obtain ⟨taken', htaken', heq⟩ :=
    Option.map_eq_some_iff.1 (hresumes.item?.trans (by simp [hnext]; rfl))
  obtain ⟨hitem', hrest'⟩ := Prod.mk.inj heq
  exact ⟨taken', htaken', hitem'.trans hitem, by rw [hitem', hrest']; exact hrest⟩

end

/-! ## Steps -/

/-- The cluster of a step where what cannot be lifted leaves an invalid one. -/
def X86.clusterOf : Except LiftError Cluster → Cluster
  | .ok c => c
  | .error e => e.cluster

/-- A step at a position gives a cluster that covers bytes from there on, and moves behind them. -/
theorem X86.Setting.Step.covers {s : Setting} {m : Image} {position : Nat} {r r' : Run}
    {result : Except LiftError Cluster} (h : s.Step r result r') (hat : r.At m s.mode position)
    (hlt : position < m.size) :
    Covers s m position (X86.clusterOf result) ∧
      r'.At m s.mode (position + (X86.clusterOf result).length) := by
  obtain ⟨_, hfirst, hread, hbehind⟩ := hat.item? hlt
  cases h with
  | undecodable hitem herror hprogress hrest =>
    cases hfirst.symm.trans hitem
    rw [herror] at hread hbehind
    exact ⟨.undecodable hread.symm, _, hrest, hbehind⟩
  | unsupported hitem hok hstatements hprogress hrest =>
    cases hfirst.symm.trans hitem
    rw [hok] at hread hbehind
    exact ⟨.unsupported hread.symm hstatements, _, hrest, hbehind⟩
  | lifted hitem hok hstatements hprogress hrest =>
    cases hfirst.symm.trans hitem
    rw [hok] at hread hbehind
    exact ⟨.instruction hread.symm hstatements, _, hrest, hbehind⟩
  | @copied _ next push pop src dst _ hitem hok hnext hcopy hprogress hrest =>
    cases hfirst.symm.trans hitem
    rw [hok] at hread hbehind
    have hpop : next.item = .ok pop := (X86.Setting.copy?_eq_some.1 hcopy).1
    obtain ⟨hread', hbehind'⟩ := hbehind.of_next? hnext
    rw [hpop] at hread' hbehind' hcopy
    refine ⟨.copy hread.symm hread'.symm hcopy, _, hrest, ?_⟩
    simpa only [X86.clusterOf, copyCluster, X86.stride, Nat.add_assoc] using hbehind'

/-! ## Tilings -/

/-- The number of bytes that clusters cover together. -/
def extent : List Cluster → Nat
  | [] => 0
  | c :: rest => c.length + extent rest

theorem extent_take_succ {clusters : List Cluster} {i : Nat} {c : Cluster}
    (h : clusters[i]? = some c) :
    extent (clusters.take (i + 1)) = extent (clusters.take i) + c.length := by
  induction clusters generalizing i with
  | nil => cases h
  | cons d rest ih =>
    cases i with
    | zero =>
      cases h
      simp [extent]
    | succ i =>
      have hrest := ih (i := i) h
      simp only [List.take_succ_cons, extent, hrest]
      omega

/-- The clusters cover the image from `start` to `stop`, each where the one before it ends. -/
def Tiles (s : Setting) (m : Image) : Nat → List Cluster → Nat → Prop
  | start, [], stop => start = stop
  | start, c :: rest, stop =>
    start < m.size ∧ Covers s m start c ∧ Tiles s m (start + c.length) rest stop

namespace Tiles

variable {s : Setting} {m : Image} {start stop : Nat} {clusters : List Cluster}

theorem stop_eq (h : Tiles s m start clusters stop) : stop = start + extent clusters := by
  induction clusters generalizing start with
  | nil => exact h.symm
  | cons c rest ih =>
    rw [ih h.2.2, extent]
    omega

theorem covers (h : Tiles s m start clusters stop) {i : Nat} {c : Cluster}
    (hc : clusters[i]? = some c) :
    start + extent (clusters.take i) < m.size ∧
      Covers s m (start + extent (clusters.take i)) c := by
  induction clusters generalizing start i with
  | nil => cases hc
  | cons d rest ih =>
    cases i with
    | zero =>
      cases hc
      exact ⟨h.1, h.2.1⟩
    | succ i => simpa [extent, Nat.add_assoc] using ih h.2.2 hc

theorem next_eq (h : Tiles s m start clusters stop) {i : Nat} {c next : Cluster}
    (hc : clusters[i]? = some c) (hnext : clusters[i + 1]? = some next) :
    c.next = next.address := by
  rw [(h.covers hc).2.next, (h.covers hnext).2.address, extent_take_succ hc, Nat.add_assoc]

end Tiles

/-! ## Lifts -/

theorem LiftConfig.accept_markPartial {config : LiftConfig} (h : config.policy = .markPartial)
    (outcome : X86.Outcome) :
    ∃ events, config.accept outcome = (.ok (X86.clusterOf outcome.result), events) := by
  obtain ⟨result, events⟩ := outcome
  unfold accept
  cases result with
  | ok c => exact ⟨_, rfl⟩
  | error e =>
    rw [h]
    exact ⟨_, rfl⟩

/-- A run at a position gives clusters that tile the image from there on, and all of the image
if nothing stops it. -/
theorem LiftConfig.collect_tiles {config : LiftConfig} (hpolicy : config.policy = .markPartial)
    {s : Setting} {m : Image} (n : Nat) {position : Nat} {r : Run} (hat : r.At m s.mode position)
    (hle : position ≤ m.size) :
    ∃ clusters progress events stop,
      config.collect s n r = (.ok (clusters, progress), events) ∧
        Tiles s m position clusters stop ∧
        (config.stops = false → m.size - position ≤ n → stop = m.size) := by
  induction n generalizing position r with
  | zero => exact ⟨[], r.progress, [], position, rfl, rfl, by omega⟩
  | succ n ih =>
    cases hnext : s.next? r with
    | none =>
      have hend : position = m.size := by
        refine Nat.le_antisymm hle (Nat.le_of_not_lt fun hlt => ?_)
        obtain ⟨taken, hitem, _⟩ := hat.item? hlt
        rw [X86.Setting.next?_eq_none.1 hnext] at hitem
        cases hitem
      exact ⟨[], r.progress, [], position, by simp [collect, hnext], rfl, fun _ _ => hend⟩
    | some step =>
      obtain ⟨outcome, r'⟩ := step
      have hlt : position < m.size := by
        refine Nat.lt_of_not_le fun hend => ?_
        rw [X86.Setting.next?_eq_none.2 (hat.item?_eq_none hend)] at hnext
        cases hnext
      obtain ⟨hcovers, hat'⟩ := (X86.Setting.step_of_next? hnext).covers hat hlt
      obtain ⟨hpos, hfits⟩ := hcovers.length hlt
      obtain ⟨events, haccept⟩ := accept_markPartial hpolicy outcome
      cases hstop : config.stops && (X86.clusterOf outcome.result).leaves with
      | true =>
        refine ⟨[X86.clusterOf outcome.result], r'.progress, events, _, ?_, ⟨hlt, hcovers, rfl⟩, ?_⟩
        · simp [collect, hnext, haccept, hstop]
        · intro hfree
          simp [hfree] at hstop
      | false =>
        obtain ⟨clusters, progress, more, stop, hcollect, htiles, hall⟩ := ih hat' hfits
        refine ⟨X86.clusterOf outcome.result :: clusters, progress, events ++ more, stop, ?_,
          ⟨hlt, hcovers, htiles⟩, fun hfree hn => hall hfree (by omega)⟩
        simp [collect, hnext, haccept, hstop, hcollect, Except.map]

/-- The run that a lift starts with, in front of a position of the image. -/
def Architecture.entryRun (a : Architecture) (m : Image) (entry : Address) (position : Nat) : Run :=
  .start (a.atEntry entry) (.code a.mode ⟨m, 0, position, m.size, a.processor.order⟩)

theorem Architecture.at_entryRun (a : Architecture) (m : Image) (entry : Address)
    (position : Nat) : (a.entryRun m entry position).At m a.mode position :=
  ⟨_, Run.resumes_start _ _, 0, _, rfl⟩

/-- With full support and a mapped entry, a lift makes a procedure of what its run gives. -/
theorem Architecture.lift_eq_ok {a : Architecture} (hfull : a.support = .full) {m : Image}
    {entry : Address} {host : Host} {config : LiftConfig} {position : Nat}
    {clusters : List Cluster} {progress : X86.Progress} {events : List Event}
    (hentry : m.position? entry = some position)
    (hcollect : config.collect ⟨a.mode, host⟩ config.limit (a.entryRun m entry position) =
      (.ok (clusters, progress), events)) :
    ∃ events', a.lift m entry host config =
      (.ok (a.finish entry clusters progress).1, events') := by
  have hreader : a.reader m entry = .ok ⟨m, 0, position, m.size, a.processor.order⟩ := by
    simp [reader, Reader.startingAt, hentry]
  unfold entryRun at hcollect
  simp [lift, decodes, isFull, hfull, hreader, liftFrom, hcollect]

/-- A lift that marks what it cannot lift succeeds on every mapped entry. Its clusters tile the
image: each starts where the one before it ends, none is empty, none runs past the end, and a
lift that nothing stops covers every byte from the entry on. -/
theorem Architecture.lift_tiles (mode : Mode) (kept : Options) (m : Image) (entry : Address)
    (host : Host) (config : LiftConfig) {o : Nat} (hentry : m.position? entry = some o)
    (hpolicy : config.policy = .markPartial) :
    ∃ p events, Architecture.lift ⟨mode, .full, kept⟩ m entry host config = (.ok p, events) ∧
      (∀ i c, p.clusters[i]? = some c →
        let here := o + extent (p.clusters.take i)
        c.address = m.base.advance here ∧ c.address.space = m.base.space ∧
          0 < c.length ∧ here + c.length ≤ m.size ∧ Covers ⟨mode, host⟩ m here c ∧
          ∀ next, p.clusters[i + 1]? = some next → c.next = next.address) ∧
      (config.stops = false → m.size - o ≤ config.limit → extent p.clusters = m.size - o) := by
  let a : Architecture := ⟨mode, .full, kept⟩
  have ho : o ≤ m.size := Image.le_size_of_position? hentry
  obtain ⟨clusters, progress, events, stop, hcollect, htiles, hall⟩ :=
    LiftConfig.collect_tiles hpolicy (s := ⟨mode, host⟩) config.limit (a.at_entryRun m entry o) ho
  obtain ⟨events', hlift⟩ := Architecture.lift_eq_ok (a := a) rfl hentry hcollect
  refine ⟨_, events', hlift, ?_, ?_⟩
  · intro i c hc here
    obtain ⟨hlt, hcovers⟩ := htiles.covers hc
    obtain ⟨hpos, hfits⟩ := hcovers.length hlt
    have hspace : c.address.space = m.base.space := by
      rw [hcovers.address]
      rfl
    exact ⟨hcovers.address, hspace, hpos, hfits, hcovers, fun _ hnext => htiles.next_eq hc hnext⟩
  · intro hfree hn
    have hstop : stop = o + extent clusters := htiles.stop_eq
    have hsize := hall hfree hn
    change extent clusters = m.size - o
    omega

/-- A copy, an undecodable byte, an instruction that cannot be lifted and a return, from the last
two offsets of a segment around to its first ones. -/
theorem Architecture.lift_tiles_around_segment :
    let m : Image :=
      ⟨⟨.segment 0xFFFF, 0xFFFD, by decide⟩, [0x90, 0x0E, 0x1F, 0xF4, 0x31, 0xD8, 0xC3]⟩
    let config : LiftConfig := ⟨10, .markPartial, false⟩
    m.position? (m.addressAt 1) = some 1 ∧ config.policy = .markPartial ∧
      ∃ p events,
        Architecture.lift ⟨.real16, .full, []⟩ m (m.addressAt 1) .silent config = (.ok p, events) ∧
          extent p.clusters = 6 := by
  intro m config
  have hentry : m.position? (m.addressAt 1) = some 1 := by decide
  obtain ⟨p, events, hlift, _, hall⟩ := lift_tiles .real16 [] m _ .silent config hentry rfl
  exact ⟨hentry, rfl, p, events, hlift, hall rfl (by decide)⟩

end CodeLift
