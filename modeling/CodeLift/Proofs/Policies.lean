-- SUMMARY: Lifts that abort and lifts that leave invalid clusters agree.
import CodeLift.Proofs.Tiling
import CodeLift.Proofs.X86.Coverage
import CodeLift.Proofs.X86.Portions

/-!
# The two policies

A lift that marks what it cannot lift always ends, and its clusters tell how a lift that
aborts would have: with the same procedure if none of them is invalid, else with the
error that the first invalid one stands for (`LiftConfig.collect_abort`).

Its host hears one warning for every invalid cluster, and besides only of calls that
could go anywhere (`LiftConfig.told_collect`). `Architecture.lift_policies_agree` says
both of lifts.
-/

namespace CodeLift

open X86 (LiftError Mode Outcome Progress Run Setting)

/-! ## Clusters that are invalid -/

theorem X86.LiftError.leaves_cluster (e : LiftError) : e.cluster.leaves = false := rfl

/-- What the host hears of a cluster: of an invalid one the error that it stands for, of a valid one
nothing, or that it calls an unknown procedure. -/
inductive Cluster.Tells : Cluster → List (Address × String) → Prop
  | invalid (e : LiftError) : Tells e.cluster [(e.address, e.message)]
  | silent {c : Cluster} (hvalid : c.isInvalid = false) : Tells c []
  | call {c : Cluster} {target : Expr} {size : Nat} (hcall : c.statements = [.call target size]) :
      Tells c [(c.address, "indirect call to unknown callee")]

/-- What the host hears of a result before it is accepted. -/
inductive X86.Outcome.Tells : Except LiftError Cluster → List (Address × String) → Prop
  | error (e : LiftError) : Tells (.error e) []
  | ok {c : Cluster} {told : List (Address × String)} (hvalid : c.isInvalid = false)
      (htold : c.Tells told) : Tells (.ok c) told

theorem X86.Outcome.Tells.of_ok {c : Cluster} {told : List (Address × String)}
    (h : Tells (.ok c) told) : c.isInvalid = false ∧ c.Tells told := by
  cases h with
  | ok hvalid htold => exact ⟨hvalid, htold⟩

theorem X86.Outcome.Tells.of_error {e : LiftError} {told : List (Address × String)}
    (h : Tells (.error e) told) : told = [] := by
  cases h
  rfl

theorem isInvalid_of_not_mem {c : Cluster} (h : .invalid ∉ c.statements) : c.isInvalid = false := by
  refine List.any_eq_false.2 fun statement hmem hinvalid => h ?_
  rwa [← beq_iff_eq.1 hinvalid]

namespace X86.Setting

variable {s : Setting}

/-- Of the instructions that are lifted only a call tells the host anything. -/
theorem tells_callWarnings {i : Instruction} {statements : List Stmt}
    (h : s.statements? i = some statements) :
    Cluster.Tells ⟨i.address, i.length, statements⟩ (s.callWarnings i) := by
  have hvalid : Cluster.isInvalid ⟨i.address, i.length, statements⟩ = false :=
    isInvalid_of_not_mem (proper_of_statements? h).2
  unfold callWarnings
  split
  · next target hoperation hoperands =>
    rw [statements?, hoperation, hoperands, callStatements?] at h
    obtain rfl := Option.some.inj h
    by_cases hunknown : (s.calleeSignature? target).isNone && (callSlot? s.mode target).isNone
    · rw [if_pos hunknown]
      exact .call rfl
    · rw [if_neg hunknown]
      exact .silent hvalid
  · exact .silent hvalid

theorem tells_alone (s : Setting) (i : Instruction) :
    Outcome.Tells (s.alone i).result (s.alone i).warnings := by
  unfold alone
  split
  · next hstatements =>
    exact .ok (isInvalid_of_not_mem (proper_of_statements? hstatements).2)
      (tells_callWarnings hstatements)
  · exact .error _

theorem tells_portions (s : Setting) (items : List X86.Item) :
    ∀ portion ∈ s.portions items, Outcome.Tells portion.result portion.warnings := by
  fun_induction s.portions items with
  | case1 => exact List.forall_mem_nil _
  | case2 e rest ih => exact List.forall_mem_cons.2 ⟨.error _, ih⟩
  | case3 i => exact List.forall_mem_cons.2 ⟨s.tells_alone i, List.forall_mem_nil _⟩
  | case4 i next rest pop src dst hcopy ih =>
    exact List.forall_mem_cons.2 ⟨.ok rfl (.silent rfl), ih⟩
  | case5 i next rest hcopy ih => exact List.forall_mem_cons.2 ⟨s.tells_alone i, ih⟩

/-- What comes of a step is valid, or an error of which the host has heard nothing yet. -/
theorem tells_of_next? {r r' : Run} {outcome : Outcome} (h : s.next? r = some (outcome, r')) :
    Outcome.Tells outcome.result outcome.warnings := by
  obtain ⟨portion, hportions, hvisible⟩ := portion_of_next? h
  obtain ⟨hresult, hwarnings⟩ := Prod.mk.inj hvisible
  rw [hresult, hwarnings]
  exact s.tells_portions r.pending portion (by simp [hportions])

end X86.Setting

/-! ## Collecting -/

namespace LiftConfig

/-- The same limits under a policy. -/
def under (config : LiftConfig) (policy : Policy) : LiftConfig := { config with policy := policy }

variable {config : LiftConfig} {s : Setting} {n : Nat} {r r' : Run} {outcome : Outcome}

section

variable {c : Cluster} {e : LiftError} {clusters : List Cluster} {progress : Progress}
  {events more : List Event}

theorem collect_end (h : s.next? r = none) :
    config.collect s (n + 1) r = (.ok ([], r.progress), []) := by
  simp only [collect, h]

theorem collect_error (h : s.next? r = some (outcome, r'))
    (haccept : config.accept outcome = (.error e, events)) :
    config.collect s (n + 1) r = (.error e, events) := by
  simp only [collect, h, haccept]

variable (h : s.next? r = some (outcome, r')) (haccept : config.accept outcome = (.ok c, events))

include h haccept

theorem collect_stop (hstop : (config.stops && c.leaves) = true) :
    config.collect s (n + 1) r = (.ok ([c], r'.progress), events) := by
  simp only [collect, h, haccept, hstop, if_true]

theorem collect_cons (hgo : (config.stops && c.leaves) = false)
    (hrest : config.collect s n r' = (.ok (clusters, progress), more)) :
    config.collect s (n + 1) r = (.ok (c :: clusters, progress), events ++ more) := by
  simp only [collect, h, haccept, hgo, hrest, Except.map, Bool.false_eq_true, if_false]

theorem collect_cons_error (hgo : (config.stops && c.leaves) = false)
    (hrest : config.collect s n r' = (.error e, more)) :
    config.collect s (n + 1) r = (.error e, events ++ more) := by
  simp only [collect, h, haccept, hgo, hrest, Except.map, Bool.false_eq_true, if_false]

end

theorem accept_ok {c : Cluster} (h : outcome.result = .ok c) :
    config.accept outcome = (.ok c, outcome.events) := by
  simp only [accept, h]

theorem accept_marked {e : LiftError} (h : outcome.result = .error e) :
    (config.under .markPartial).accept outcome =
      (.ok e.cluster, outcome.events ++ [.warned e.address e.message]) := by
  simp only [accept, h, under]

theorem accept_abort {e : LiftError} (h : outcome.result = .error e) :
    (config.under .abort).accept outcome = (.error e, outcome.events) := by
  simp only [accept, h, under]

/-- What is accepted from a step tells the host what it tells. -/
theorem accept_tells (h : Outcome.Tells outcome.result outcome.warnings) :
    ∃ c events, (config.under .markPartial).accept outcome = (.ok c, events) ∧
      c.Tells (events.filterMap Event.warning?) := by
  cases hresult : outcome.result with
  | ok c =>
    rw [hresult] at h
    exact ⟨c, outcome.events, accept_ok hresult, h.of_ok.2⟩
  | error e =>
    rw [hresult] at h
    have hsilent : outcome.events.filterMap Event.warning? = [] := h.of_error
    refine ⟨e.cluster, _, accept_marked hresult, ?_⟩
    rw [List.filterMap_append, hsilent]
    exact .invalid e

/-- A run that marks what it cannot lift ends with clusters, and the host hears what they tell. -/
theorem told_collect (config : LiftConfig) (s : Setting) (n : Nat) (r : Run) :
    ∃ clusters progress events told,
      (config.under .markPartial).collect s n r = (.ok (clusters, progress), events) ∧
      events.filterMap Event.warning? = told.flatten ∧
      List.Forall₂ Cluster.Tells clusters told := by
  induction n generalizing r with
  | zero => exact ⟨[], r.progress, [], [], rfl, rfl, .nil⟩
  | succ n ih =>
    cases hnext : s.next? r with
    | none => exact ⟨[], r.progress, [], [], collect_end hnext, rfl, .nil⟩
    | some step =>
      obtain ⟨outcome, r'⟩ := step
      obtain ⟨clusters, progress, more, told, hcollect, hmore, htells⟩ := ih r'
      obtain ⟨c, events, haccept, hheard⟩ := accept_tells (X86.Setting.tells_of_next? hnext)
      cases hstop : config.stops && c.leaves with
      | true =>
        refine ⟨_, _, _, [events.filterMap Event.warning?], collect_stop hnext haccept hstop, ?_,
          .cons hheard .nil⟩
        simp
      | false =>
        refine ⟨_, _, _, events.filterMap Event.warning? :: told,
          collect_cons hnext haccept hstop hcollect, ?_, .cons hheard htells⟩
        rw [List.filterMap_append, hmore, List.flatten_cons]

/-- How a run that aborts has ended, told by the clusters of the one that marks. -/
def EndsLike (aborted : Except LiftError (List Cluster × Progress) × List Event)
    (clusters : List Cluster) (progress : Progress) (events : List Event) : Prop :=
  match clusters.find? Cluster.isInvalid with
  | none => aborted = (.ok (clusters, progress), events)
  | some c => ∃ e events', aborted = (.error e, events') ∧ e.cluster = c

/-- A run that aborts ends as the clusters of the one that marks tell. -/
theorem collect_abort (config : LiftConfig) (s : Setting) (n : Nat) (r : Run) :
    ∃ clusters progress events,
      (config.under .markPartial).collect s n r = (.ok (clusters, progress), events) ∧
        EndsLike ((config.under .abort).collect s n r) clusters progress events := by
  induction n generalizing r with
  | zero => exact ⟨[], r.progress, [], rfl, rfl⟩
  | succ n ih =>
    cases hnext : s.next? r with
    | none => exact ⟨[], r.progress, [], collect_end hnext, collect_end hnext⟩
    | some step =>
      obtain ⟨outcome, r'⟩ := step
      obtain ⟨clusters, progress, more, hcollect, hends⟩ := ih r'
      cases hresult : outcome.result with
      | error e =>
        have hgo : ((config.under .markPartial).stops && e.cluster.leaves) = false := by
          rw [e.leaves_cluster, Bool.and_false]
        refine ⟨_, _, _, collect_cons hnext (accept_marked hresult) hgo hcollect, ?_⟩
        exact ⟨e, outcome.events, collect_error hnext (accept_abort hresult), rfl⟩
      | ok c =>
        have htells := X86.Setting.tells_of_next? hnext
        rw [hresult] at htells
        have hvalid := htells.of_ok.1
        cases hstop : config.stops && c.leaves with
        | true =>
          refine ⟨_, _, _, collect_stop hnext (accept_ok hresult) hstop, ?_⟩
          rw [EndsLike, List.find?_cons_of_neg (by simp [hvalid]), List.find?_nil]
          exact collect_stop hnext (accept_ok hresult) hstop
        | false =>
          refine ⟨_, _, _, collect_cons hnext (accept_ok hresult) hstop hcollect, ?_⟩
          unfold EndsLike at hends ⊢
          rw [List.find?_cons_of_neg (by simp [hvalid])]
          cases hinvalid : clusters.find? Cluster.isInvalid with
          | none =>
            rw [hinvalid] at hends
            exact collect_cons hnext (accept_ok hresult) hstop hends
          | some d =>
            rw [hinvalid] at hends
            obtain ⟨e, events, haborted, hcluster⟩ := hends
            exact ⟨e, _, collect_cons_error hnext (accept_ok hresult) hstop haborted, hcluster⟩

end LiftConfig

/-! ## Lifts -/

namespace Architecture

/-- The host hears nothing of a procedure as a whole. -/
theorem warnings_finish (a : Architecture) (entry : Address) (clusters : List Cluster)
    (progress : Progress) :
    (a.finish entry clusters progress).2.filterMap Event.warning? = [] := by
  unfold finish State.leaveEvents
  simp only [List.filterMap_append]
  split <;> rfl

/-- With full support, a lift from a mapped entry does what its run does. -/
theorem lift_of_entry {a : Architecture} (hfull : a.support = .full) {m : Image} {entry : Address}
    (host : Host) (config : LiftConfig) {o : Nat} (hentry : m.position? entry = some o) :
    a.lift m entry host config =
      a.liftFrom ⟨m, 0, o, m.size, a.processor.order⟩ entry host config := by
  have hreader : a.reader m entry = .ok ⟨m, 0, o, m.size, a.processor.order⟩ := by
    simp [reader, Reader.startingAt, hentry]
  simp [lift, decodes, isFull, hfull, hreader]

section

variable {a : Architecture} {reader : Reader} {entry : Address} {host : Host} {config : LiftConfig}

/-- A lift is told by its run. -/
theorem liftFrom_congr {config' : LiftConfig}
    (h : let run := Run.start (a.atEntry entry) (.code a.mode reader)
      config.collect ⟨a.mode, host⟩ config.limit run =
        config'.collect ⟨a.mode, host⟩ config'.limit run) :
    a.liftFrom reader entry host config = a.liftFrom reader entry host config' := by
  unfold liftFrom
  simp only [h]

theorem liftFrom_error {e : LiftError} {events : List Event}
    (h : config.collect ⟨a.mode, host⟩ config.limit
      (.start (a.atEntry entry) (.code a.mode reader)) = (.error e, events)) :
    ∃ events', a.liftFrom reader entry host config = (.error (.instruction e), events') := by
  unfold liftFrom
  simp only [h]
  exact ⟨_, rfl⟩

/-- A lift has the clusters of its run, and the host hears what it has heard of the run. -/
theorem liftFrom_ok {clusters : List Cluster} {progress : Progress} {events : List Event}
    (h : config.collect ⟨a.mode, host⟩ config.limit
      (.start (a.atEntry entry) (.code a.mode reader)) = (.ok (clusters, progress), events)) :
    ∃ p events', a.liftFrom reader entry host config = (.ok p, events') ∧
      p.clusters = clusters ∧
      events'.filterMap Event.warning? = events.filterMap Event.warning? := by
  unfold liftFrom
  simp only [h]
  refine ⟨_, _, rfl, rfl, ?_⟩
  have hstarted : Event.warning?
      (.debug .procedure s!"lifting {entry.render} on {a.name}") = none := rfl
  rw [List.cons_append, List.filterMap_cons_none hstarted, List.filterMap_append,
    a.warnings_finish, List.append_nil]

end

theorem isPartial_eq_false_iff {p : Procedure} :
    p.isPartial = false ↔ p.clusters.find? Cluster.isInvalid = none := by
  rw [Procedure.isPartial, List.any_eq_false, List.find?_eq_none]

/-- From a mapped entry the lift that marks what it cannot lift always succeeds. The one that aborts
succeeds exactly if that one is not partial, and then with the same procedure and the same reports;
otherwise its error has the address and the length of the first invalid cluster. Of the lift that
marks, the host hears cluster by cluster one warning for each that is invalid, at its address, and
else only of calls. -/
theorem lift_policies_agree (mode : Mode) (kept : Options) (m : Image) (entry : Address)
    (host : Host) (limit : Nat) (stops : Bool) {o : Nat} (hentry : m.position? entry = some o) :
    let lift (policy : Policy) :=
      Architecture.lift ⟨mode, .full, kept⟩ m entry host ⟨limit, policy, stops⟩
    ∃ p events, lift .markPartial = (.ok p, events) ∧
      ((∃ q events', lift .abort = (.ok q, events')) ↔ p.isPartial = false) ∧
      (∀ q events', lift .abort = (.ok q, events') → q = p ∧ events' = events) ∧
      (∀ e events', lift .abort = (.error e, events') →
        ∃ e' c, e = .instruction e' ∧ p.clusters.find? Cluster.isInvalid = some c ∧
          e'.address = c.address ∧ e'.length = c.length) ∧
      ∃ told, events.filterMap Event.warning? = told.flatten ∧
        List.Forall₂ Cluster.Tells p.clusters told := by
  intro lift
  let a : Architecture := ⟨mode, .full, kept⟩
  let config : LiftConfig := ⟨limit, .markPartial, stops⟩
  let reader : Reader := ⟨m, 0, o, m.size, a.processor.order⟩
  let run := Run.start (a.atEntry entry) (.code mode reader)
  have hlift : ∀ policy, lift policy = a.liftFrom reader entry host (config.under policy) :=
    fun policy => lift_of_entry rfl host _ hentry
  obtain ⟨clusters, progress, events, told, hmarked, hwarnings, htells⟩ :=
    config.told_collect ⟨mode, host⟩ limit run
  obtain ⟨_, _, _, hmarked', hends⟩ := config.collect_abort ⟨mode, host⟩ limit run
  cases hmarked.symm.trans hmarked'
  obtain ⟨p, events', hp, rfl, hevents⟩ := liftFrom_ok (a := a) hmarked
  refine ⟨p, events', (hlift _).trans hp, ?_⟩
  have hheard : ∃ told, events'.filterMap Event.warning? = told.flatten ∧
      List.Forall₂ Cluster.Tells p.clusters told := ⟨told, hevents.trans hwarnings, htells⟩
  rw [isPartial_eq_false_iff]
  unfold LiftConfig.EndsLike at hends
  cases hinvalid : p.clusters.find? Cluster.isInvalid with
  | none =>
    rw [hinvalid] at hends
    have habort : lift .abort = (.ok p, events') := by
      rw [hlift, ← hp]
      exact liftFrom_congr (hends.trans hmarked.symm)
    refine ⟨iff_of_true ⟨p, events', habort⟩ rfl, ?_, ?_, hheard⟩
    · intro q more hq
      cases habort.symm.trans hq
      exact ⟨rfl, rfl⟩
    · intro e more he
      cases habort.symm.trans he
  | some c =>
    rw [hinvalid] at hends
    obtain ⟨e, more, haborted, hcluster⟩ := hends
    obtain ⟨reported, habort⟩ := liftFrom_error (a := a) haborted
    have habort : lift .abort = (.error (.instruction e), reported) := (hlift _).trans habort
    refine ⟨iff_of_false ?_ (Option.some_ne_none c), ?_, ?_, hheard⟩
    · rintro ⟨q, _, hq⟩
      cases habort.symm.trans hq
    · intro q _ hq
      cases habort.symm.trans hq
    · intro e' _ he'
      cases habort.symm.trans he'
      exact ⟨e, c, rfl, rfl, by rw [← hcluster]; rfl, by rw [← hcluster]; rfl⟩

/-- Behind a call and a copy, a byte that does not decode: it ends the lift that aborts, and is the
first invalid cluster of the other one. -/
theorem lift_policies_agree_undecodable :
    let m : Image := ⟨⟨.segment 0x0C00, 0xFFFC, by decide⟩,
      [0xFF, 0xD0, 0x0E, 0x1F, 0xF4, 0x31, 0xD8, 0xC3]⟩
    let lift (policy : Policy) :=
      Architecture.lift ⟨.real16, .full, []⟩ m m.base .silent ⟨10, policy, true⟩
    m.position? m.base = some 0 ∧
      ∃ p events e reported, lift .markPartial = (.ok p, events) ∧ p.isPartial ≠ false ∧
        lift .abort = (.error (.instruction e), reported) ∧
        e.address = m.addressAt 4 ∧ e.length = 1 := by
  intro m lift
  have hentry : m.position? m.base = some 0 := by decide
  obtain ⟨p, events, hp, hiff, -, herror, -⟩ :=
    lift_policies_agree .real16 [] m m.base .silent 10 true hentry
  have hfirst : (p.clusters.find? Cluster.isInvalid).map (fun c => (c.address, c.length)) =
      some (m.addressAt 4, 1) := by
    have hcomputed : (lift .markPartial).1.toOption.map
        (fun p => (p.clusters.find? Cluster.isInvalid).map fun c => (c.address, c.length)) =
          some (some (m.addressAt 4, 1)) := by decide +kernel
    rw [show lift .markPartial = _ from hp] at hcomputed
    exact Option.some.inj hcomputed
  have hpartial : p.isPartial ≠ false := by
    intro hvalid
    rw [isPartial_eq_false_iff.1 hvalid] at hfirst
    cases hfirst
  cases habort : lift .abort with
  | mk result reported =>
    cases result with
    | ok q => exact absurd (hiff.1 ⟨q, reported, habort⟩) hpartial
    | error failure =>
      obtain ⟨e, c, rfl, hfind, haddress, hlength⟩ := herror failure reported habort
      rw [hfind, Option.map_some] at hfirst
      obtain ⟨hat, hone⟩ := Prod.mk.inj (Option.some.inj hfirst)
      exact ⟨hentry, p, events, e, reported, hp, hpartial, rfl, haddress.trans hat,
        hlength.trans hone⟩

end Architecture

end CodeLift
