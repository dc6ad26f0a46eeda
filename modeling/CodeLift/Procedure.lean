-- SUMMARY: Lifting whole procedures.
import CodeLift.Architecture
import CodeLift.Text.Folding
import CodeLift.X86.Run

/-!
# Procedures

A procedure is lifted from its entry, cluster by cluster, up to a limit, the end
of the image, or the first return or unconditional jump. What cannot be lifted
either ends the lift with an error or leaves an invalid cluster, with a warning
to the host. Lifts share nothing: several procedures are lifted one by one.
-/

namespace CodeLift

open X86 (Setting Run Progress)

/-- What to do with an instruction that cannot be lifted. -/
inductive Policy where
  | abort
  | markPartial
  deriving DecidableEq

/-- Read the name of a policy, in any case. -/
def Policy.ofName? (name : String) : Option Policy :=
  let name := Text.folded name
  if ["abort", "strict"].contains name then some .abort
  else if ["partial", "mark-partial", "lenient"].contains name then some .markPartial
  else none

structure LiftConfig where
  /-- The greatest number of clusters. -/
  limit : Nat
  policy : Policy
  /-- Stop at the first return or unconditional jump. -/
  stops : Bool
  deriving DecidableEq

def LiftConfig.standard : LiftConfig := ⟨10000, .markPartial, true⟩

/-- Why a procedure was not lifted. -/
inductive ProcedureError where
  | image (e : ImageError)
  | instruction (e : X86.LiftError)
  | missing (architecture capability : String)
  deriving DecidableEq

/-- The word for an error in reports. -/
def ProcedureError.kind : ProcedureError → String
  | .image e => e.kind
  | .instruction e => e.kind
  | .missing _ _ => "MissingCapability"

def ProcedureError.message : ProcedureError → String
  | .image e => e.message
  | .instruction e => e.message
  | .missing architecture capability => s!"architecture {architecture} has no {capability}"

structure Procedure where
  name : String
  entry : Address
  clusters : List Cluster
  frame : Frame
  /-- The signature, as far as the last return tells it. -/
  signature : Signature
  /-- The state behind the last instruction. -/
  state : State

namespace Procedure

/-- The name of the procedure at an address. -/
def nameAt (entry : Address) : String :=
  "fn" ++ String.ofList (entry.chars.map fun c => if c = ':' then '_' else c)

/-- Some instruction could not be lifted. -/
def isPartial (p : Procedure) : Bool := p.clusters.any Cluster.isInvalid

/-- The address just past the last cluster. -/
def limitOf (entry : Address) (clusters : List Cluster) : Address :=
  match clusters.getLast? with
  | some c => c.next
  | none => entry

def limit (p : Procedure) : Address := limitOf p.entry p.clusters

def statementCount (p : Procedure) : Nat := (p.clusters.flatMap Cluster.statements).length

end Procedure

/-! ## Returns and transfers -/

/-- The bytes that a return takes off the stack beyond the return address. -/
def Stmt.extra? : Stmt → Option Nat
  | .ret _ extra => some extra
  | _ => none

/-- Control does not go on behind the statement. -/
def Stmt.leaves : Stmt → Bool
  | .ret _ _ | .goto _ => true
  | _ => false

/-- Control does not go on behind the cluster. -/
def Cluster.leaves (c : Cluster) : Bool := c.statements.any Stmt.leaves

/-- The signature told by the last return among the clusters. -/
def Signature.ofClusters (name : String) (returnSize : Nat) (clusters : List Cluster) :
    Signature :=
  match ((clusters.flatMap Cluster.statements).filterMap Stmt.extra?).getLast? with
  | some extra => { Signature.plain name returnSize with stackDelta := returnSize + extra }
  | none => Signature.plain name returnSize

/-! ## Lifting -/

/-- The cluster in place of what could not be lifted. -/
def X86.LiftError.cluster (e : X86.LiftError) : Cluster := ⟨e.address, e.length, [.invalid]⟩

/-- The cluster of an outcome under a policy, with the events up to it. -/
def LiftConfig.accept (config : LiftConfig) (outcome : X86.Outcome) :
    Except X86.LiftError Cluster × List Event :=
  match outcome.result, config.policy with
  | .ok c, _ => (.ok c, outcome.events)
  | .error e, .abort => (.error e, outcome.events)
  | .error e, .markPartial => (.ok e.cluster, outcome.events ++ [.warned e.address e.message])

/-- At most `n` clusters of a run, with the progress behind the last one. -/
def LiftConfig.collect (config : LiftConfig) (s : Setting) :
    Nat → Run → Except X86.LiftError (List Cluster × Progress) × List Event
  | 0, r => (.ok ([], r.progress), [])
  | n + 1, r =>
    match s.next? r with
    | none => (.ok ([], r.progress), [])
    | some (outcome, rest) =>
      match config.accept outcome with
      | (.error e, events) => (.error e, events)
      | (.ok c, events) =>
        if config.stops && c.leaves then (.ok ([c], rest.progress), events)
        else
          let (collected, more) := config.collect s n rest
          (collected.map fun (clusters, progress) => (c :: clusters, progress), events ++ more)

namespace Architecture

/-- The progress at the entry of a procedure. -/
def atEntry (a : Architecture) (entry : Address) : Progress :=
  ⟨(a.newState.setPointer entry).enter, a.newFrame, none⟩

/-- The procedure that the clusters make up, and what is reported of it. -/
def finish (a : Architecture) (entry : Address) (clusters : List Cluster) (progress : Progress) :
    Procedure × List Event :=
  let name := Procedure.nameAt entry
  let signature := Signature.ofClusters name a.processor.returnSize clusters
  let limit := (Procedure.limitOf entry clusters).render
  (⟨name, entry, clusters, progress.frame, signature, progress.state⟩,
    progress.state.leaveEvents signature ++
      [.debug .procedure s!"lifted {name}: {clusters.length} cluster(s), ends at {limit}"])

/-- Lift the procedure that starts at the reader. -/
def liftFrom (a : Architecture) (reader : Reader) (entry : Address) (host : Host)
    (config : LiftConfig) : Except ProcedureError Procedure × List Event :=
  let started : Event := .debug .procedure s!"lifting {entry.render} on {a.name}"
  let run := Run.start (a.atEntry entry) (.code a.mode reader)
  match config.collect ⟨a.mode, host⟩ config.limit run with
  | (.error e, events) => (.error (.instruction e), started :: events)
  | (.ok (clusters, progress), events) =>
    let (procedure, more) := a.finish entry clusters progress
    (.ok procedure, started :: events ++ more)

/-- Lift the procedure at an address. -/
def lift (a : Architecture) (m : Image) (entry : Address) (host : Host) (config : LiftConfig) :
    Except ProcedureError Procedure × List Event :=
  if !a.decodes then (.error (.missing a.name "disassembler"), [])
  else if !a.isFull then (.error (.missing a.name "rewriter"), [])
  else
    match a.reader m entry with
    | .error e => (.error (.image e), [])
    | .ok reader => a.liftFrom reader entry host config

end Architecture

end CodeLift
