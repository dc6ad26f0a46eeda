-- SUMMARY: A limit and a stop at transfers only cut a lift short.
import CodeLift.Proofs.Composition
import CodeLift.Proofs.X86.Coverage

/-!
# Limits of lifts

A lift ends early for two reasons: it has as many clusters as its limit allows, or it
stops at a transfer. To stop it looks for returns and jumps among the statements of a
cluster. The instructions themselves say where control goes next, and both tell the same
of all that bytes can spell (`leaves_pieceAt`), of invalid clusters and register copies
too.

So a lift takes the pieces up to the first transfer or up to its limit, whichever comes
first (`Architecture.lift_limits`), and the last return among what it took gives the
signature its stack delta.
-/

namespace CodeLift

open X86 (Mode Piece Setting)

/-! ## Transfers -/

/-- The decoded instructions of a piece. -/
def X86.Piece.instructions : Piece → List Instruction
  | .undecodable _ => []
  | .unsupported i => [i]
  | .lifted i _ => [i]
  | .copied push pop _ _ => [push, pop]

/-- Control never goes on behind an instruction of the piece. -/
def X86.Piece.leaves (piece : Piece) : Bool := piece.instructions.any Instruction.leaves

@[simp] theorem Stmt.leaves_set (dst src : Expr) : (Stmt.set dst src).leaves = false := by
  unfold Stmt.set
  split <;> rfl

/-- Of the instructions that bytes spell, jumps and returns are those that control does not go on
behind. -/
theorem X86.Mode.Encodes.leaves {mode : Mode} {i : Instruction} (hi : mode.Encodes i) :
    i.leaves = (i.operation == .jump || i.operation == .ret) := by
  obtain ⟨bytes, hdecode⟩ := hi
  obtain ⟨-, -, -, body, hformed, hplace⟩ := X86.decode_eq_ok hdecode
  rw [hplace]
  cases hformed with
  | alu op => cases op <;> rfl
  | relative transfer => cases transfer <;> rfl
  | move | loadSegment | storeSegment | exclusiveOr | push | pushImmediate | pop | ret | retMore
  | nop | call | jump => rfl

namespace X86.Setting

variable {s : Setting} {m : Image} {position : Nat} {i : Instruction} {statements : List Stmt}

/-- Jumps and returns are what is lifted into statements that control does not go on behind. -/
theorem leaves_of_statements? (h : s.statements? i = some statements) :
    statements.any Stmt.leaves = (i.operation == .jump || i.operation == .ret) := by
  cases emits_of_statements? h with
  | arithmetic hoperation | logical hoperation =>
    rcases hoperation with ⟨hoperation, -⟩ | ⟨hoperation, -⟩ <;> simp [hoperation]
  | move hoperation | compare hoperation | zero hoperation | pop hoperation =>
    simp [hoperation, moveStackPointer]
  | push hoperation =>
    rw [hoperation, List.any_cons, moveStackPointer, Stmt.leaves_set]
    rfl
  | nop hoperation | call hoperation | jump hoperation | branch hoperation | ret _ hoperation =>
    rw [hoperation]
    rfl

/-- An instruction that is lifted leaves if and only if its statements do. -/
theorem leaves_statements? (hi : s.mode.Encodes i) (h : s.statements? i = some statements) :
    statements.any Stmt.leaves = i.leaves := by
  rw [leaves_of_statements? h, hi.leaves]

/-- What is refused goes on to the next instruction, as the invalid statement does. -/
theorem leaves_of_refused (hi : s.mode.Encodes i) (h : s.statements? i = none) :
    i.leaves = false := by
  rw [hi.leaves]
  rcases (statements?_eq_none_iff hi).1 h with hadc | hsbb | ⟨hxor, -⟩
  · rw [hadc]
    rfl
  · rw [hsbb]
    rfl
  · rw [hxor]
    rfl

theorem encodes_of_item (h : m.item s.mode position = .ok i) : s.mode.Encodes i :=
  ⟨m.bytes.drop position, by rw [Image.address_of_item h]; exact h⟩

theorem leaves_of_soleRegister? {mode : Mode} {operation : Operation} {r : Register}
    (hi : mode.Encodes i) (h : soleRegister? operation i = some r) :
    i.leaves = (operation == .jump || operation == .ret) := by
  rw [hi.leaves, (soleRegister?_eq_some.1 h).1]

/-- Control leaves the cluster of a piece if and only if it leaves an instruction of the piece. -/
theorem leaves_pieceAt (s : Setting) (m : Image) (position : Nat) :
    (s.pieceAt m position).cluster.leaves = (s.pieceAt m position).leaves := by
  cases hitem : m.item s.mode position with
  | error e =>
    rw [pieceAt_of_error hitem]
    rfl
  | ok i =>
    have hi := encodes_of_item hitem
    cases hcopy : s.copy? i (m.item s.mode (position + i.length)) with
    | some copy =>
      obtain ⟨pop, src, dst⟩ := copy
      obtain ⟨hpop, hsrc, hdst, -⟩ := copy?_eq_some.1 hcopy
      have hpush := leaves_of_soleRegister? hi hsrc
      have hpop := leaves_of_soleRegister? (encodes_of_item hpop) hdst
      rw [pieceAt_of_copy? hitem hcopy]
      simp [Piece.cluster, copyCluster, Cluster.leaves, Piece.leaves, Piece.instructions, hpush,
        hpop]
    | none =>
      rw [pieceAt_of_single hitem hcopy, pieceOf]
      cases hstatements : s.statements? i with
      | some statements =>
        simp [Piece.cluster, Cluster.leaves, Piece.leaves, Piece.instructions,
          leaves_statements? hi hstatements]
      | none =>
        simp [Piece.cluster, Cluster.leaves, Stmt.leaves, Piece.leaves, Piece.instructions,
          leaves_of_refused hi hstatements]

/-- The first piece whose cluster control leaves is the first with an instruction that it leaves. -/
theorem findIdx_leaves_pieces (s : Setting) (m : Image) (position : Nat) :
    (s.pieces m position).findIdx (fun piece => piece.cluster.leaves) =
      (s.pieces m position).findIdx Piece.leaves := by
  fun_induction s.pieces m position with
  | case1 position hlt ih => rw [List.findIdx_cons, List.findIdx_cons, leaves_pieceAt, ih]
  | case2 => rfl

end X86.Setting

/-! ## Signatures -/

/-- The stack delta is what the last return among the statements takes off the stack, or the size
of a return address if there is none. -/
structure Signature.TellsReturn (signature : Signature) (returnSize : Nat)
    (statements : List Stmt) : Prop where
  last : ∀ {before after : List Stmt} {size extra : Nat},
    statements = before ++ .ret size extra :: after → (∀ s ∈ after, s.extra? = none) →
      signature.stackDelta = returnSize + extra
  none : (∀ s ∈ statements, s.extra? = none) → signature.stackDelta = returnSize

theorem Signature.tellsReturn_ofClusters (name : String) (returnSize : Nat)
    (clusters : List Cluster) :
    (ofClusters name returnSize clusters).TellsReturn returnSize
      (clusters.flatMap Cluster.statements) where
  last := by
    intro before after size extra hstatements hafter
    have hreturns : (before ++ .ret size extra :: after).filterMap Stmt.extra? =
        before.filterMap Stmt.extra? ++ [extra] := by
      have hlast : (Stmt.ret size extra).extra? = some extra := rfl
      rw [List.filterMap_append, List.filterMap_cons_some hlast, List.filterMap_eq_nil_iff.2 hafter]
    rw [ofClusters, hstatements, hreturns, List.getLast?_concat]
  none := by
    intro hnone
    rw [ofClusters, List.filterMap_eq_nil_iff.2 hnone]
    rfl

/-! ## Lifts -/

namespace Architecture

/-- A lift that marks what it cannot lift fails only on an entry that is not mapped. All others of
an entry are cut off the same list of clusters. A lift with room for every byte that stops nowhere
has all of them. One with a limit has the first ones, as many as the limit allows. One that stops
has those up to and including the first that came from an instruction that control never goes on
behind. If both are so it has the shorter of the two. The signature tells the last return among the
clusters that it has. -/
theorem lift_limits (mode : Mode) (kept : Options) (m : Image) (entry : Address) (host : Host) :
    let a : Architecture := ⟨mode, .full, kept⟩
    (m.position? entry = none → ∀ config,
      (a.lift m entry host config).1 = .error (.image (.notMapped entry))) ∧
    ∀ o, m.position? entry = some o →
      let pieces := (⟨mode, host⟩ : Setting).pieces m o
      let all := pieces.map Piece.cluster
      let turn := pieces.findIdx Piece.leaves
      ∀ limit stops, ∃ p events,
        a.lift m entry host ⟨limit, .markPartial, stops⟩ = (.ok p, events) ∧
        (m.size - o ≤ limit → p.clusters = if stops then all.take (turn + 1) else all) ∧
        (p.clusters =
          if stops then all.take (min limit (turn + 1)) else all.take (min limit all.length)) ∧
        p.signature.TellsReturn a.processor.returnSize
          (p.clusters.flatMap Cluster.statements) := by
  intro a
  refine ⟨?_, ?_⟩
  · intro hnone config
    simp [lift, a, decodes, isFull, reader, Reader.startingAt, hnone]
  · intro o hentry pieces all turn limit stops
    let config : LiftConfig := ⟨limit, .markPartial, stops⟩
    have hpolicy : config.policy = .markPartial := rfl
    obtain ⟨events, hcollect⟩ := LiftConfig.collect_eq_kept hpolicy (s := ⟨mode, host⟩) limit
      (a.at_entryRun m entry o)
    obtain ⟨events', hlift⟩ := lift_eq_ok (a := a) rfl hentry hcollect
    have hroom : all.length ≤ m.size - o := by
      rw [List.length_map]
      exact X86.Setting.length_pieces_le _ m o
    have hkept : (config.kept pieces).map Piece.cluster =
        if stops then all.take (turn + 1) else all := by
      unfold LiftConfig.kept
      rw [X86.Setting.findIdx_leaves_pieces]
      cases stops with
      | true => exact List.map_take
      | false => rfl
    have hclusters : (a.finish entry (((config.kept pieces).take limit).map Piece.cluster)
        (((config.kept pieces).take limit).foldl (Setting.pass ⟨mode, host⟩)
          (a.atEntry entry))).1.clusters =
        (if stops then all.take (turn + 1) else all).take limit := by
      rw [← hkept, ← List.map_take]
      rfl
    refine ⟨_, events', hlift, ?_, ?_, Signature.tellsReturn_ofClusters _ _ _⟩
    · intro hlimit
      refine hclusters.trans (List.take_of_length_le ?_)
      split
      · exact Nat.le_trans (List.length_take_le' ..) (Nat.le_trans hroom hlimit)
      · exact Nat.le_trans hroom hlimit
    · refine hclusters.trans ?_
      split
      · rw [List.take_take]
      · rw [← List.take_take, List.take_of_length_le (Nat.le_refl _)]

/-- A return that takes four more bytes off the stack, with a jump and another return behind it: a
lift that stops at transfers ends behind the first return, and there is none from an address outside
the image. -/
theorem lift_limits_ret_jmp_ret :
    let a : Architecture := ⟨.real16, .full, []⟩
    let m : Image :=
      ⟨⟨.segment 0x0C00, 0x10, by decide⟩, [0x90, 0xC2, 0x04, 0x00, 0xEB, 0x00, 0xC3]⟩
    let entry := m.addressAt 0
    let outside := m.addressAt 8
    m.position? outside = none ∧
      (a.lift m outside .silent .standard).1 = .error (.image (.notMapped outside)) ∧
    m.position? entry = some 0 ∧
      ∃ p events, a.lift m entry .silent ⟨3, .markPartial, true⟩ = (.ok p, events) ∧
        p.clusters.flatMap Cluster.statements = [.nop, .ret 2 4] ∧ p.signature.stackDelta = 6 := by
  intro a m entry outside
  have houtside : m.position? outside = none := by decide
  have hentry : m.position? entry = some 0 := by decide
  have hfails := (lift_limits .real16 [] m outside .silent).1 houtside .standard
  obtain ⟨p, events, hlift, -, -, htells⟩ :=
    (lift_limits .real16 [] m entry .silent).2 0 hentry 3 true
  have hstatements : p.clusters.flatMap Cluster.statements = [.nop, .ret 2 4] := by
    have hcomputed : (a.lift m entry .silent ⟨3, .markPartial, true⟩).1.toOption.map
        (fun p => p.clusters.flatMap Cluster.statements) = some [.nop, .ret 2 4] := by
      decide +kernel
    rw [hlift] at hcomputed
    exact Option.some.inj hcomputed
  have hlast : p.clusters.flatMap Cluster.statements = [.nop] ++ .ret 2 4 :: [] := hstatements
  exact ⟨houtside, hfails, hentry, p, events, hlift, hstatements, htells.last hlast nofun⟩

end Architecture

end CodeLift
