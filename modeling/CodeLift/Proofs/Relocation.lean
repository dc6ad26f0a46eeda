-- SUMMARY: Lifts of the same bytes at two bases differ in their addresses alone.
import CodeLift.Proofs.Image.Positions
import CodeLift.Proofs.X86.Relocation

/-!
# Lifts at other bases

Bytes that are loaded at another base spell the same items with their addresses moved
(`Image.item_relocate`). So the pieces are the same ones moved (`Setting.pieces_relocate`),
also where offsets wrap around, and a lift that starts at the base takes as many of them
(`Architecture.taken_relocate`). What it knows of frame and depth stays the same from
stage to stage (`Architecture.alike_stage`), and `Architecture.lift_relocate` says both of
lifts.
-/

namespace CodeLift

open X86 (Mode Piece Progress Setting)
open Address (relocate)

/-! ## Items -/

namespace Image

variable {base base' : Address}

theorem addressAt_relocate (hsize : base.space.size = base'.space.size) (bytes : List UInt8)
    (position : Nat) :
    (⟨base', bytes⟩ : Image).addressAt position =
      relocate base base' ((⟨base, bytes⟩ : Image).addressAt position) := by
  change base'.advance position = relocate base base' (base.advance position)
  rw [Address.relocate_advance hsize, Address.relocate_self]

/-- At another base the same bytes spell the same items. -/
theorem item_relocate (hsize : base.space.size = base'.space.size) (bytes : List UInt8)
    (mode : Mode) (position : Nat) :
    (⟨base', bytes⟩ : Image).item mode position =
      X86.Item.mapAddress (relocate base base') ((⟨base, bytes⟩ : Image).item mode position) := by
  have hspace : ((⟨base, bytes⟩ : Image).addressAt position).space.size = base'.space.size := hsize
  unfold item
  rw [addressAt_relocate hsize]
  exact X86.decode_relocate hspace mode (bytes.drop position)

end Image

/-! ## Pieces -/

section

variable (f : Address → Address)

theorem X86.soleRegister?_mapAddress (operation : Operation) (i : Instruction) :
    soleRegister? operation (i.mapAddress f) = soleRegister? operation i := by
  obtain ⟨address, bytes, mnemonic, _, operands, flow⟩ := i
  rcases operands with _ | ⟨o, _ | _⟩
  case nil => rfl
  all_goals cases o <;> rfl

theorem Stmt.leaves_mapAddress (statement : Stmt) :
    (statement.mapAddress f).leaves = statement.leaves := by
  cases statement <;> rfl

theorem Stmt.extra?_mapAddress (statement : Stmt) :
    (statement.mapAddress f).extra? = statement.extra? := by
  cases statement <;> rfl

theorem Cluster.leaves_mapAddress (c : Cluster) : (c.mapAddress f).leaves = c.leaves := by
  have hleaves : Stmt.leaves ∘ Stmt.mapAddress f = Stmt.leaves :=
    funext (Stmt.leaves_mapAddress f)
  rw [leaves, mapAddress, List.any_map, hleaves, leaves]

theorem X86.Piece.cluster_mapAddress (piece : Piece) :
    (piece.mapAddress f).cluster = piece.cluster.mapAddress f := by
  cases piece with
  | undecodable | unsupported | lifted => rfl
  | copied push pop src dst =>
    simp only [mapAddress, cluster, copyCluster, Cluster.mapAddress, List.map_cons, List.map_nil,
      Stmt.mapAddress_set]
    rfl

/-- The signature of clusters does not tell where they are. -/
theorem Signature.stackDelta_mapAddress (name name' : String) (returnSize : Nat)
    (clusters : List Cluster) :
    (ofClusters name' returnSize (clusters.map (Cluster.mapAddress f))).stackDelta =
      (ofClusters name returnSize clusters).stackDelta := by
  have hstatements : (clusters.map (Cluster.mapAddress f)).flatMap Cluster.statements =
      (clusters.flatMap Cluster.statements).map (Stmt.mapAddress f) := by
    rw [List.flatMap_map, List.map_flatMap]
    rfl
  have hextra : Stmt.extra? ∘ Stmt.mapAddress f = Stmt.extra? :=
    funext (Stmt.extra?_mapAddress f)
  unfold ofClusters
  rw [hstatements, List.filterMap_map, hextra]
  split <;> rfl

theorem LiftConfig.kept_mapAddress (config : LiftConfig) (pieces : List Piece) :
    config.kept (pieces.map (Piece.mapAddress f)) =
      (config.kept pieces).map (Piece.mapAddress f) := by
  have hleaves : (fun piece : Piece => piece.cluster.leaves) ∘ Piece.mapAddress f =
      fun piece => piece.cluster.leaves := by
    funext piece
    rw [Function.comp_apply, Piece.cluster_mapAddress, Cluster.leaves_mapAddress]
  unfold kept
  split
  · rw [List.findIdx_map, hleaves, List.map_take]
  · rfl

end

namespace X86.Setting

variable {s : Setting} {base base' : Address}

theorem pieceOf_mapAddress (f : Address → Address) (hsilent : s.host = .silent) (i : Instruction) :
    s.pieceOf (i.mapAddress f) = (s.pieceOf i).mapAddress f := by
  rw [pieceOf, statements?_mapAddress f hsilent, pieceOf]
  cases s.statements? i <;> rfl

/-- Directly behind a push, only the registers tell whether a pop makes it a register copy. -/
theorem copy?_next (hsilent : s.host = .silent) {push i : Instruction}
    (hnext : i.address = push.next) :
    s.copy? push (.ok i) = (soleRegister? .push push).bind fun src =>
      (soleRegister? .pop i).bind fun dst =>
        if dst.bits = src.bits then some (i, src, dst) else none := by
  have hbehind : i.address.coincides push.next := by
    rw [hnext, Address.coincides, beq_self_eq_true]
  have hfree : ¬ s.host.isJumpTarget i.address := by
    rw [hsilent]
    exact Bool.false_ne_true
  unfold copy?
  cases soleRegister? .push push with
  | none => rfl
  | some src =>
    cases hpop : soleRegister? .pop i with
    | none => simp only [hpop, Option.bind_some, Option.bind_none]
    | some dst => simp [hpop, hbehind, hfree]

theorem copy?_mapAddress (f : Address → Address) (hsilent : s.host = .silent) {push : Instruction}
    {next : Item} (hnext : (push.mapAddress f).next = f push.next)
    (hbehind : ∀ i, next = .ok i → i.address = push.next) :
    s.copy? (push.mapAddress f) (Item.mapAddress f next) =
      (s.copy? push next).map fun (pop, src, dst) => (pop.mapAddress f, src, dst) := by
  cases next with
  | error e =>
    rw [Item.mapAddress, copy?_error, copy?_error]
    rfl
  | ok i =>
    have haddress : i.address = push.next := hbehind i rfl
    have haddress' : (i.mapAddress f).address = (push.mapAddress f).next := by
      rw [hnext, ← haddress]
      rfl
    rw [Item.mapAddress, copy?_next hsilent haddress, copy?_next hsilent haddress',
      soleRegister?_mapAddress, soleRegister?_mapAddress]
    cases soleRegister? .push push with
    | none => rfl
    | some src =>
      cases soleRegister? .pop i with
      | none => rfl
      | some dst => by_cases hbits : dst.bits = src.bits <;> simp [hbits]

/-- At another base the same bytes make the same pieces. -/
theorem pieceAt_relocate (hsilent : s.host = .silent) (hsize : base.space.size = base'.space.size)
    (bytes : List UInt8) (position : Nat) :
    s.pieceAt ⟨base', bytes⟩ position =
      (s.pieceAt ⟨base, bytes⟩ position).mapAddress (relocate base base') := by
  have hitem' := Image.item_relocate hsize bytes s.mode position
  cases hitem : (⟨base, bytes⟩ : Image).item s.mode position with
  | error e =>
    rw [hitem] at hitem'
    rw [pieceAt_of_error hitem, pieceAt_of_error hitem']
    rfl
  | ok i =>
    rw [hitem] at hitem'
    have hnext : i.next = (⟨base, bytes⟩ : Image).addressAt (position + i.length) := by
      rw [Instruction.next, Image.address_of_item hitem]
      exact Address.advance_advance _ _ _
    have hnext' : (i.mapAddress (relocate base base')).next = relocate base base' i.next := by
      rw [Instruction.next, Image.address_of_item hitem', hnext,
        ← Image.addressAt_relocate hsize]
      exact Address.advance_advance _ _ _
    have hbehind : ∀ j, (⟨base, bytes⟩ : Image).item s.mode (position + i.length) = .ok j →
        j.address = i.next := fun j hj => (Image.address_of_item hj).trans hnext.symm
    have hcopy' := copy?_mapAddress (relocate base base') hsilent hnext' hbehind
    rw [← Image.item_relocate hsize] at hcopy'
    cases hcopy : s.copy? i ((⟨base, bytes⟩ : Image).item s.mode (position + i.length)) with
    | none =>
      rw [hcopy] at hcopy'
      rw [pieceAt_of_single hitem hcopy, pieceAt_of_single hitem' hcopy',
        pieceOf_mapAddress _ hsilent]
    | some copy =>
      obtain ⟨pop, src, dst⟩ := copy
      rw [hcopy] at hcopy'
      rw [pieceAt_of_copy? hitem hcopy, pieceAt_of_copy? hitem' hcopy']
      rfl

theorem pieces_relocate (hsilent : s.host = .silent) (hsize : base.space.size = base'.space.size)
    (bytes : List UInt8) (position : Nat) :
    s.pieces ⟨base', bytes⟩ position =
      (s.pieces ⟨base, bytes⟩ position).map (Piece.mapAddress (relocate base base')) := by
  fun_induction s.pieces ⟨base, bytes⟩ position with
  | case1 position hlt ih =>
    have hlength : (s.pieceAt ⟨base', bytes⟩ position).cluster.length =
        (s.pieceAt ⟨base, bytes⟩ position).cluster.length := by
      rw [pieceAt_relocate hsilent hsize, Piece.cluster_mapAddress]
      rfl
    have hlt' : position < (⟨base', bytes⟩ : Image).size := hlt
    rw [pieces_of_lt hlt', hlength, ih, List.map_cons, pieceAt_relocate hsilent hsize]
  | case2 position hend =>
    exact pieces_of_le (m := ⟨base', bytes⟩) (Nat.le_of_not_lt hend)

end X86.Setting

/-! ## Lifts -/

namespace Architecture

variable {base base' : Address}

theorem depth_atEntry (a : Architecture) (entry : Address) :
    (a.atEntry entry).state.depth = 0 := by
  change ((a.newState.setPointer entry).clear).depth = 0
  rw [Setting.depth_clear]
  unfold State.setPointer
  split <;> rfl

/-- A lift that starts at the base takes the same pieces wherever the base is. -/
theorem taken_relocate (a : Architecture) (hsize : base.space.size = base'.space.size)
    (bytes : List UInt8) (config : LiftConfig) :
    a.taken ⟨base', bytes⟩ base' .silent config =
      (a.taken ⟨base, bytes⟩ base .silent config).map
        (Piece.mapAddress (relocate base base')) := by
  unfold taken
  rw [Image.position?_base ⟨base, bytes⟩, Image.position?_base ⟨base', bytes⟩]
  dsimp only
  rw [Setting.pieces_relocate rfl hsize, config.kept_mapAddress, List.map_take]

/-- At every stage the frames and the depths are the same. -/
theorem alike_stage (a : Architecture) (hsize : base.space.size = base'.space.size)
    (bytes : List UInt8) (config : LiftConfig) (n : Nat) :
    (a.stage ⟨base, bytes⟩ base .silent config n).Alike
      (a.stage ⟨base', bytes⟩ base' .silent config n) := by
  have hentry : (a.atEntry base).Alike (a.atEntry base') :=
    ⟨rfl, rfl, by rw [a.depth_atEntry, a.depth_atEntry]⟩
  rw [stage, stage, a.taken_relocate hsize, ← List.map_take]
  exact hentry.foldl _ rfl _

/-- Lifting is independent of the position of the code. Loaded at two bases that are both flat of
one width or both segmented, and lifted from the base with nothing known of the rest of the
program, the same bytes give the same clusters with their addresses moved from the one base to the
other, the same frame, the same growth of the stack on return and the same depth at the end. -/
theorem lift_relocate (mode : Mode) (kept : Options) {base base' : Address}
    (hbases : base.space.Alike base'.space) (bytes : List UInt8) (config : LiftConfig)
    (hpolicy : config.policy = .markPartial) :
    let lift (base : Address) :=
      Architecture.lift ⟨mode, .full, kept⟩ ⟨base, bytes⟩ base .silent config
    ∃ p events q events', lift base = (.ok p, events) ∧ lift base' = (.ok q, events') ∧
      q.clusters = p.clusters.map (Cluster.mapAddress (relocate base base')) ∧
      q.frame = p.frame ∧ q.signature.stackDelta = p.signature.stackDelta ∧
      q.state.depth = p.state.depth := by
  intro lift
  let a : Architecture := ⟨mode, .full, kept⟩
  let taken := a.taken ⟨base, bytes⟩ base .silent config
  obtain ⟨events, hlift⟩ :=
    lift_markPartial (a := a) rfl .silent hpolicy (Image.position?_base ⟨base, bytes⟩)
  obtain ⟨events', hlift'⟩ :=
    lift_markPartial (a := a) rfl .silent hpolicy (Image.position?_base ⟨base', bytes⟩)
  have hclusters : (a.taken ⟨base', bytes⟩ base' .silent config).map Piece.cluster =
      (taken.map Piece.cluster).map (Cluster.mapAddress (relocate base base')) := by
    have hcluster : Piece.cluster ∘ Piece.mapAddress (relocate base base') =
        Cluster.mapAddress (relocate base base') ∘ Piece.cluster :=
      funext (Piece.cluster_mapAddress _)
    rw [a.taken_relocate hbases.size_eq, List.map_map, hcluster, ← List.map_map]
  have hlength : (a.taken ⟨base', bytes⟩ base' .silent config).length = taken.length := by
    rw [a.taken_relocate hbases.size_eq, List.length_map]
  have halike := a.alike_stage hbases.size_eq bytes config taken.length
  rw [hclusters, hlength] at hlift'
  exact ⟨_, events, _, events', hlift, hlift', rfl, halike.frame,
    Signature.stackDelta_mapAddress _ _ _ _ _, halike.depth⟩

/-- A copy, a byte that does not decode, a push, a jump back to the copy and a return, around the
end of a segment and in the middle of another one. -/
theorem lift_relocate_around_segment :
    let base : Address := ⟨.segment 0x0C00, 0xFFFC, by decide⟩
    let base' : Address := ⟨.segment 0x1234, 0x0100, by decide⟩
    let bytes : List UInt8 := [0x0E, 0x1F, 0xF4, 0x50, 0x74, 0xFA, 0xC3]
    let lift (base : Address) :=
      Architecture.lift ⟨.real16, .full, []⟩ ⟨base, bytes⟩ base .silent .standard
    base.space.Alike base'.space ∧ LiftConfig.standard.policy = .markPartial ∧
      ∃ p events q events', lift base = (.ok p, events) ∧ lift base' = (.ok q, events') ∧
        p.clusters.map (fun c => c.address.offset) = [0xFFFC, 0xFFFE, 0xFFFF, 0x0000, 0x0002] ∧
        q.clusters = p.clusters.map (Cluster.mapAddress (relocate base base')) ∧
        q.state.depth = p.state.depth ∧ p.state.depth = 2 := by
  intro base base' bytes lift
  have hbases : base.space.Alike base'.space := .segment _ _
  obtain ⟨p, events, q, events', hlift, hlift', hclusters, -, -, hdepth⟩ :=
    lift_relocate .real16 [] hbases bytes .standard rfl
  obtain ⟨r, _, hr, hview⟩ : ∃ p events, lift base = (.ok p, events) ∧
      (p.clusters.map (fun c => c.address.offset), p.state.depth) =
        ([0xFFFC, 0xFFFE, 0xFFFF, 0x0000, 0x0002], 2) :=
    exists_lift_of_map_eq_some (by decide +kernel)
  cases hlift.symm.trans hr
  obtain ⟨hoffsets, htop⟩ := Prod.mk.inj hview
  exact ⟨hbases, rfl, p, events, q, events', hlift, hlift', hoffsets, hclusters, hdepth, htop⟩

end Architecture

end CodeLift
