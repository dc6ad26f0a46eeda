-- SUMMARY: What a lift knows behind each piece that it takes.
import CodeLift.Proofs.Limits
import CodeLift.Proofs.Policies
import CodeLift.Proofs.X86.StackPointer

/-!
# Stages of lifts

The pieces that a lift takes are told by the image, the limit and the transfers among
them (`Architecture.taken`), and what it knows behind the first `n` of them is a fold over
these (`Architecture.stage`). A lift that succeeds, under either policy, makes its
procedure of all of them (`Architecture.eq_finish_of_lift`).

Whatever holds all along a lift is proved from stage to stage: the next one passes a piece
that items of the image spell (`Architecture.stage_succ`).
-/

namespace CodeLift

open X86 (Mode Piece Progress Setting)

/-! ## Pieces that items spell -/

theorem X86.Progress.frame_follow (p : Progress) (dst : Operand) (src : Option Operand) :
    (p.follow dst src).frame = p.frame := by
  unfold follow
  split
  · split
    · split <;> rfl
    · rfl
  · rfl

namespace X86.Setting

/-- The pieces that the items of an image can make. -/
inductive Spells (s : Setting) : Piece → Prop
  | undecodable (a : Address) : Spells s (.undecodable a)
  | unsupported {i : Instruction} (hi : s.mode.Encodes i) (hs : s.statements? i = none) :
      Spells s (.unsupported i)
  | lifted {i : Instruction} {statements : List Stmt} (hi : s.mode.Encodes i)
      (hs : s.statements? i = some statements) : Spells s (.lifted i statements)
  | copied {push pop : Instruction} {src dst : Register} (hpush : s.mode.Encodes push)
      (hpop : s.mode.Encodes pop) (hcopy : s.copy? push (.ok pop) = some (pop, src, dst)) :
      Spells s (.copied push pop src dst)

theorem Spells.isPiece {s : Setting} {piece : Piece} (h : s.Spells piece) : s.IsPiece piece := by
  rintro i statements rfl
  cases h with
  | lifted _ hs => exact hs

theorem spells_pieceAt (s : Setting) (m : Image) (position : Nat) :
    s.Spells (s.pieceAt m position) := by
  cases hitem : m.item s.mode position with
  | error e =>
    rw [pieceAt_of_error hitem]
    exact .undecodable _
  | ok i =>
    have hi := encodes_of_item hitem
    cases hcopy : s.copy? i (m.item s.mode (position + i.length)) with
    | some copy =>
      obtain ⟨pop, src, dst⟩ := copy
      have hpop : m.item s.mode (position + i.length) = .ok pop := (copy?_eq_some.1 hcopy).1
      rw [pieceAt_of_copy? hitem hcopy]
      exact .copied hi (encodes_of_item hpop) (by rw [← hpop, hcopy])
    | none =>
      rw [pieceAt_of_single hitem hcopy, pieceOf]
      cases hstatements : s.statements? i with
      | some statements => exact .lifted hi hstatements
      | none => exact .unsupported hi hstatements

theorem spells_of_mem_pieces {s : Setting} {m : Image} {position : Nat} {piece : Piece}
    (h : piece ∈ s.pieces m position) : s.Spells piece := by
  fun_induction s.pieces m position with
  | case1 position hlt ih =>
    rcases List.mem_cons.1 h with rfl | hrest
    · exact s.spells_pieceAt m position
    · exact ih hrest
  | case2 => cases h

end X86.Setting

/-! ## Stages -/

theorem LiftConfig.kept_isPrefix (config : LiftConfig) (pieces : List Piece) :
    config.kept pieces <+: pieces := by
  unfold kept
  split
  · exact List.take_prefix _ _
  · exact List.prefix_refl _

namespace Architecture

section

variable (a : Architecture) (m : Image) (entry : Address) (host : Host) (config : LiftConfig)

/-- The pieces that a lift takes, if it goes on behind what it cannot lift. -/
def taken : List Piece :=
  match m.position? entry with
  | none => []
  | some o => (config.kept ((⟨a.mode, host⟩ : Setting).pieces m o)).take config.limit

/-- What a lift knows behind the first `n` pieces. -/
def stage (n : Nat) : Progress :=
  ((a.taken m entry host config).take n).foldl (Setting.pass ⟨a.mode, host⟩) (a.atEntry entry)

end

variable {a : Architecture} {m : Image} {entry : Address} {host : Host} {config : LiftConfig}

/-- What is taken are the first pieces from the entry on. -/
theorem taken_isPrefix (a : Architecture) (host : Host) (config : LiftConfig) {o : Nat}
    (hentry : m.position? entry = some o) :
    a.taken m entry host config <+: (⟨a.mode, host⟩ : Setting).pieces m o := by
  rw [taken, hentry]
  exact (List.take_prefix _ _).trans (config.kept_isPrefix _)

theorem spells_of_taken {n : Nat} {piece : Piece}
    (h : (a.taken m entry host config)[n]? = some piece) :
    Setting.Spells ⟨a.mode, host⟩ piece := by
  have hmem := List.mem_of_getElem? h
  cases hentry : m.position? entry with
  | none =>
    rw [taken, hentry] at hmem
    cases hmem
  | some o => exact Setting.spells_of_mem_pieces ((a.taken_isPrefix host config hentry).mem hmem)

theorem stage_pass {n : Nat} {piece : Piece}
    (h : (a.taken m entry host config)[n]? = some piece) :
    a.stage m entry host config (n + 1) =
      Setting.pass ⟨a.mode, host⟩ (a.stage m entry host config n) piece := by
  rw [stage, List.take_add_one, h, Option.toList_some, List.foldl_append]
  rfl

/-- Behind a stage comes that of the next piece, which items spell, or nothing more is taken. -/
theorem stage_succ (a : Architecture) (m : Image) (entry : Address) (host : Host)
    (config : LiftConfig) (n : Nat) :
    (a.taken m entry host config)[n]? = none ∧
        a.stage m entry host config (n + 1) = a.stage m entry host config n ∨
      ∃ piece, (a.taken m entry host config)[n]? = some piece ∧
        Setting.Spells ⟨a.mode, host⟩ piece ∧
        a.stage m entry host config (n + 1) =
          Setting.pass ⟨a.mode, host⟩ (a.stage m entry host config n) piece := by
  cases h : (a.taken m entry host config)[n]? with
  | none =>
    refine .inl ⟨rfl, ?_⟩
    rw [stage, List.take_add_one, h, Option.toList_none, List.append_nil]
    rfl
  | some piece => exact .inr ⟨piece, rfl, spells_of_taken h, stage_pass h⟩

/-- All along a lift the state is one of the architecture's processor. -/
theorem processor_stage (a : Architecture) (m : Image) (entry : Address) (host : Host)
    (config : LiftConfig) (n : Nat) :
    (a.stage m entry host config n).state.processor = a.processor := by
  induction n with
  | zero =>
    change ((a.newState.setPointer entry).clear).processor = a.processor
    rw [Setting.processor_clear]
    unfold State.setPointer
    split <;> rfl
  | succ n ih =>
    rcases a.stage_succ m entry host config n with ⟨-, hsame⟩ | ⟨piece, -, hspells, hpass⟩
    · rwa [hsame]
    · rw [hpass, Setting.processor_pass _ hspells.isPiece, ih]

/-! ## Lifts -/

/-- Under either policy, a run ends with the clusters of the pieces that it takes, or fails at one
of them. -/
theorem collect_taken (host : Host) (config : LiftConfig) {o : Nat}
    (hentry : m.position? entry = some o) :
    let taken := a.taken m entry host config
    let result := (config.collect ⟨a.mode, host⟩ config.limit (a.entryRun m entry o)).1
    result = .ok (taken.map Piece.cluster, a.stage m entry host config taken.length) ∨
      ∃ e, result = .error e ∧ ∃ piece ∈ taken, piece.cluster = e.cluster := by
  obtain ⟨_, _, _, hmarked, hends⟩ :=
    config.collect_abort ⟨a.mode, host⟩ config.limit (a.entryRun m entry o)
  obtain ⟨_, hkept⟩ := (config.under .markPartial).collect_eq_kept rfl (s := ⟨a.mode, host⟩)
    config.limit (a.at_entryRun m entry o)
  cases hmarked.symm.trans hkept
  have hsame : config.under config.policy = config := rfl
  dsimp only
  rw [stage, List.take_length, taken, hentry]
  cases hpolicy : config.policy with
  | markPartial =>
    rw [hpolicy] at hsame
    rw [hsame] at hmarked
    rw [hmarked]
    exact .inl rfl
  | abort =>
    rw [hpolicy] at hsame
    unfold LiftConfig.EndsLike at hends
    rw [hsame] at hends
    split at hends
    · rw [hends]
      exact .inl rfl
    · next c hfind =>
      obtain ⟨e, _, haborted, rfl⟩ := hends
      rw [haborted]
      exact .inr ⟨e, rfl, List.mem_map.1 (List.mem_of_find?_eq_some hfind)⟩

/-- With full support, a lift from a mapped entry makes its procedure of the pieces that it takes,
or fails at one of them. -/
theorem lift_taken (host : Host) (config : LiftConfig) (hfull : a.support = .full) {o : Nat}
    (hentry : m.position? entry = some o) :
    let taken := a.taken m entry host config
    let result := (a.lift m entry host config).1
    result = .ok (a.finish entry (taken.map Piece.cluster)
        (a.stage m entry host config taken.length)).1 ∨
      ∃ e, result = .error (.instruction e) ∧ ∃ piece ∈ taken, piece.cluster = e.cluster := by
  have hcollect := collect_taken (a := a) host config hentry
  dsimp only at hcollect ⊢
  rw [lift_of_entry hfull host config hentry]
  unfold liftFrom
  unfold entryRun at hcollect
  dsimp only
  split
  · next e events hrun =>
    rw [hrun] at hcollect
    rcases hcollect with hok | ⟨_, herror, hpiece⟩
    · cases hok
    · cases herror
      exact .inr ⟨e, rfl, hpiece⟩
  · next clusters progress events hrun =>
    rw [hrun] at hcollect
    rcases hcollect with hok | ⟨_, herror, -⟩
    · cases hok
      exact .inl rfl
    · cases herror

/-- A lift that marks what it cannot lift makes its procedure of all pieces that it takes. -/
theorem lift_markPartial (hfull : a.support = .full) (host : Host)
    (hpolicy : config.policy = .markPartial) {o : Nat} (hentry : m.position? entry = some o) :
    ∃ events, a.lift m entry host config =
      (.ok (a.finish entry ((a.taken m entry host config).map Piece.cluster)
        (a.stage m entry host config (a.taken m entry host config).length)).1, events) := by
  obtain ⟨events, hcollect⟩ := LiftConfig.collect_eq_kept hpolicy (s := ⟨a.mode, host⟩)
    config.limit (a.at_entryRun m entry o)
  rw [stage, List.take_length, taken, hentry]
  exact lift_eq_ok hfull hentry hcollect

/-- A lift comes to its pieces unless support is missing or its entry is not mapped. -/
theorem entry_of_lift {result : Except ProcedureError Procedure} {events : List Event}
    (h : a.lift m entry host config = (result, events)) (himage : ∀ e, result ≠ .error (.image e))
    (hmissing : ∀ name capability, result ≠ .error (.missing name capability)) :
    a.support = .full ∧ ∃ o, m.position? entry = some o := by
  have hfull : a.support = .full := by
    cases hsupport : a.support with
    | full => rfl
    | tables | decoding =>
      simp only [lift, decodes, isFull, hsupport] at h
      cases h
      exact absurd rfl (hmissing _ _)
  cases hentry : m.position? entry with
  | none =>
    simp only [lift, decodes, isFull, hfull, reader, Reader.startingAt, hentry] at h
    cases h
    exact absurd rfl (himage _)
  | some o => exact ⟨hfull, o, rfl⟩

/-- A lift that succeeds has made its procedure of the pieces that it takes. -/
theorem eq_finish_of_lift {p : Procedure} {events : List Event}
    (h : a.lift m entry host config = (.ok p, events)) :
    a.support = .full ∧ (∃ o, m.position? entry = some o) ∧
      p = (a.finish entry ((a.taken m entry host config).map Piece.cluster)
        (a.stage m entry host config (a.taken m entry host config).length)).1 := by
  obtain ⟨hfull, o, hentry⟩ := entry_of_lift h nofun nofun
  refine ⟨hfull, ⟨o, hentry⟩, ?_⟩
  rcases lift_taken host config hfull hentry with hok | ⟨e, herror, -⟩
  · rw [h] at hok
    exact Except.ok.inj hok
  · rw [h] at herror
    cases herror

/-- What can be seen of the result of a lift is so of its procedure. -/
theorem exists_lift_of_map_eq_some {α : Type} {view : Procedure → α} {v : α}
    (h : (a.lift m entry host config).1.toOption.map view = some v) :
    ∃ p events, a.lift m entry host config = (.ok p, events) ∧ view p = v := by
  cases hlift : a.lift m entry host config with
  | mk result events =>
    rw [hlift] at h
    cases result with
    | error e => cases h
    | ok p => exact ⟨p, events, rfl, Option.some.inj h⟩

/-- A lift that fails on an instruction does so at one of its pieces. -/
theorem exists_taken_of_lift {e : X86.LiftError} {events : List Event}
    (h : a.lift m entry host config = (.error (.instruction e), events)) :
    ∃ piece ∈ a.taken m entry host config, piece.cluster = e.cluster := by
  obtain ⟨hfull, o, hentry⟩ := entry_of_lift h nofun nofun
  rcases lift_taken host config hfull hentry with hok | ⟨e, herror, hpiece⟩
  · rw [h] at hok
    cases hok
  · rw [h] at herror
    cases herror
    exact hpiece

end Architecture

end CodeLift
