-- SUMMARY: Lifts of parts of an image are the parts of its lift.
import CodeLift.Proofs.Image.Positions
import CodeLift.Proofs.Tiling
import CodeLift.Proofs.X86.PrefixCode

/-!
# Lifts compose

A lift divides an image into pieces: an instruction on its own, a register copy, or what
is passed over. `Setting.pieceAt` tells the piece at a position from the bytes there,
without a run, and `Setting.pass` what it does to the progress. A lift is then a fold over
the pieces from its entry on that it takes (`LiftConfig.collect_eq_kept`), and one that
nothing stops takes them all.

What precedes a piece has no say in it, and what is behind it can be cut off (`pieceAt_cut`).
So the pieces from the start of one on are what is left of the list (`pieces_drop`), and an
image that is cut off behind a piece has the pieces up to there (`pieces_cut`).
`Architecture.lift_composes` says both of lifts.
-/

namespace CodeLift

open X86 (Feed LiftError Mode Progress Run Setting Taken clusterOf copyCluster decode_of_take
  decode_take_of_le)

/-! ## Pieces -/

/-- What a lift takes the bytes at a position for. -/
inductive X86.Piece where
  | undecodable (a : Address)
  | unsupported (i : Instruction)
  | lifted (i : Instruction) (statements : List Stmt)
  | copied (push pop : Instruction) (src dst : Register)

open X86 (Piece)

/-- The cluster of a piece where what cannot be lifted leaves an invalid one. -/
def X86.Piece.cluster : Piece → Cluster
  | .undecodable a => ⟨a, 1, [.invalid]⟩
  | .unsupported i => ⟨i.address, i.length, [.invalid]⟩
  | .lifted i statements => ⟨i.address, i.length, statements⟩
  | .copied push pop src dst => copyCluster push pop src dst

namespace X86.Setting

variable (s : Setting)

/-- The progress behind a piece. -/
def pass (p : Progress) : Piece → Progress
  | .undecodable _ => p
  | .unsupported i => p.arrive i
  | .lifted i _ => (s.execute i (p.arrive i)).1
  | .copied push _ src dst => (p.arrive push).copy src dst

/-- The piece of an instruction on its own. -/
def pieceOf (i : Instruction) : Piece :=
  match s.statements? i with
  | some statements => .lifted i statements
  | none => .unsupported i

/-- The piece at a position of an image. -/
def pieceAt (m : Image) (position : Nat) : Piece :=
  match m.item s.mode position with
  | .error e => .undecodable e.address
  | .ok i =>
    match s.copy? i (m.item s.mode (position + i.length)) with
    | some (pop, src, dst) => .copied i pop src dst
    | none => s.pieceOf i

theorem length_pieceOf (i : Instruction) : (s.pieceOf i).cluster.length = i.length := by
  unfold pieceOf
  split <;> rfl

/-- An error is never the pop of a register copy. -/
theorem copy?_error (push : Instruction) (e : DecodeError) : s.copy? push (.error e) = none := by
  cases hcopy : s.copy? push (.error e) with
  | none => rfl
  | some copy => cases (copy?_eq_some.1 hcopy).1

variable {s : Setting} {m : Image} {position : Nat}

theorem pieceAt_of_error {e : DecodeError} (hitem : m.item s.mode position = .error e) :
    s.pieceAt m position = .undecodable e.address := by
  simp only [pieceAt, hitem]

theorem pieceAt_of_copy? {push pop : Instruction} {src dst : Register}
    (hitem : m.item s.mode position = .ok push)
    (hcopy : s.copy? push (m.item s.mode (position + push.length)) = some (pop, src, dst)) :
    s.pieceAt m position = .copied push pop src dst := by
  simp only [pieceAt, hitem, hcopy]

theorem pieceAt_of_single {i : Instruction} (hitem : m.item s.mode position = .ok i)
    (hsingle : s.copy? i (m.item s.mode (position + i.length)) = none) :
    s.pieceAt m position = s.pieceOf i := by
  simp only [pieceAt, hitem, hsingle]

theorem covers_pieceAt (s : Setting) (m : Image) (position : Nat) :
    Covers s m position (s.pieceAt m position).cluster := by
  cases hitem : m.item s.mode position with
  | error e =>
    rw [pieceAt_of_error hitem]
    exact .undecodable hitem
  | ok i =>
    cases hcopy : s.copy? i (m.item s.mode (position + i.length)) with
    | some copy =>
      obtain ⟨pop, src, dst⟩ := copy
      have hpop : m.item s.mode (position + i.length) = .ok pop := (copy?_eq_some.1 hcopy).1
      rw [pieceAt_of_copy? hitem hcopy]
      exact .copy hitem hpop (by rw [← hpop, hcopy])
    | none =>
      rw [pieceAt_of_single hitem hcopy, pieceOf]
      cases hstatements : s.statements? i with
      | some statements => exact .instruction hitem hstatements
      | none => exact .unsupported hitem hstatements

theorem length_pieceAt_pos (s : Setting) (hlt : position < m.size) :
    0 < (s.pieceAt m position).cluster.length :=
  ((covers_pieceAt s m position).length hlt).1

/-- The pieces of an image from a position on. -/
def pieces (s : Setting) (m : Image) (position : Nat) : List Piece :=
  if _hlt : position < m.size then
    s.pieceAt m position :: s.pieces m (position + (s.pieceAt m position).cluster.length)
  else []
termination_by m.size - position
decreasing_by
  have hpos := length_pieceAt_pos s _hlt
  omega

theorem pieces_of_le (h : m.size ≤ position) : s.pieces m position = [] := by
  rw [pieces, dif_neg (Nat.not_lt.2 h)]

theorem pieces_of_lt (h : position < m.size) :
    s.pieces m position =
      s.pieceAt m position :: s.pieces m (position + (s.pieceAt m position).cluster.length) := by
  rw [pieces, dif_pos h]

/-- There are no more pieces than bytes. -/
theorem length_pieces_le (s : Setting) (m : Image) (position : Nat) :
    (s.pieces m position).length ≤ m.size - position := by
  fun_induction s.pieces m position with
  | case1 position hlt ih =>
    have hpos := length_pieceAt_pos s hlt
    simp only [List.length_cons]
    omega
  | case2 => exact Nat.zero_le _

/-- The pieces leave no byte out. -/
theorem extent_pieces (s : Setting) (h : position ≤ m.size) :
    extent ((s.pieces m position).map Piece.cluster) = m.size - position := by
  fun_induction s.pieces m position with
  | case1 position hlt ih =>
    obtain ⟨-, hfits⟩ := (covers_pieceAt s m position).length hlt
    rw [List.map_cons, extent, ih hfits]
    omega
  | case2 position hend =>
    rw [List.map_nil, extent]
    omega

/-! ## Runs and their pieces -/

/-- An instruction that is not merged with the next item of the feed is not merged with the item of
the image there, also if the feed is at its end. -/
theorem copy?_item_eq_none {feed : Feed} {i : Instruction} (hat : feed.At m s.mode position)
    (hsingle : ∀ next, feed.next? = some next → s.copy? i next.item = none) :
    s.copy? i (m.item s.mode position) = none := by
  cases hitem : m.item s.mode position with
  | error e => exact s.copy?_error i e
  | ok j =>
    have hlength := Image.length_of_item hitem
    obtain ⟨next, hnext, hread, -⟩ := hat.next? (by omega)
    rw [← hitem, ← hread]
    exact hsingle next hnext

/-- The piece that a run takes next. -/
def piece? (s : Setting) (r : Run) : Option Piece :=
  r.item?.map fun taken =>
    match taken.item with
    | .error e => .undecodable e.address
    | .ok i =>
      match taken.rest.next?.bind fun next => s.copy? i next.item with
      | some (pop, src, dst) => .copied i pop src dst
      | none => s.pieceOf i

/-- What is lifted on its own has the statements of its piece. -/
theorem statements?_of_piece? {r : Run} {i : Instruction} {statements : List Stmt}
    (h : s.piece? r = some (.lifted i statements)) : s.statements? i = some statements := by
  obtain ⟨taken, -, hpiece⟩ := Option.map_eq_some_iff.1 h
  split at hpiece
  · cases hpiece
  · split at hpiece
    · cases hpiece
    · unfold pieceOf at hpiece
      split at hpiece
      · next hstatements =>
        cases hpiece
        exact hstatements
      · cases hpiece

/-- A step takes the next piece of its run. -/
theorem Step.piece? {r r' : Run} {result : Except LiftError Cluster} (h : s.Step r result r') :
    ∃ piece, s.piece? r = some piece ∧ clusterOf result = piece.cluster ∧
      r'.progress = s.pass r.progress piece := by
  have hsingle : ∀ {taken : Taken} {i : Instruction},
      (∀ next, taken.rest.next? = some next → s.copy? i next.item = none) →
        (taken.rest.next?.bind fun next => s.copy? i next.item) = none :=
    fun hnone => Option.bind_eq_none_iff.2 hnone
  unfold Setting.piece?
  cases h with
  | undecodable hitem herror hprogress hrest =>
    refine ⟨.undecodable _, ?_, rfl, hprogress⟩
    rw [hitem, Option.map_some, herror]
    rfl
  | unsupported hitem hok hstatements hprogress hrest hnone =>
    refine ⟨.unsupported _, ?_, rfl, hprogress⟩
    simp only [hitem, Option.map_some, hok, hsingle hnone, pieceOf, hstatements]
  | lifted hitem hok hstatements hprogress hrest hnone =>
    refine ⟨.lifted _ _, ?_, rfl, hprogress⟩
    simp only [hitem, Option.map_some, hok, hsingle hnone, pieceOf, hstatements]
  | copied hitem hok hnext hcopy hprogress hrest =>
    refine ⟨.copied _ _ _ _, ?_, rfl, hprogress⟩
    simp only [hitem, Option.map_some, hok, hnext, Option.bind_some, hcopy]

/-- In front of a position of an image, the next piece is the one there. -/
theorem piece?_of_at {r : Run} (hat : r.At m s.mode position) (hlt : position < m.size) :
    s.piece? r = some (s.pieceAt m position) := by
  obtain ⟨taken, hfirst, hread, hbehind⟩ := hat.item? hlt
  unfold Setting.piece?
  rw [hfirst, Option.map_some]
  cases hitem : taken.item with
  | error e => rw [pieceAt_of_error (hread.symm.trans hitem)]
  | ok i =>
    rw [hitem] at hread hbehind
    cases hnext : taken.rest.next?.bind fun next => s.copy? i next.item with
    | none =>
      have hsingle := copy?_item_eq_none hbehind (Option.bind_eq_none_iff.1 hnext)
      simp only [pieceAt_of_single hread.symm hsingle, hnext]
    | some copy =>
      obtain ⟨pop, src, dst⟩ := copy
      obtain ⟨next, hfollower, hcopy⟩ := Option.bind_eq_some_iff.1 hnext
      rw [(hbehind.of_next? hfollower).1] at hcopy
      simp only [pieceAt_of_copy? hread.symm hcopy, hnext]

/-- A step takes the piece at the position of its run. -/
theorem Step.piece {r r' : Run} {result : Except LiftError Cluster} (h : s.Step r result r')
    (hat : r.At m s.mode position) (hlt : position < m.size) :
    clusterOf result = (s.pieceAt m position).cluster ∧
      r'.progress = s.pass r.progress (s.pieceAt m position) := by
  obtain ⟨piece, hpiece, hcluster, hprogress⟩ := h.piece?
  cases (piece?_of_at hat hlt).symm.trans hpiece
  exact ⟨hcluster, hprogress⟩

end X86.Setting

open X86.Setting (pieces_of_le pieces_of_lt)

namespace LiftConfig

variable (config : LiftConfig)

/-- What a lift takes of the pieces in front of it when there is no limit: all of them, or those up
to and including the first whose cluster control leaves. -/
def kept (pieces : List Piece) : List Piece :=
  if config.stops then pieces.take (pieces.findIdx (fun piece => piece.cluster.leaves) + 1)
  else pieces

theorem kept_of_not_stops (hstops : config.stops = false) (pieces : List Piece) :
    config.kept pieces = pieces := by
  simp only [kept, hstops, Bool.false_eq_true, if_false]

theorem kept_nil : config.kept [] = [] := by
  unfold kept
  split <;> rfl

variable {config} {piece : Piece}

theorem kept_cons_of_leaves (h : (config.stops && piece.cluster.leaves) = true)
    (rest : List Piece) : config.kept (piece :: rest) = [piece] := by
  obtain ⟨hstops, hleaves⟩ := Bool.and_eq_true_iff.1 h
  simp [kept, hstops, List.findIdx_cons, hleaves]

theorem kept_cons (h : (config.stops && piece.cluster.leaves) = false) (rest : List Piece) :
    config.kept (piece :: rest) = piece :: config.kept rest := by
  unfold kept
  cases hstops : config.stops with
  | false => rfl
  | true =>
    have hgoes : piece.cluster.leaves = false := by simpa [hstops] using h
    simp [List.findIdx_cons, hgoes]

/-- A run at a position gives the clusters of the pieces that it takes from there on, and its
progress is that of passing them one after another. -/
theorem collect_eq_kept (hpolicy : config.policy = .markPartial) {s : Setting} {m : Image} (n : Nat)
    {position : Nat} {r : Run} (hat : r.At m s.mode position) :
    ∃ events, config.collect s n r =
      (.ok (((config.kept (s.pieces m position)).take n).map Piece.cluster,
        ((config.kept (s.pieces m position)).take n).foldl s.pass r.progress), events) := by
  induction n generalizing position r with
  | zero => exact ⟨[], rfl⟩
  | succ n ih =>
    rcases Nat.lt_or_ge position m.size with hlt | hend
    · obtain ⟨taken, hitem, -⟩ := hat.item? hlt
      cases hnext : s.next? r with
      | none =>
        rw [X86.Setting.next?_eq_none.1 hnext] at hitem
        cases hitem
      | some step =>
        obtain ⟨outcome, r'⟩ := step
        have hstep := X86.Setting.step_of_next? hnext
        obtain ⟨hcluster, hprogress⟩ := hstep.piece hat hlt
        obtain ⟨-, hat'⟩ := hstep.covers hat hlt
        obtain ⟨events, haccept⟩ := accept_markPartial hpolicy outcome
        rw [hcluster] at haccept hat'
        rw [pieces_of_lt hlt]
        cases hstop : config.stops && (s.pieceAt m position).cluster.leaves with
        | true =>
          refine ⟨events, ?_⟩
          simp [collect, hnext, haccept, hstop, hprogress, kept_cons_of_leaves hstop]
        | false =>
          obtain ⟨more, hcollect⟩ := ih hat'
          refine ⟨events ++ more, ?_⟩
          simp [collect, hnext, haccept, hstop, hcollect, hprogress, kept_cons hstop, Except.map]
    · refine ⟨[], ?_⟩
      rw [pieces_of_le hend, kept_nil]
      simp [collect, X86.Setting.next?_eq_none.2 (hat.item?_eq_none hend)]

/-- A run that no transfer ends takes all pieces that its limit leaves room for. -/
theorem collect_eq_foldl (hpolicy : config.policy = .markPartial) (hstops : config.stops = false)
    {s : Setting} {m : Image} (n : Nat) {position : Nat} {r : Run}
    (hat : r.At m s.mode position) :
    ∃ events, config.collect s n r =
      (.ok (((s.pieces m position).take n).map Piece.cluster,
        ((s.pieces m position).take n).foldl s.pass r.progress), events) := by
  obtain ⟨events, hcollect⟩ := collect_eq_kept hpolicy n hat
  rw [config.kept_of_not_stops hstops] at hcollect
  exact ⟨events, hcollect⟩

end LiftConfig

/-! ## Parts of an image -/

/-- The image without its bytes from `stop` on. -/
def Image.cut (m : Image) (stop : Nat) : Image := { m with bytes := m.bytes.take stop }

namespace Image

variable {m : Image} {mode : Mode} {position stop : Nat} {i : Instruction}

@[simp] theorem addressAt_cut : (m.cut stop).addressAt position = m.addressAt position := rfl

@[simp] theorem size_cut : (m.cut stop).size = min stop m.size := List.length_take

theorem item_cut : (m.cut stop).item mode position =
    X86.decode mode (m.addressAt position) ((m.bytes.drop position).take (stop - position)) := by
  rw [← List.drop_take]
  rfl

/-- What decodes in the cut image decodes in the whole one. -/
theorem item_of_cut (h : (m.cut stop).item mode position = .ok i) :
    m.item mode position = .ok i := by
  rw [item_cut] at h
  exact decode_of_take h

/-- An instruction in front of the cut is still there. -/
theorem item_cut_of_le (h : m.item mode position = .ok i) (hstop : position + i.length ≤ stop) :
    (m.cut stop).item mode position = .ok i := by
  rw [item_cut]
  exact decode_take_of_le h (by omega)

theorem position?_cut {a : Address} (h : m.position? a = some position) (hstop : position ≤ stop) :
    (m.cut stop).position? a = some position := by
  obtain ⟨hlinear, hle⟩ := position?_eq_some_iff.1 h
  exact position?_eq_some_iff.2 ⟨hlinear, by rw [size_cut]; exact Nat.le_min.2 ⟨hstop, hle⟩⟩

/-- In an image that fits its space, the address of a byte is at its position. -/
theorem position?_addressAt (hfits : m.base.offset + m.size ≤ m.base.space.size)
    (hlt : position < m.size) : m.position? (m.addressAt position) = some position :=
  (position?_addressAt_iff (Nat.le_of_lt hlt)).2 (by omega)

end Image

namespace X86.Setting

variable {s : Setting} {m : Image} {position stop : Nat}

/-- Whatever is behind a piece can be cut off. -/
theorem pieceAt_cut (h : position + (s.pieceAt m position).cluster.length ≤ stop) :
    s.pieceAt (m.cut stop) position = s.pieceAt m position := by
  cases hitem : m.item s.mode position with
  | error e =>
    cases hcut : (m.cut stop).item s.mode position with
    | ok j => cases hitem.symm.trans (Image.item_of_cut hcut)
    | error e' =>
      rw [pieceAt_of_error hitem, pieceAt_of_error hcut, Image.address_of_item_error hitem,
        Image.address_of_item_error hcut, Image.addressAt_cut]
  | ok i =>
    cases hcopy : s.copy? i (m.item s.mode (position + i.length)) with
    | some copy =>
      obtain ⟨pop, src, dst⟩ := copy
      have hpop : m.item s.mode (position + i.length) = .ok pop := (copy?_eq_some.1 hcopy).1
      rw [pieceAt_of_copy? hitem hcopy] at h ⊢
      simp only [Piece.cluster, copyCluster] at h
      have hpush' : (m.cut stop).item s.mode position = .ok i :=
        Image.item_cut_of_le hitem (by omega)
      have hpop' : (m.cut stop).item s.mode (position + i.length) = .ok pop :=
        Image.item_cut_of_le hpop (by omega)
      exact pieceAt_of_copy? hpush' (by rw [hpop', ← hpop, hcopy])
    | none =>
      have hi : (m.cut stop).item s.mode position = .ok i :=
        Image.item_cut_of_le hitem (by rwa [pieceAt_of_single hitem hcopy, length_pieceOf] at h)
      -- Behind the instruction the cut image has the same item, or none at all.
      have hsingle : s.copy? i ((m.cut stop).item s.mode (position + i.length)) = none := by
        cases hfollower : (m.cut stop).item s.mode (position + i.length) with
        | error e => exact s.copy?_error i e
        | ok j => rwa [← Image.item_of_cut hfollower]
      rw [pieceAt_of_single hitem hcopy, pieceAt_of_single hi hsingle]

/-- The pieces from the start of one on are that one and those behind it. -/
theorem pieces_drop (s : Setting) (m : Image) (n position : Nat) :
    s.pieces m (position + extent (((s.pieces m position).take n).map Piece.cluster)) =
      (s.pieces m position).drop n := by
  induction n generalizing position with
  | zero => rfl
  | succ n ih =>
    rcases Nat.lt_or_ge position m.size with hlt | hend
    · have hrest := ih (position + (s.pieceAt m position).cluster.length)
      rw [pieces_of_lt hlt]
      simpa only [List.take_succ_cons, List.map_cons, extent, List.drop_succ_cons, Nat.add_assoc]
        using hrest
    · rw [pieces_of_le hend]
      exact pieces_of_le hend

/-- A piece is the one at the position where those before it end. -/
theorem piece_of_getElem? {i : Nat} {piece : Piece} (h : (s.pieces m position)[i]? = some piece) :
    let here := position + extent (((s.pieces m position).take i).map Piece.cluster)
    here < m.size ∧ piece = s.pieceAt m here := by
  intro here
  have hfirst : (s.pieces m here)[0]? = some piece := by
    rw [pieces_drop s m i, List.getElem?_drop, Nat.add_zero, h]
  rcases Nat.lt_or_ge here m.size with hlt | hend
  · rw [pieces_of_lt hlt] at hfirst
    cases hfirst
    exact ⟨hlt, rfl⟩
  · rw [pieces_of_le hend] at hfirst
    cases hfirst

/-- The pieces of the image that is cut off behind one are those up to it. -/
theorem pieces_cut (s : Setting) (m : Image) (n position : Nat)
    (hstop : stop = position + extent (((s.pieces m position).take n).map Piece.cluster)) :
    s.pieces (m.cut stop) position = (s.pieces m position).take n := by
  induction n generalizing position with
  | zero =>
    cases hstop
    exact pieces_of_le (by rw [Image.size_cut]; exact Nat.min_le_left _ _)
  | succ n ih =>
    rcases Nat.lt_or_ge position m.size with hlt | hend
    · rw [pieces_of_lt hlt, List.take_succ_cons, List.map_cons, extent] at hstop
      have hpos := length_pieceAt_pos s hlt
      have hcut : s.pieceAt (m.cut stop) position = s.pieceAt m position := pieceAt_cut (by omega)
      have hrest := ih (position + (s.pieceAt m position).cluster.length) (by omega)
      rw [pieces_of_lt (by rw [Image.size_cut]; omega), hcut, hrest, pieces_of_lt hlt,
        List.take_succ_cons]
    · rw [pieces_of_le hend, pieces_of_le (by rw [Image.size_cut]; omega)]
      rfl

end X86.Setting

/-! ## Lifts -/

namespace Architecture

/-- A lift that nothing stops makes a procedure of the first pieces from its entry on. -/
theorem lift_eq_finish {a : Architecture} (hfull : a.support = .full) {m : Image}
    {entry : Address} (host : Host) (config : LiftConfig) {o : Nat}
    (hentry : m.position? entry = some o) (hpolicy : config.policy = .markPartial)
    (hstops : config.stops = false) {ps : List Piece}
    (hps : ((⟨a.mode, host⟩ : Setting).pieces m o).take config.limit = ps) :
    ∃ events, a.lift m entry host config =
      (.ok (a.finish entry (ps.map Piece.cluster)
        (ps.foldl (Setting.pass ⟨a.mode, host⟩) (a.atEntry entry))).1, events) := by
  obtain ⟨events, hcollect⟩ := LiftConfig.collect_eq_foldl hpolicy hstops (s := ⟨a.mode, host⟩)
    config.limit (a.at_entryRun m entry o)
  rw [hps] at hcollect
  exact lift_eq_ok hfull hentry hcollect

/-- Lifts compose if neither a failure nor a transfer ends them, the limit leaves room for all
bytes, and the image fits its address space. The clusters of a lift leave no byte out. A lift from
the address of one of them gives that cluster and those behind it. A lift of the image that is cut
off at the end of one gives the clusters up to there, and the same procedure, with its frame,
signature and state, as a lift of the whole image that is limited to as many clusters. -/
theorem lift_composes (mode : Mode) (kept : Options) (m : Image) (entry : Address) (host : Host)
    (config : LiftConfig) {o : Nat} (hentry : m.position? entry = some o)
    (hpolicy : config.policy = .markPartial) (hstops : config.stops = false)
    (hlimit : m.size - o ≤ config.limit) (hfits : m.base.offset + m.size ≤ m.base.space.size) :
    let a : Architecture := ⟨mode, .full, kept⟩
    ∃ p events, a.lift m entry host config = (.ok p, events) ∧
      extent p.clusters = m.size - o ∧
      (∀ i c, p.clusters[i]? = some c →
        c.address = m.addressAt (o + extent (p.clusters.take i)) ∧
        c.next = m.addressAt (o + extent (p.clusters.take (i + 1))) ∧
        ∃ q events', a.lift m c.address host config = (.ok q, events') ∧
          q.clusters = p.clusters.drop i) ∧
      ∀ n,
        ∃ q events₁ events₂,
          a.lift (m.cut (o + extent (p.clusters.take n))) entry host config = (.ok q, events₁) ∧
          a.lift m entry host { config with limit := n } = (.ok q, events₂) ∧
          q.clusters = p.clusters.take n := by
  intro a
  let s : Setting := ⟨mode, host⟩
  have hall : ∀ (m : Image) (here : Nat), m.size - here ≤ config.limit →
      (s.pieces m here).take config.limit = s.pieces m here := fun m here h =>
    List.take_of_length_le (Nat.le_trans (s.length_pieces_le m here) h)
  obtain ⟨events, hlift⟩ := lift_eq_finish (a := a) rfl host config hentry hpolicy hstops
    (hall m o hlimit)
  have ho : o ≤ m.size := Image.le_size_of_position? hentry
  refine ⟨_, events, hlift, s.extent_pieces ho, ?_, ?_⟩
  · intro i c hc
    have hnext : extent (((s.pieces m o).map Piece.cluster).take (i + 1)) =
        extent (((s.pieces m o).map Piece.cluster).take i) + c.length := extent_take_succ hc
    obtain ⟨piece, hpiece, rfl⟩ : ∃ piece, (s.pieces m o)[i]? = some piece ∧ piece.cluster = c := by
      simpa [finish] using hc
    obtain ⟨hlt, rfl⟩ := s.piece_of_getElem? hpiece
    have hcovers := s.covers_pieceAt m (o + extent (((s.pieces m o).take i).map Piece.cluster))
    rw [← List.map_take] at hnext
    simp only [finish, ← List.map_take, ← List.map_drop, hnext, ← Nat.add_assoc]
    have hhere := s.pieces_drop m i o
    obtain ⟨events', hlift'⟩ := lift_eq_finish (a := a) rfl host config
      (hcovers.address ▸ Image.position?_addressAt hfits hlt) hpolicy hstops (hall m _ (by omega))
    refine ⟨hcovers.address, hcovers.next, _, events', hlift', ?_⟩
    rw [← hhere]
    rfl
  · intro n
    simp only [finish, ← List.map_take]
    obtain ⟨events₁, hcut⟩ := lift_eq_finish (a := a) rfl host config
      (Image.position?_cut hentry (Nat.le_add_right _ _)) hpolicy hstops
      ((hall _ _ (by rw [Image.size_cut]; omega)).trans (s.pieces_cut m n o rfl))
    obtain ⟨events₂, hlimited⟩ := lift_eq_finish (a := a) rfl host { config with limit := n }
      hentry hpolicy hstops rfl
    exact ⟨_, events₁, events₂, hcut, hlimited, rfl⟩

/-- A register copy, a byte that does not decode, an instruction that cannot be lifted and a return
at the very end of a segment: the lift from the address behind the copy, and the image cut off
there. -/
theorem lift_composes_behind_copy :
    let a : Architecture := ⟨.real16, .full, []⟩
    let m : Image :=
      ⟨⟨.segment 0x0C00, 0xFFF9, by decide⟩, [0x90, 0x0E, 0x1F, 0xF4, 0x11, 0xD8, 0xC3]⟩
    let entry := m.addressAt 1
    let config : LiftConfig := ⟨10, .markPartial, false⟩
    m.position? entry = some 1 ∧ config.policy = .markPartial ∧ config.stops = false ∧
      m.size - 1 ≤ config.limit ∧ m.base.offset + m.size ≤ m.base.space.size ∧
      ∃ p events, a.lift m entry .silent config = (.ok p, events) ∧
        p.clusters.map Cluster.length = [2, 1, 2, 1] ∧
        (∃ q events', a.lift m (m.addressAt 3) .silent config = (.ok q, events') ∧
          q.clusters = p.clusters.drop 1) ∧
        ∃ q events₁ events₂, a.lift (m.cut 3) entry .silent config = (.ok q, events₁) ∧
          a.lift m entry .silent { config with limit := 1 } = (.ok q, events₂) ∧
          q.clusters = p.clusters.take 1 := by
  intro a m entry config
  have hentry : m.position? entry = some 1 := by decide
  obtain ⟨p, events, hlift, -, hsuffix, hprefix⟩ :=
    lift_composes .real16 [] m entry .silent config hentry rfl rfl (by decide) (by decide)
  have hlengths : p.clusters.map Cluster.length = [2, 1, 2, 1] := by
    have hcomputed : (a.lift m entry .silent config).1.toOption.map
        (fun p => p.clusters.map Cluster.length) = some [2, 1, 2, 1] := by decide +kernel
    rw [hlift] at hcomputed
    exact Option.some.inj hcomputed
  obtain ⟨copy, behind, hclusters, hcopy, hbehind⟩ := List.map_eq_cons_iff.1 hlengths
  obtain ⟨c, _, rfl, _⟩ := List.map_eq_cons_iff.1 hbehind
  have hextent : extent (p.clusters.take 1) = 2 := by simp [hclusters, extent, hcopy]
  obtain ⟨haddress, -, hrest⟩ := hsuffix 1 c (by rw [hclusters]; rfl)
  have hfirst := hprefix 1
  rw [hextent] at haddress hfirst
  rw [haddress] at hrest
  exact ⟨hentry, rfl, rfl, by decide, by decide, p, events, hlift, hlengths, hrest, hfirst⟩

end Architecture

end CodeLift
