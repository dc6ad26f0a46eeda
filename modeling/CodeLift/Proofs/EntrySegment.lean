-- SUMMARY: A lift stays in the segment of its image, which is that of the entry or is not.
import CodeLift.Proofs.Image.Positions
import CodeLift.Proofs.Stages

/-!
# The segment of the entry

Many pairs of a selector and an offset name one byte, so the entry of a lift may be written
in another segment than the image. It is looked up by its linear address, and from there on
all addresses are counted from the base of the image: the clusters are in the segment of
the image, and the code segment register is set to its selector at each instruction.

So a lift stays in the segment of its entry, and starts at the address that it was asked
for, if and only if the entry has the selector of the image, or there are no clusters
(`Architecture.stays_in_segment_iff`).
-/

namespace CodeLift

open X86 (Mode Piece Progress Setting cs processor)

/-! ## Addresses of pieces -/

theorem X86.Piece.address_instruction {piece : Piece} {i : Instruction}
    (h : piece.instructions.head? = some i) : i.address = piece.cluster.address := by
  cases piece with
  | undecodable => cases h
  | unsupported | lifted | copied =>
    cases h
    rfl

/-- Addresses with one selector are in one segment. -/
theorem Address.space_eq_of_selector? {a b : Address} {selector : UInt16}
    (ha : a.selector? = some selector) (hb : b.selector? = some selector) : a.space = b.space := by
  have hspace : ∀ {c : Address}, c.selector? = some selector → c.space = .segment selector := by
    intro c hc
    unfold selector? at hc
    split at hc
    · cases hc
    · next hspace =>
      cases hc
      exact hspace
  rw [hspace ha, hspace hb]

/-- Behind an instruction in a segment, the code segment register has its selector. -/
theorem X86.register_cs_arrive {p : Progress} {i : Instruction} {selector : UInt16}
    (hprocessor : p.state.processor = processor .real16)
    (hselector : i.address.selector? = some selector) :
    (p.arrive i).state.register cs = .known 16 selector.toNat := by
  have hlow : selector.toNat % modulus (min cs.bits 128) = selector.toNat :=
    Nat.mod_eq_of_lt selector.toNat_lt
  rw [(p.moved_arrive i).selector cs selector (by rw [hprocessor]; rfl) hselector, Constant.ofNat,
    hlow]
  rfl

/-! ## Lifts -/

namespace Architecture

variable {a : Architecture} {m : Image} {entry : Address} {host : Host} {config : LiftConfig}

/-- The clusters of a lift are at addresses of the image, the first at that of the entry's
position. -/
theorem address_of_taken {o : Nat} (hentry : m.position? entry = some o) {n : Nat} {piece : Piece}
    (h : (a.taken m entry host config)[n]? = some piece) :
    ∃ position, piece.cluster.address = m.addressAt position ∧ (n = 0 → position = o) := by
  have hpiece : ((⟨a.mode, host⟩ : Setting).pieces m o)[n]? = some piece := by
    obtain ⟨rest, hrest⟩ := a.taken_isPrefix host config hentry
    rw [← hrest, List.getElem?_append_left (List.getElem?_eq_some_iff.1 h).1, h]
  obtain ⟨-, rfl⟩ := Setting.piece_of_getElem? hpiece
  refine ⟨_, (Setting.covers_pieceAt _ m _).address, ?_⟩
  rintro rfl
  rfl

/-- A lift stays in a segment: its first cluster is at the entry, all of them have the selector, and
the code segment register has it at every instruction. -/
structure StaysIn (a : Architecture) (m : Image) (entry : Address) (host : Host)
    (config : LiftConfig) (clusters : List Cluster) (selector : UInt16) : Prop where
  first : ∀ c, clusters.head? = some c → c.address = entry
  selectors : ∀ c ∈ clusters, c.address.selector? = some selector
  seeded : ∀ n piece i, (a.taken m entry host config)[n]? = some piece →
    piece.instructions.head? = some i →
      ((a.stage m entry host config n).arrive i).state.register cs = .known 16 selector.toNat

/-- In real mode all clusters are in the segment of the image. A lift stays in the segment of its
entry if and only if that is the one of the image, or there are no clusters. -/
theorem stays_in_segment_iff (kept : Options) {m : Image} {entry : Address} {host : Host}
    {config : LiftConfig} {p : Procedure} {events : List Event} {base selector : UInt16}
    (hbase : m.base.selector? = some base) (hentry : entry.selector? = some selector)
    (h : Architecture.lift ⟨.real16, .full, kept⟩ m entry host config = (.ok p, events)) :
    (∀ c ∈ p.clusters, c.address.selector? = some base) ∧
      (StaysIn ⟨.real16, .full, kept⟩ m entry host config p.clusters selector ↔
        p.clusters = [] ∨ selector = base) := by
  obtain ⟨-, ⟨o, hposition⟩, rfl⟩ := eq_finish_of_lift h
  set a : Architecture := ⟨.real16, .full, kept⟩
  change (∀ c ∈ (a.taken m entry host config).map Piece.cluster, _) ∧
    (StaysIn a m entry host config ((a.taken m entry host config).map Piece.cluster) _ ↔
      (a.taken m entry host config).map Piece.cluster = [] ∨ _)
  have hpieces : ∀ (n : Nat) (piece : Piece),
      (a.taken m entry host config)[n]? = some piece →
        piece.cluster.address.selector? = some base := by
    intro n piece hpiece
    obtain ⟨position, haddress, -⟩ := address_of_taken hposition hpiece
    rw [haddress]
    exact hbase
  have hclusters : ∀ c ∈ (a.taken m entry host config).map Piece.cluster,
      c.address.selector? = some base := by
    intro c hc
    obtain ⟨piece, hpiece, rfl⟩ := List.mem_map.1 hc
    obtain ⟨n, hn⟩ := List.mem_iff_getElem?.1 hpiece
    exact hpieces n piece hn
  refine ⟨hclusters, fun hstays => ?_, ?_⟩
  · cases hall : (a.taken m entry host config).map Piece.cluster with
    | nil => exact .inl rfl
    | cons c rest =>
      have hc : c ∈ (a.taken m entry host config).map Piece.cluster := by simp [hall]
      exact .inr (Option.some.inj ((hstays.selectors c hc).symm.trans (hclusters c hc)))
  · rintro (hnone | rfl)
    · have hempty := List.map_eq_nil_iff.1 hnone
      rw [hnone]
      refine ⟨nofun, nofun, fun n piece i hpiece => ?_⟩
      rw [hempty] at hpiece
      cases hpiece
    · refine ⟨fun c hc => ?_, hclusters, fun n piece i hpiece hi => ?_⟩
      · rw [List.head?_map] at hc
        obtain ⟨piece, hpiece, rfl⟩ := Option.map_eq_some_iff.1 hc
        rw [List.head?_eq_getElem?] at hpiece
        obtain ⟨position, haddress, hfirst⟩ := address_of_taken hposition hpiece
        rw [haddress, hfirst rfl]
        exact Image.addressAt_of_position? hposition (Address.space_eq_of_selector? hentry hbase)
      · refine X86.register_cs_arrive (a.processor_stage m entry host config n) ?_
        rw [Piece.address_instruction hi, hpieces n piece hpiece]

/-- Around the end of the segment of image and entry, `mov ax, cs` and a return. -/
theorem stays_in_segment_iff_around_end :
    let m : Image := ⟨⟨.segment 0x0C00, 0xFFFE, by decide⟩, [0x90, 0x8C, 0xC8, 0xC3]⟩
    let entry : Address := ⟨.segment 0x0C00, 0xFFFF, by decide⟩
    ∃ p events, m.base.selector? = some 0x0C00 ∧ entry.selector? = some 0x0C00 ∧
      Architecture.lift ⟨.real16, .full, []⟩ m entry .silent .standard = (.ok p, events) ∧
      p.clusters.map (·.address.offset) = [0xFFFF, 1] ∧
      StaysIn ⟨.real16, .full, []⟩ m entry .silent .standard p.clusters 0x0C00 := by
  intro m entry
  obtain ⟨p, events, hlift, hoffsets⟩ : ∃ p events,
      Architecture.lift ⟨.real16, .full, []⟩ m entry .silent .standard = (.ok p, events) ∧
        p.clusters.map (·.address.offset) = [0xFFFF, 1] :=
    exists_lift_of_map_eq_some (by decide +kernel)
  exact ⟨p, events, rfl, rfl, hlift, hoffsets,
    (stays_in_segment_iff [] rfl rfl hlift).2.2 (.inr rfl)⟩

/-- The entry is a byte of the image behind the end of its segment, written with another selector:
the lift starts at the first offset of the image's segment, which is another byte, and `mov ax, cs`
loads the selector of the image. -/
theorem not_staysIn_entry_in_next_segment :
    let m : Image := ⟨⟨.segment 0x0C00, 0xFFF8, by decide⟩,
      [0x90, 0x90, 0x90, 0x90, 0x90, 0x90, 0x90, 0x90, 0x8C, 0xC8, 0xC3]⟩
    let entry : Address := ⟨.segment 0x1C00, 0, by decide⟩
    ∃ p events,
      Architecture.lift ⟨.real16, .full, []⟩ m entry .silent .standard = (.ok p, events) ∧
      p.clusters.map (fun c => (c.address.selector?, c.address.offset)) =
        [(some 0x0C00, 0), (some 0x0C00, 2)] ∧
      p.state.register X86.ax = .known 16 0x0C00 ∧
      ¬ StaysIn ⟨.real16, .full, []⟩ m entry .silent .standard p.clusters 0x1C00 := by
  intro m entry
  obtain ⟨p, events, hlift, hview⟩ : ∃ p events,
      Architecture.lift ⟨.real16, .full, []⟩ m entry .silent .standard = (.ok p, events) ∧
        (p.clusters.map (fun c => (c.address.selector?, c.address.offset)),
          p.state.register X86.ax) = ([(some 0x0C00, 0), (some 0x0C00, 2)], .known 16 0x0C00) :=
    exists_lift_of_map_eq_some (by decide +kernel)
  obtain ⟨haddresses, hax⟩ := Prod.mk.inj hview
  refine ⟨p, events, hlift, haddresses, hax, fun hstays => ?_⟩
  obtain ⟨c, rest, hclusters, hc, -⟩ := List.map_eq_cons_iff.1 haddresses
  have hselector := hstays.selectors c (by simp [hclusters])
  rw [(Prod.mk.inj hc).1] at hselector
  exact absurd hselector (by decide)

end Architecture

end CodeLift
