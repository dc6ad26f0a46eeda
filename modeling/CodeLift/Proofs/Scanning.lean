-- SUMMARY: A scan finds exactly the places that refer to known addresses, and decoding agrees.
import CodeLift.Scan
import CodeLift.Proofs.Image.Reading
import CodeLift.Proofs.Tiling
import CodeLift.Proofs.X86.PrefixCode

/-!
# What a scan finds

There are two readers of the same encodings: matching reads integers from an image, and
decoding reads bytes with a cursor, prefixes first. Of a place where a reader stands both
depend on the same bytes, those up to the end of its range (`Reader.ahead`). A call or
jump matches if and only if it decodes, and then the address matched is the target
decoded, in the same space (`matchCall_eq_some`, `matchJump_eq_some`).

A scan keeps the positions that refer to a known address (`Scan.RefersAt`), each once and
in order (`Scan.hits_exact`).
-/

namespace CodeLift

open X86 (Body Decoding Mode Transfer decode decode_eq_ok decode_eq_ok_iff decode_take matchCall
  matchDistance matchJump matchPointer maxLength)

/-! ## References -/

/-- The space that near pointers at a place count in. -/
def X86.Mode.nearSpace : Mode → Space → Space
  | .real16, .segment selector => .segment selector
  | .real16, .flat _ => .flat .w16
  | .protected32, _ => .flat .w32

/-- A word within the reader's range is a near pointer to the address. -/
def Reader.PointsTo (r : Reader) (mode : Mode) (a : Address) : Prop :=
  mode.wordBytes ≤ r.ahead.length ∧ a.space = mode.nearSpace r.address.space ∧
    a.offset = littleEndian (r.ahead.take mode.wordBytes)

/-- The bytes within the reader's range decode to an instruction. -/
def Reader.Decodes (r : Reader) (mode : Mode) (i : Instruction) : Prop :=
  decode mode r.address (r.ahead.take maxLength) = .ok i

/-- A relative call of the address decodes, with the opcode as its first byte. -/
def Reader.CallsTo (r : Reader) (mode : Mode) (a : Address) : Prop :=
  ∃ i, r.Decodes mode i ∧ i.bytes.head? = some 0xE8 ∧ ∃ next, i.flow = .call a next

/-- A relative jump to the address decodes, with the opcode as its first byte. -/
def Reader.JumpsTo (r : Reader) (mode : Mode) (a : Address) : Prop :=
  ∃ i, r.Decodes mode i ∧ (i.bytes.head? = some 0xE9 ∨ i.bytes.head? = some 0xEB) ∧
    i.flow = .jump a

/-- The reader stands in front of the opcode, and the distance of `size` bytes behind it leads to
the address. -/
def Reader.LeadsTo (r : Reader) (opcode : UInt8) (size : Nat) (a : Address) : Prop :=
  ∃ tail, r.ahead = opcode :: tail ∧ size ≤ tail.length ∧
    a = (r.address.advance (1 + size)).displace (signedLittleEndian (tail.take size))

namespace X86

variable {mode : Mode} {opcode : UInt8} {transfer : Transfer} {bits size : Nat} {r : Reader}
  {a : Address}

/-! ## Pointers -/

theorem Mode.nearAddress_eq (mode : Mode) (place : Address) (offset : Nat) :
    mode.nearAddress place offset = .wrapping (mode.nearSpace place.space) offset := by
  obtain ⟨space, _, _⟩ := place
  cases mode <;> cases space <;> rfl

theorem Mode.size_nearSpace (mode : Mode) (space : Space) :
    (mode.nearSpace space).size = modulus (8 * mode.wordBytes) := by
  cases mode <;> cases space <;> rfl

theorem Mode.wordBytes_le (mode : Mode) : mode.wordBytes ≤ 8 := by cases mode <;> decide

/-- A place matches as a pointer if and only if a word there is one. -/
theorem matchPointer_eq_some (hr : r.InBounds) (horder : r.order = .little) :
    (matchPointer mode r).1 = some a ↔ r.PointsTo mode a := by
  unfold matchPointer Reader.PointsTo
  rcases Nat.lt_or_ge r.ahead.length mode.wordBytes with hshort | hword
  · rw [Reader.unsigned_of_lt hr hshort]
    exact iff_of_false nofun fun h => by omega
  · have hoffset : littleEndian (r.ahead.take mode.wordBytes) <
        (mode.nearSpace r.address.space).size := by
      rw [littleEndian_take, mode.size_nearSpace]
      exact Nat.mod_lt _ (modulus_pos _)
    rw [Reader.unsigned_of_le hr horder mode.wordBytes_le hword]
    obtain ⟨space, offset, h⟩ := a
    simp only [mode.nearAddress_eq, Address.wrapping, Nat.mod_eq_of_lt hoffset, Option.some.injEq,
      Address.mk.injEq, hword, true_and]
    exact and_congr eq_comm eq_comm

/-! ## Distances -/

theorem matchDistance_eq_some (hr : r.InBounds) (horder : r.order = .little) (hsize : size ≤ 8) :
    (matchDistance size r).1 = some a ↔
      size ≤ r.ahead.length ∧
        a = (r.address.advance size).displace (signedLittleEndian (r.ahead.take size)) := by
  unfold matchDistance
  rcases Nat.lt_or_ge r.ahead.length size with hshort | hlong
  · rw [Reader.signed_of_lt hr hshort]
    exact iff_of_false (fun h => by cases h) fun h => by omega
  · rw [Reader.signed_of_le hr horder hsize hlong]
    simp only [Option.some.injEq, Reader.address_moveTo, hlong, true_and]
    exact eq_comm

/-- Behind the opcode byte, without a prefix, an instruction is a distance of `bits` bits. -/
def Mode.ReadsDistance (mode : Mode) (opcode : UInt8) (transfer : Transfer) (bits : Nat) : Prop :=
  ∀ rest, Decoding.instruction mode ⟨[], opcode :: rest⟩ =
    (do return Body.relative transfer (← Decoding.signed bits) : Decoding Body) ⟨[opcode], rest⟩

theorem Mode.readsDistance_call (mode : Mode) : mode.ReadsDistance 0xE8 .call mode.bits :=
  fun _ => rfl

theorem Mode.readsDistance_jump (mode : Mode) : mode.ReadsDistance 0xE9 .jump mode.bits :=
  fun _ => rfl

theorem Mode.readsDistance_jump_short (mode : Mode) : mode.ReadsDistance 0xEB .jump 8 :=
  fun _ => rfl

namespace Mode.ReadsDistance

variable (h : mode.ReadsDistance opcode transfer bits) {rest tail : List UInt8} {i : Instruction}
include h

theorem instruction_of_le (hle : bits / 8 ≤ rest.length) :
    Decoding.instruction mode ⟨[], opcode :: rest⟩ =
      .ok (.relative transfer (signedLittleEndian (rest.take (bits / 8))),
        ⟨opcode :: rest.take (bits / 8), rest.drop (bits / 8)⟩) := by
  have hbytes : Decoding.bytes (bits / 8) ⟨[opcode], rest⟩ =
      .ok (rest.take (bits / 8), ⟨opcode :: rest.take (bits / 8), rest.drop (bits / 8)⟩) :=
    if_neg (Nat.not_lt.2 hle)
  rw [h rest]
  exact Decoding.bind_of_ok (Decoding.bind_of_ok hbytes)

theorem instruction_of_lt (hlt : rest.length < bits / 8) :
    ∃ fault, Decoding.instruction mode ⟨[], opcode :: rest⟩ = .error fault := by
  have hbytes : Decoding.bytes (bits / 8) ⟨[opcode], rest⟩ =
      .error (.truncated (1 + bits / 8) (Cursor.size ⟨[opcode], rest⟩)) := if_pos hlt
  rw [h rest]
  exact ⟨_, Decoding.bind_of_error (Decoding.bind_of_error hbytes)⟩

/-- What starts with the opcode decodes if and only if the distance is there in full. -/
theorem decode_eq_ok_iff (hbits : bits ≤ 32) :
    decode mode a (opcode :: tail) = .ok i ↔
      bits / 8 ≤ tail.length ∧
        i = (Body.relative transfer (signedLittleEndian (tail.take (bits / 8)))).place a
          (opcode :: tail.take (bits / 8)) := by
  have htake : (opcode :: tail).take maxLength = opcode :: tail.take 14 := rfl
  have hfront : (tail.take 14).take (bits / 8) = tail.take (bits / 8) := by
    rw [List.take_take, Nat.min_eq_left (by omega)]
  rw [X86.decode_eq_ok_iff, htake]
  rcases Nat.lt_or_ge tail.length (bits / 8) with hshort | hlong
  · have hcut : (tail.take 14).length < bits / 8 :=
      Nat.lt_of_le_of_lt (List.length_take_le' ..) hshort
    obtain ⟨fault, hfault⟩ := h.instruction_of_lt hcut
    rw [hfault]
    refine iff_of_false ?_ fun hlong => Nat.not_lt.2 hlong.1 hshort
    rintro ⟨_, _, hok, -⟩
    cases hok
  · have hroom : bits / 8 ≤ (tail.take 14).length := by
      rw [List.length_take]
      omega
    rw [h.instruction_of_le hroom, hfront]
    constructor
    · rintro ⟨_, _, hok, rfl⟩
      cases hok
      exact ⟨hlong, rfl⟩
    · rintro ⟨-, rfl⟩
      exact ⟨_, _, rfl, rfl⟩

end Mode.ReadsDistance

/-- The instruction at the reader starts with the opcode if and only if it is a transfer by the
distance behind it. -/
theorem decodes_iff (hreads : mode.ReadsDistance opcode transfer bits) (hbits : bits ≤ 32)
    {i : Instruction} :
    r.Decodes mode i ∧ i.bytes.head? = some opcode ↔
      ∃ tail, r.ahead = opcode :: tail ∧ bits / 8 ≤ tail.length ∧
        i = (Body.relative transfer (signedLittleEndian (tail.take (bits / 8)))).place r.address
          (opcode :: tail.take (bits / 8)) := by
  rw [Reader.Decodes, decode_take (Nat.le_refl _)]
  constructor
  · rintro ⟨hdecode, hhead⟩
    obtain ⟨-, -, ⟨behind, hprefix⟩, -⟩ := decode_eq_ok hdecode
    obtain ⟨rest, hbytes⟩ := List.head?_eq_some_iff.1 hhead
    obtain ⟨tail, hahead⟩ : ∃ tail, r.ahead = opcode :: tail := by
      have hfirst : (r.ahead.take maxLength).head? = some opcode := by
        rw [← hprefix, hbytes]
        rfl
      rw [List.head?_take] at hfirst
      exact List.head?_eq_some_iff.1 hfirst
    rw [hahead, hreads.decode_eq_ok_iff hbits] at hdecode
    exact ⟨tail, hahead, hdecode⟩
  · rintro ⟨tail, hahead, hlong, rfl⟩
    rw [hahead, hreads.decode_eq_ok_iff hbits, Body.bytes_place]
    exact ⟨⟨hlong, rfl⟩, rfl⟩

/-! ## Calls and jumps -/

theorem leadsTo_iff {b : UInt8} {tail : List UInt8} (hahead : r.ahead = b :: tail) :
    r.LeadsTo opcode size a ↔
      b = opcode ∧ size ≤ tail.length ∧
        a = (r.address.advance (1 + size)).displace (signedLittleEndian (tail.take size)) := by
  constructor
  · rintro ⟨tail', hahead', hlong, htarget⟩
    cases hahead.symm.trans hahead'
    exact ⟨rfl, hlong, htarget⟩
  · rintro ⟨rfl, hlong, htarget⟩
    exact ⟨tail, hahead, hlong, htarget⟩

theorem not_leadsTo_of_nil (hahead : r.ahead = []) : ¬ r.LeadsTo opcode size a := by
  rintro ⟨tail, hahead', -⟩
  cases hahead.symm.trans hahead'

theorem unsigned_one (hr : r.InBounds) (horder : r.order = .little) {b : UInt8}
    {tail : List UInt8} (hahead : r.ahead = b :: tail) :
    r.unsigned 1 = .ok (b.toNat, r.moveTo (r.position + 1)) := by
  rw [Reader.unsigned_of_le hr horder (by decide) (by simp [hahead]), hahead]
  rfl

/-- Behind the opcode a distance matches if and only if the opcode leads to the same address. -/
theorem matchDistance_behind (hr : r.InBounds) (horder : r.order = .little) (hsize : size ≤ 8)
    {tail : List UInt8} (hahead : r.ahead = opcode :: tail) :
    (matchDistance size (r.moveTo (r.position + 1))).1 = some a ↔ r.LeadsTo opcode size a := by
  have htail : (r.moveTo (r.position + 1)).ahead = tail := by
    rw [Reader.ahead_moveTo, hahead]
    rfl
  have hbehind : (r.moveTo (r.position + 1)).InBounds := hr
  rw [matchDistance_eq_some hbehind horder hsize, htail, Reader.address_moveTo,
    Address.advance_advance, leadsTo_iff hahead]
  simp only [true_and]

theorem matchCall_iff_leadsTo (hr : r.InBounds) (horder : r.order = .little) :
    (matchCall mode r).1 = some a ↔ r.LeadsTo 0xE8 mode.wordBytes a := by
  unfold matchCall
  cases hahead : r.ahead with
  | nil =>
    rw [Reader.unsigned_of_lt hr (by simp [hahead])]
    exact iff_of_false nofun (not_leadsTo_of_nil hahead)
  | cons b tail =>
    rw [unsigned_one hr horder hahead]
    by_cases hcall : b = 0xE8
    · subst hcall
      exact matchDistance_behind hr horder mode.wordBytes_le hahead
    · have hne : b.toNat ≠ 0xE8 := fun h => hcall (UInt8.toNat_inj.1 h)
      rw [leadsTo_iff hahead]
      split
      · next heq => exact absurd (congrArg Prod.fst (Except.ok.inj heq)) hne
      · exact iff_of_false nofun fun h => hcall h.1
      · next heq => cases heq

theorem matchJump_iff_leadsTo (hr : r.InBounds) (horder : r.order = .little) :
    (matchJump mode r).1 = some a ↔
      r.LeadsTo 0xE9 mode.wordBytes a ∨ r.LeadsTo 0xEB 1 a := by
  unfold matchJump
  cases hahead : r.ahead with
  | nil =>
    rw [Reader.unsigned_of_lt hr (by simp [hahead])]
    exact iff_of_false nofun
      (not_or.2 ⟨not_leadsTo_of_nil hahead, not_leadsTo_of_nil hahead⟩)
  | cons b tail =>
    rw [unsigned_one hr horder hahead]
    by_cases hnear : b = 0xE9
    · subst hnear
      refine (matchDistance_behind hr horder mode.wordBytes_le hahead).trans (or_iff_left ?_).symm
      exact fun h => absurd ((leadsTo_iff hahead).1 h).1 (by decide)
    by_cases hshort : b = 0xEB
    · subst hshort
      refine (matchDistance_behind hr horder (by decide) hahead).trans (or_iff_right ?_).symm
      exact fun h => absurd ((leadsTo_iff hahead).1 h).1 (by decide)
    · have hnearNat : b.toNat ≠ 0xE9 := fun h => hnear (UInt8.toNat_inj.1 h)
      have hshortNat : b.toNat ≠ 0xEB := fun h => hshort (UInt8.toNat_inj.1 h)
      rw [leadsTo_iff hahead, leadsTo_iff hahead]
      split
      · next heq => exact absurd (congrArg Prod.fst (Except.ok.inj heq)) hnearNat
      · next heq => exact absurd (congrArg Prod.fst (Except.ok.inj heq)) hshortNat
      · exact iff_of_false nofun (not_or.2 ⟨fun h => hnear h.1, fun h => hshort h.1⟩)
      · next heq => cases heq

/-- Of a distance that is there in full the instruction has every byte. -/
theorem length_distance {tail : List UInt8} (h : size ≤ tail.length) :
    (opcode :: tail.take size).length = 1 + size := by
  rw [List.length_cons, List.length_take_of_le h, Nat.add_comm]

/-- What decodes with the opcode of a transfer in front is that transfer of the address that the
opcode leads to. -/
theorem exists_decodes_iff (hreads : mode.ReadsDistance opcode transfer bits) (hbits : bits ≤ 32)
    (post : Instruction → Prop) :
    (∃ i, (r.Decodes mode i ∧ i.bytes.head? = some opcode) ∧ post i) ↔
      ∃ tail, r.ahead = opcode :: tail ∧ bits / 8 ≤ tail.length ∧
        post ((Body.relative transfer (signedLittleEndian (tail.take (bits / 8)))).place r.address
          (opcode :: tail.take (bits / 8))) := by
  constructor
  · rintro ⟨i, hi, hpost⟩
    obtain ⟨tail, hahead, hlong, rfl⟩ := (decodes_iff hreads hbits).1 hi
    exact ⟨tail, hahead, hlong, hpost⟩
  · rintro ⟨tail, hahead, hlong, hpost⟩
    exact ⟨_, (decodes_iff hreads hbits).2 ⟨tail, hahead, hlong, rfl⟩, hpost⟩

theorem callsTo_iff_leadsTo : r.CallsTo mode a ↔ r.LeadsTo 0xE8 mode.wordBytes a := by
  have hsplit : r.CallsTo mode a ↔
      ∃ i, (r.Decodes mode i ∧ i.bytes.head? = some 0xE8) ∧ ∃ next, i.flow = .call a next := by
    simp only [Reader.CallsTo, and_assoc]
  rw [hsplit, exists_decodes_iff mode.readsDistance_call mode.bits_le]
  refine exists_congr fun tail => and_congr_right fun _ => and_congr_right fun hlong => ?_
  simp only [Body.place, length_distance hlong, Flow.call.injEq, exists_and_left, exists_eq',
    and_true]
  exact eq_comm

theorem jumpsTo_iff_leadsTo :
    r.JumpsTo mode a ↔ r.LeadsTo 0xE9 mode.wordBytes a ∨ r.LeadsTo 0xEB 1 a := by
  have hsplit : r.JumpsTo mode a ↔
      (∃ i, (r.Decodes mode i ∧ i.bytes.head? = some 0xE9) ∧ i.flow = .jump a) ∨
        ∃ i, (r.Decodes mode i ∧ i.bytes.head? = some 0xEB) ∧ i.flow = .jump a := by
    simp only [Reader.JumpsTo, and_or_left, or_and_right, exists_or, and_assoc]
  rw [hsplit, exists_decodes_iff mode.readsDistance_jump mode.bits_le,
    exists_decodes_iff mode.readsDistance_jump_short (by decide)]
  refine or_congr (exists_congr fun tail => ?_) (exists_congr fun tail => ?_)
  all_goals
    refine and_congr_right fun _ => and_congr_right fun hlong => ?_
    simp only [Body.place, length_distance hlong, Flow.jump.injEq]
    exact eq_comm

/-- A place matches as a call if and only if a relative call decodes there, and then both have the
same target, in the same space. -/
theorem matchCall_eq_some (hr : r.InBounds) (horder : r.order = .little) :
    (matchCall mode r).1 = some a ↔ r.CallsTo mode a :=
  (matchCall_iff_leadsTo hr horder).trans callsTo_iff_leadsTo.symm

/-- A place matches as a jump if and only if a relative jump decodes there, and then both have the
same target, in the same space. -/
theorem matchJump_eq_some (hr : r.InBounds) (horder : r.order = .little) :
    (matchJump mode r).1 = some a ↔ r.JumpsTo mode a :=
  (matchJump_iff_leadsTo hr horder).trans jumpsTo_iff_leadsTo.symm

end X86

/-! ## Scans -/

namespace Scan

variable (s : Scan) {r : Reader} {a : Address}

/-- The address is one of those known, in whatever form. -/
def Knows (a : Address) : Prop := ∃ k ∈ s.known, k.linear = a.linear

/-- The address can be executed, as far as segments are known. -/
def AllowsCode (a : Address) : Prop := s.segments.segments = [] ∨ s.segments.isExecutable a = true

/-- Where the reader stands is a reference of an enabled kind to a known address. -/
def RefersAt (r : Reader) : Prop :=
  (s.kinds.pointers = true ∧ ∃ a, r.PointsTo s.mode a ∧ s.Knows a) ∨
  (s.kinds.calls = true ∧ ∃ a, r.CallsTo s.mode a ∧ s.Knows a ∧ s.AllowsCode a) ∨
  (s.kinds.jumps = true ∧ ∃ a, r.JumpsTo s.mode a ∧ s.Knows a ∧ s.AllowsCode a)

variable {s}

theorem isKnown_iff : s.isKnown a = true ↔ s.Knows a := by
  simp [isKnown, Knows, Address.coincides, List.any_eq_true]

theorem isCode_iff : s.isCode a = true ↔ s.AllowsCode a := by
  simp [isCode, AllowsCode, SegmentMap.isEmpty, Bool.or_eq_true]

theorem matchesAt_iff (hr : r.InBounds) (horder : r.order = .little) :
    s.matchesAt r = true ↔ s.RefersAt r := by
  simp only [matchesAt, RefersAt, Bool.or_eq_true, Bool.and_eq_true, Option.any_eq_true,
    isKnown_iff, isCode_iff, X86.matchPointer_eq_some hr horder, X86.matchCall_eq_some hr horder,
    X86.matchJump_eq_some hr horder, or_assoc]

/-- The hits are the addresses of the positions that match, one after another. -/
theorem hitsFrom_eq (s : Scan) (n : Nat) (r : Reader) :
    s.hitsFrom n r =
      ((List.range' r.position n).filter fun p => s.matchesAt (r.moveTo p)).map
        r.image.addressAt := by
  induction n generalizing r with
  | zero => rfl
  | succ n ih =>
    rw [hitsFrom, ih, List.range'_succ, List.filter_cons]
    have hhere : r.moveTo r.position = r := rfl
    rw [hhere]
    split
    · rfl
    · rfl

/-- A scan gives the addresses of exactly those positions of the reader's range, in order and each
once, that refer to a known address. Of every place matching and decoding tell the same: a word is a
near pointer, and a relative call or jump matches if and only if it decodes, with the same target in
the same space. -/
theorem hits_exact (s : Scan) (r : Reader) (hr : r.InBounds) (horder : r.order = .little) :
    (∃ positions : List Nat, s.hits r = positions.map r.image.addressAt ∧
      positions.Pairwise (· < ·) ∧
      ∀ p, p ∈ positions ↔ r.position ≤ p ∧ p < r.limit ∧ s.RefersAt (r.moveTo p)) ∧
    ∀ p a,
      ((matchPointer s.mode (r.moveTo p)).1 = some a ↔ (r.moveTo p).PointsTo s.mode a) ∧
      ((matchCall s.mode (r.moveTo p)).1 = some a ↔ (r.moveTo p).CallsTo s.mode a) ∧
      ((matchJump s.mode (r.moveTo p)).1 = some a ↔ (r.moveTo p).JumpsTo s.mode a) := by
  have hmoved : ∀ p, (r.moveTo p).InBounds ∧ (r.moveTo p).order = .little :=
    fun p => ⟨hr, horder⟩
  refine ⟨⟨_, s.hitsFrom_eq r.remaining r, ?_, ?_⟩, ?_⟩
  · exact List.Pairwise.filter _ List.pairwise_lt_range'
  · intro p
    rw [List.mem_filter, List.mem_range'_1, matchesAt_iff (hmoved p).1 (hmoved p).2, and_assoc]
    unfold Reader.remaining
    refine and_congr_right fun hfirst => and_congr_left fun _ => ?_
    omega
  · intro p a
    exact ⟨X86.matchPointer_eq_some (hmoved p).1 (hmoved p).2,
      X86.matchCall_eq_some (hmoved p).1 (hmoved p).2,
      X86.matchJump_eq_some (hmoved p).1 (hmoved p).2⟩

/-- A pointer to a known address, a call of it and a jump elsewhere: the first two are found. -/
theorem hits_exact_pointer_call_jump :
    let m : Image := ⟨⟨.flat .w32, 0x1000, by decide⟩,
      [0x10, 0x10, 0x00, 0x00, 0xE8, 0x07, 0x00, 0x00, 0x00, 0xE9, 0xF2, 0x0F, 0x00, 0x00, 0x90]⟩
    let s : Scan := ⟨.protected32, .empty, [m.addressAt 0x10], .all⟩
    let r := Reader.ofImage m .little
    r.InBounds ∧ r.order = .little ∧ s.hits r = [m.addressAt 0, m.addressAt 4] ∧
      (∃ positions : List Nat, [m.addressAt 0, m.addressAt 4] = positions.map m.addressAt ∧
        positions.Pairwise (· < ·) ∧
        ∀ p, p ∈ positions ↔ 0 ≤ p ∧ p < 15 ∧ s.RefersAt (r.moveTo p)) ∧
      (r.moveTo 4).CallsTo .protected32 (m.addressAt 0x10) ∧
      (r.moveTo 9).JumpsTo .protected32 (m.addressAt 0x1000) := by
  intro m s r
  have hr : r.InBounds := Reader.inBounds_ofImage m .little
  have hhits : s.hits r = [m.addressAt 0, m.addressAt 4] := by decide +kernel
  obtain ⟨hpositions, hmatches⟩ := hits_exact s r hr rfl
  rw [hhits] at hpositions
  have hcall : (matchCall s.mode (r.moveTo 4)).1 = some (m.addressAt 0x10) := by decide +kernel
  have hjump : (matchJump s.mode (r.moveTo 9)).1 = some (m.addressAt 0x1000) := by decide +kernel
  exact ⟨hr, rfl, hhits, hpositions, (hmatches 4 _).2.1.1 hcall, (hmatches 9 _).2.2.1 hjump⟩

end Scan

end CodeLift
