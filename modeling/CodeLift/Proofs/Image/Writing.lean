-- SUMMARY: What is written is read back, step by step, and nothing else of the image changes.
import CodeLift.Image.Writer
import CodeLift.Proofs.Image.Reading

/-!
# Writing

A writer and a reader go through an image in the same steps: both take as many bytes as
they are asked for, or fail for the same want of them and stay where they are. So a
reader that starts behind a writer, where the writer started, and is asked for the same
sizes, tells step by step what the writer told (`log_eq`).

The invariant behind it is `Follows`: a writer never touches what it has already passed
over, so the bytes of each step are still there when all writes are done.
-/

namespace CodeLift

/-! ## Bytes of integers -/

theorem littleEndianBytes_littleEndian (bytes : List UInt8) :
    littleEndianBytes bytes.length (littleEndian bytes) = bytes := by
  induction bytes with
  | nil => rfl
  | cons b rest ih =>
    have hb : b.toNat < 256 := b.toNat_lt
    have hhigh : (b.toNat + 256 * littleEndian rest) / 256 = littleEndian rest := by omega
    have hlow : UInt8.ofNat (b.toNat + 256 * littleEndian rest) = b := by
      apply UInt8.toNat_inj.1
      rw [UInt8.toNat_ofNat']
      omega
    rw [List.length_cons, littleEndian, littleEndianBytes, hhigh, hlow, ih]

namespace ByteOrder

variable (order : ByteOrder)

/-- Of a number that is split and assembled again, its low bytes are left. -/
theorem assemble_split (value : Nat) {size : Nat} (h : size ≤ 8) :
    order.assemble (order.split value size) = value % modulus (8 * size) := by
  rw [order.assemble_eq (by rwa [length_split]), split, arrange_arrange,
    littleEndian_littleEndianBytes]

theorem split_assemble {bytes : List UInt8} (h : bytes.length ≤ 8) :
    order.split (order.assemble bytes) bytes.length = bytes := by
  rw [order.assemble_eq h, split, ← order.length_arrange bytes, littleEndianBytes_littleEndian,
    arrange_arrange]

end ByteOrder

/-! ## Overwriting -/

namespace Image

variable {m : Image} {position : Nat} {data : List UInt8}

theorem length_take_of_fits (h : position + data.length ≤ m.size) :
    (m.bytes.take position).length = position :=
  List.length_take_of_le (Nat.le_trans (Nat.le_add_right _ _) h)

theorem size_overwrite (h : position + data.length ≤ m.size) :
    (m.overwrite position data).size = m.size := by
  unfold size at h ⊢
  simp only [overwrite, List.length_append, List.length_take, List.length_drop]
  omega

theorem getElem?_overwrite_of_outside (h : position + data.length ≤ m.size) {i : Nat}
    (hi : i < position ∨ position + data.length ≤ i) :
    (m.overwrite position data).bytes[i]? = m.bytes[i]? := by
  have htake := length_take_of_fits h
  unfold overwrite
  rcases hi with hbefore | hbehind
  · rw [List.append_assoc, List.getElem?_append_left (by omega), List.getElem?_take_of_lt hbefore]
  · rw [List.getElem?_append_right (by simp only [List.length_append]; omega), List.getElem?_drop,
      List.length_append, htake, Nat.add_sub_of_le hbehind]

theorem take_drop_overwrite (h : position + data.length ≤ m.size) :
    ((m.overwrite position data).bytes.drop position).take data.length = data := by
  rw [overwrite, List.append_assoc, List.drop_left' (length_take_of_fits h), List.take_left]

/-- Writing over bytes what they are changes nothing. -/
theorem overwrite_self (m : Image) (position count : Nat) :
    m.overwrite position ((m.bytes.drop position).take count) = m := by
  have hrest := List.prefix_iff_eq_append.1 (List.take_prefix count (m.bytes.drop position))
  rw [List.drop_drop] at hrest
  rw [overwrite, List.append_assoc, hrest, List.take_append_drop]

end Image

/-! ## Writes -/

/-- What is written: the low bytes of a number, or bytes as they are. -/
inductive Datum where
  | number (value size : Nat)
  | raw (list : List UInt8)

namespace Datum

/-- A number is written into at most eight bytes. -/
def IsShort : Datum → Prop
  | .number _ size => size ≤ 8
  | .raw _ => True

instance : DecidablePred IsShort
  | .number _ size => inferInstanceAs (Decidable (size ≤ 8))
  | .raw _ => .isTrue trivial

/-- The bytes that are written. -/
def bytes (order : ByteOrder) : Datum → List UInt8
  | .number value size => order.split value size
  | .raw list => list

def size : Datum → Nat
  | .number _ size => size
  | .raw list => list.length

/-- The request for as many bytes. -/
def request : Datum → Reader.Request
  | .number _ size => .unsigned size
  | .raw list => .bytes list.length

/-- What is left in the bytes that have been written. -/
def answer : Datum → Reader.Answer
  | .number value size => .unsigned (value % modulus (8 * size))
  | .raw list => .bytes list

@[simp] theorem length_bytes (order : ByteOrder) (d : Datum) : (d.bytes order).length = d.size := by
  cases d with
  | number value size => exact order.length_split value size
  | raw list => rfl

theorem count?_request (d : Datum) : d.request.count? = some d.size := by
  cases d <;> rfl

theorem IsShort.request {d : Datum} (h : d.IsShort) : d.request.IsShort := by
  cases d with
  | number value size => exact h
  | raw list => trivial

/-- The bytes of a datum tell what is left of it. -/
theorem answer_request (order : ByteOrder) {d : Datum} (h : d.IsShort) :
    d.request.answer order (d.bytes order) = d.answer := by
  cases d with
  | number value size =>
    have hlength : (order.split value size).length ≤ 8 := by rwa [order.length_split]
    change Reader.Answer.unsigned (littleEndian (order.arrange (order.split value size))) = _
    rw [← order.assemble_eq hlength, order.assemble_split value h]
    rfl
  | raw list => rfl

end Datum

/-- What is done to write it. -/
def Datum.writing : Datum → Writing Unit
  | .number value size => .putUnsigned value size
  | .raw list => .put list

namespace Writer

/-- The outcome of a write, and the writer behind it. -/
def write (w : Writer) (d : Datum) : Except ImageError Unit × Writer := d.writing.on w

/-- The writer that goes on behind a write. -/
def after (w : Writer) (d : Datum) : Writer := (w.write d).2

/-- The writer that goes on behind writes, which are made in order. -/
def afterAll (w : Writer) (data : List Datum) : Writer := data.foldl after w

/-- What each write leaves or why it fails, and the address behind it. -/
def log (w : Writer) : List Datum → List (Except ImageError Reader.Answer × Address)
  | [] => []
  | d :: rest =>
    ((w.write d).1.map fun _ => d.answer, (w.after d).address) :: (w.after d).log rest

variable {w : Writer} {d : Datum}

/-- The writer behind a write that fits. -/
def passing (w : Writer) (d : Datum) : Writer :=
  { w with
    image := w.image.overwrite w.position (d.bytes w.order)
    position := w.position + d.size }

theorem write_eq_put (w : Writer) (d : Datum) :
    w.write d = (Writing.put (d.bytes w.order)).on w := by
  cases d <;> rfl

theorem write_of_le (h : d.size ≤ w.available) : w.write d = (.ok (), w.passing d) := by
  have hroom : ¬ w.available < (d.bytes w.order).length := by
    rw [d.length_bytes]
    omega
  rw [write_eq_put, Writing.put, InPlace.on_bind_of_ok (InPlace.on_get w), if_neg hroom,
    d.length_bytes]
  rfl

theorem write_of_lt (h : w.available < d.size) :
    w.write d = (.error (.outOfBounds w.address d.size w.available), w) := by
  have hfew : w.available < (d.bytes w.order).length := by rwa [d.length_bytes]
  rw [write_eq_put, Writing.put, InPlace.on_bind_of_ok (InPlace.on_get w), if_pos hfew,
    d.length_bytes]
  rfl

theorem after_of_le (h : d.size ≤ w.available) : w.after d = w.passing d := by
  rw [after, write_of_le h]

/-- A write that fails changes neither bytes nor position. -/
theorem after_of_lt (h : w.available < d.size) : w.after d = w := by
  rw [after, write_of_lt h]

/-! ## What writes leave alone -/

/-- From `w` to `w'` a writer has gone on in its image and changed only bytes that it has passed
over. -/
structure Follows (w w' : Writer) : Prop where
  base : w'.image.base = w.image.base
  size : w'.image.size = w.image.size
  order : w'.order = w.order
  position_le : w.position ≤ w'.position
  inBounds : w'.position ≤ w'.image.size
  outside : ∀ i, i < w.position ∨ w'.position ≤ i → w'.image.bytes[i]? = w.image.bytes[i]?

theorem Follows.refl (h : w.position ≤ w.image.size) : w.Follows w :=
  ⟨rfl, rfl, rfl, Nat.le_refl _, h, fun _ _ => rfl⟩

theorem Follows.trans {w₁ w₂ w₃ : Writer} (h : w₁.Follows w₂) (h' : w₂.Follows w₃) :
    w₁.Follows w₃ where
  base := h'.base.trans h.base
  size := h'.size.trans h.size
  order := h'.order.trans h.order
  position_le := Nat.le_trans h.position_le h'.position_le
  inBounds := h'.inBounds
  outside i hi := by
    have hle := h.position_le
    have hle' := h'.position_le
    rw [h'.outside i (by omega), h.outside i (by omega)]

/-- The bytes of a write that fits end in the image. -/
theorem fits_of_le (hw : w.position ≤ w.image.size) (h : d.size ≤ w.available) :
    w.position + (d.bytes w.order).length ≤ w.image.size := by
  unfold available at h
  rw [d.length_bytes]
  omega

theorem follows_passing (hw : w.position ≤ w.image.size) (h : d.size ≤ w.available) :
    w.Follows (w.passing d) := by
  have hfits := fits_of_le hw h
  refine ⟨rfl, Image.size_overwrite hfits, rfl, Nat.le_add_right _ _, ?_, fun i hi => ?_⟩
  · change w.position + d.size ≤ (w.image.overwrite w.position (d.bytes w.order)).size
    rwa [Image.size_overwrite hfits, ← d.length_bytes w.order]
  · refine Image.getElem?_overwrite_of_outside hfits ?_
    rwa [d.length_bytes]

theorem follows_after (hw : w.position ≤ w.image.size) (d : Datum) : w.Follows (w.after d) := by
  rcases Nat.lt_or_ge w.available d.size with hshort | hfits
  · rw [after_of_lt hshort]
    exact .refl hw
  · rw [after_of_le hfits]
    exact follows_passing hw hfits

theorem follows_afterAll (hw : w.position ≤ w.image.size) (data : List Datum) :
    w.Follows (w.afterAll data) := by
  induction data generalizing w with
  | nil => exact .refl hw
  | cons d rest ih =>
    have hafter := follows_after hw d
    exact hafter.trans (ih hafter.inBounds)

end Writer

/-! ## Reading back -/

/-- What each request is answered or why it fails, and the address behind it. -/
def Reader.log (r : Reader) : List Request → List (Except ImageError Answer × Address)
  | [] => []
  | q :: rest => ((r.serve q).1, (r.after q).address) :: (r.after q).log rest

namespace Writer

variable {w w' : Writer} {d : Datum}

/-- The reader of an image that stands where the writer stands. -/
def readerOf (w : Writer) (m : Image) : Reader := ⟨m, 0, w.position, m.size, w.order⟩

theorem ahead_readerOf (w : Writer) (m : Image) :
    (w.readerOf m).ahead = m.bytes.drop w.position := by
  simp [readerOf, Reader.ahead, Image.size]

theorem Follows.length_ahead (h : w.Follows w') :
    (w.readerOf w'.image).ahead.length = w.available := by
  rw [ahead_readerOf, List.length_drop, available, ← h.size]
  rfl

theorem Follows.remaining (h : w.Follows w') : (w.readerOf w'.image).remaining = w.available := by
  rw [available, ← h.size]
  rfl

theorem Follows.address (h : w.Follows w') : (w.readerOf w'.image).address = w.address := by
  rw [Writer.address, Image.addressAt, ← h.base]
  rfl

/-- The bytes of a write are still there when others have been made behind it. -/
theorem take_ahead (h : d.size ≤ w.available) (hw : w.position ≤ w.image.size)
    (hlater : (w.passing d).Follows w') :
    (w.readerOf w'.image).ahead.take d.size = d.bytes w.order := by
  have hkept : (w'.image.bytes.drop w.position).take d.size =
      ((w.passing d).image.bytes.drop w.position).take d.size := by
    apply List.ext_getElem?
    intro i
    by_cases hi : i < d.size
    · have hpassed : w.position + i < (w.passing d).position := Nat.add_lt_add_left hi _
      rw [List.getElem?_take_of_lt hi, List.getElem?_take_of_lt hi, List.getElem?_drop,
        List.getElem?_drop, hlater.outside _ (.inl hpassed)]
    · rw [List.getElem?_take_eq_none (by omega), List.getElem?_take_eq_none (by omega)]
  have hthere := Image.take_drop_overwrite (fits_of_le hw h)
  rw [d.length_bytes] at hthere
  rw [ahead_readerOf, hkept]
  exact hthere

/-- Where a write has succeeded, the read does, and both go on at the same place. -/
theorem serve_request_of_le (h : d.size ≤ w.available) (hw : w.position ≤ w.image.size)
    (hd : d.IsShort) (hlater : (w.passing d).Follows w') :
    (w.readerOf w'.image).serve d.request = (.ok d.answer, (w.passing d).readerOf w'.image) := by
  have hall := (follows_passing hw h).trans hlater
  have hbounds : (w.readerOf w'.image).InBounds := Nat.le_refl _
  obtain ⟨answer, hserve, hanswer⟩ :=
    Reader.serve_of_le hbounds d.count?_request (by rwa [hall.length_ahead])
  rw [hserve, hanswer hd.request, take_ahead h hw hlater]
  exact congrArg (fun answer => (Except.ok answer, _)) (Datum.answer_request w.order hd)

/-- Where a write has failed, the read fails so too. -/
theorem serve_request_of_lt (h : w.available < d.size) (hlater : w.Follows w') :
    (w.readerOf w'.image).serve d.request =
      (.error (.outOfBounds w.address d.size w.available), w.readerOf w'.image) := by
  have hbounds : (w.readerOf w'.image).InBounds := Nat.le_refl _
  rw [Reader.serve_of_lt hbounds d.count?_request (by rwa [hlater.length_ahead]), hlater.address,
    hlater.remaining]

/-- A reader of what all writes leave tells in each step what the writer told. -/
theorem log_readerOf (hw : w.position ≤ w.image.size) {data : List Datum}
    (hshort : ∀ d ∈ data, d.IsShort) :
    (w.readerOf (w.afterAll data).image).log (data.map Datum.request) = w.log data := by
  induction data generalizing w with
  | nil => rfl
  | cons d rest ih =>
    have hd := hshort d List.mem_cons_self
    have hrest : ∀ d ∈ rest, d.IsShort := fun x hx => hshort x (List.mem_cons_of_mem d hx)
    have hall : w.afterAll (d :: rest) = (w.after d).afterAll rest := rfl
    rw [List.map_cons, Reader.log, log, hall]
    -- What the first write has done, the later ones do not undo.
    rcases Nat.lt_or_ge w.available d.size with hfew | hfits
    · rw [after_of_lt hfew, write_of_lt hfew]
      have hlater := follows_afterAll hw rest
      have hserve := serve_request_of_lt hfew hlater
      rw [Reader.after_of_serve hserve, hserve, hlater.address, ih hw hrest]
      rfl
    · rw [after_of_le hfits, write_of_le hfits]
      have hpassing := (follows_passing hw hfits).inBounds
      have hlater := follows_afterAll hpassing rest
      have hserve := serve_request_of_le hfits hw hd hlater
      rw [Reader.after_of_serve hserve, hserve, hlater.address, ih hpassing hrest]
      rfl

end Writer

/-! ## Writing back -/

/-- The numbers that a reader gives for the sizes that it is asked for, with those sizes. -/
def Reader.numbers (r : Reader) : List Nat → List Datum
  | [] => []
  | size :: rest =>
    match (Reading.unsigned size).on r with
    | (.ok value, r') => .number value size :: r'.numbers rest
    | (.error _, r') => r'.numbers rest

/-- The writer that stands where the reader stands. -/
def Reader.writer (r : Reader) : Writer := ⟨r.image, r.position, r.order⟩

namespace Writer

/-- A number fits where it was read, and changes nothing there. -/
theorem passing_number {r : Reader} {size : Nat} (hr : r.InBounds) (hsize : size ≤ 8)
    (hfits : size ≤ r.ahead.length) :
    let d : Datum := .number (r.order.assemble (r.ahead.take size)) size
    d.size ≤ r.writer.available ∧
      r.writer.passing d = (r.moveTo (r.position + size)).writer := by
  intro d
  have hlength : (r.ahead.take size).length = size := List.length_take_of_le hfits
  have hsplit := r.order.split_assemble (show (r.ahead.take size).length ≤ 8 by rwa [hlength])
  rw [hlength] at hsplit
  have hbytes : d.bytes r.order = (r.image.bytes.drop r.position).take size :=
    hsplit.trans (Reader.take_ahead_of_le hr hfits)
  constructor
  · have hle : r.limit ≤ r.image.size := hr
    rw [Reader.length_ahead hr, Reader.remaining] at hfits
    exact Nat.le_trans hfits (Nat.sub_le_sub_right hle r.position)
  · change (⟨r.image.overwrite r.position (d.bytes r.order), _, _⟩ : Writer) = _
    rw [hbytes, Image.overwrite_self]
    rfl

/-- Numbers can be written back where they were read, and that changes nothing. -/
theorem afterAll_numbers {r : Reader} (hr : r.InBounds) {sizes : List Nat}
    (hshort : ∀ size ∈ sizes, size ≤ 8) :
    (r.writer.afterAll (r.numbers sizes)).image = r.image ∧
      ∀ step ∈ r.writer.log (r.numbers sizes), step.1.isOk := by
  induction sizes generalizing r with
  | nil => exact ⟨rfl, nofun⟩
  | cons size rest ih =>
    obtain ⟨hsize, hrest⟩ := List.forall_mem_cons.1 hshort
    rcases Nat.lt_or_ge r.ahead.length size with hfew | hfits
    · rw [Reader.numbers, Reading.unsigned_of_lt hr hfew]
      exact ih hr hrest
    · let r' := r.moveTo (r.position + size)
      obtain ⟨hroom, hpassing⟩ := passing_number hr hsize hfits
      obtain ⟨himage, hsteps⟩ := ih (r := r') hr hrest
      rw [Reader.numbers, Reading.unsigned_of_le hr hfits]
      constructor
      · change ((r.writer.after _).afterAll _).image = r.image
        rw [after_of_le hroom, hpassing]
        exact himage
      · rw [log, after_of_le hroom, write_of_le hroom, hpassing]
        exact List.forall_mem_cons.2 ⟨rfl, hsteps⟩

/-- Whatever is written from an address on, a reader made there afterwards tells step by step what
was written or why it was not, and the same addresses; bytes outside the stretch that was written
are as they were, and a write that fails changes nothing. The other way round, numbers that were
read can be written back, and then the image is as it was. -/
theorem mirrors {m : Image} {a : Address} {position : Nat} (h : m.position? a = some position)
    (order : ByteOrder) :
    let w : Writer := ⟨m, position, order⟩
    Writer.startingAt m a order = .ok w ∧
    (∀ data : List Datum, (∀ d ∈ data, d.IsShort) →
      let w' := w.afterAll data
      (∃ r, Reader.startingAt w'.image a order = .ok r ∧
        r.log (data.map Datum.request) = w.log data) ∧
      w.Follows w' ∧
      ∀ d, (d.size ≤ w'.available → w'.write d = (.ok (), w'.passing d)) ∧
        (w'.available < d.size →
          w'.write d = (.error (.outOfBounds w'.address d.size w'.available), w') ∧
            w'.after d = w')) ∧
    (∀ sizes : List Nat, (∀ size ∈ sizes, size ≤ 8) →
      ∃ r, Reader.startingAt m a order = .ok r ∧
        (w.afterAll (r.numbers sizes)).image = m ∧
        ∀ step ∈ w.log (r.numbers sizes), step.1.isOk) := by
  intro w
  have hw : w.position ≤ w.image.size := Image.le_size_of_position? h
  refine ⟨?_, fun data hshort => ?_, fun sizes hshort => ?_⟩
  · rw [Writer.startingAt, h]
  · have hfollows : w.Follows (w.afterAll data) := follows_afterAll hw data
    have hplace : (w.afterAll data).image.position? a = some position := by
      rw [← h, Image.position?, Image.position?, hfollows.base, hfollows.size]
    refine ⟨⟨w.readerOf (w.afterAll data).image, ?_, log_readerOf hw hshort⟩, hfollows, fun d =>
      ⟨write_of_le, fun hfew => ⟨write_of_lt hfew, after_of_lt hfew⟩⟩⟩
    rw [Reader.startingAt, hplace]
    rfl
  · let r : Reader := ⟨m, 0, position, m.size, order⟩
    obtain ⟨himage, hsteps⟩ := afterAll_numbers (r := r) (Nat.le_refl _) hshort
    refine ⟨r, ?_, himage, hsteps⟩
    rw [Reader.startingAt, h]

/-- Two bytes fit behind the low half of a number, four do not; the byte before them and the one
behind them are as they were. -/
theorem mirrors_between_others :
    let m : Image := ⟨⟨.flat .w16, 0x10, by decide⟩, [1, 2, 3, 4, 5, 6]⟩
    let data : List Datum := [.number 0x1BEEF 2, .raw [7, 8, 9, 10], .raw [7, 8]]
    let w : Writer := ⟨m, 1, .big⟩
    m.position? (m.addressAt 1) = some 1 ∧
      (w.afterAll data).image.bytes = [1, 0xBE, 0xEF, 7, 8, 6] ∧
      ∃ r, Reader.startingAt (w.afterAll data).image (m.addressAt 1) .big = .ok r ∧
        r.log (data.map Datum.request) =
          [(.ok (.unsigned 0xBEEF), m.addressAt 3),
            (.error (.outOfBounds (m.addressAt 3) 4 3), m.addressAt 3),
            (.ok (.bytes [7, 8]), m.addressAt 5)] := by
  intro m data w
  have hplace : m.position? (m.addressAt 1) = some 1 := by decide +kernel
  have hshort : ∀ d ∈ data, d.IsShort := by decide
  have hlog : w.log data =
      [(.ok (.unsigned 0xBEEF), m.addressAt 3),
        (.error (.outOfBounds (m.addressAt 3) 4 3), m.addressAt 3),
        (.ok (.bytes [7, 8]), m.addressAt 5)] := rfl
  obtain ⟨⟨r, hreader, hreads⟩, -⟩ := (mirrors hplace .big).2.1 data hshort
  exact ⟨hplace, by decide +kernel, r, hreader, hreads.trans hlog⟩

end Writer

end CodeLift
