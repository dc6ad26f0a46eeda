-- SUMMARY: Readers stay in their range, and what each request of one gives.
import CodeLift.Image.Reader

/-!
# Reading

Every request of a reader comes down to the bytes ahead of it, those from its position to
the end of its range (`Reader.ahead`). A read takes the first of them and goes on behind
them, or fails if there are too few.

A reader that has been made is in its range. A request is answered and moves it within the
range, or fails and leaves it as it was (`InRange.serve_cases`). So whatever it has been asked
for, it keeps the contract (`contract_afterAll`).
-/

namespace CodeLift

namespace Reader

variable {m : Image} {order : ByteOrder} {r : Reader} {count : Nat}

/-! ## The bytes ahead -/

/-- The range of the reader lies in its image. -/
def InBounds (r : Reader) : Prop := r.limit ≤ r.image.size

/-- The reader at another position. -/
def moveTo (r : Reader) (position : Nat) : Reader := { r with position := position }

/-- The bytes from the reader's position to the end of its range. -/
def ahead (r : Reader) : List UInt8 := (r.image.bytes.take r.limit).drop r.position

theorem inBounds_ofImage (m : Image) (order : ByteOrder) : (ofImage m order).InBounds :=
  Nat.le_refl m.size

theorem length_ahead (hr : r.InBounds) : r.ahead.length = r.remaining := by
  unfold InBounds Image.size at hr
  simp [ahead, remaining, Nat.min_eq_left hr]

theorem ahead_moveTo (r : Reader) (n : Nat) :
    (r.moveTo (r.position + n)).ahead = r.ahead.drop n := by
  simp [ahead, moveTo, List.drop_drop]

theorem address_moveTo (r : Reader) (n : Nat) :
    (r.moveTo (r.position + n)).address = r.address.advance n := by
  simp [address, moveTo, Image.addressAt, Address.advance_advance]

theorem peek_eq (r : Reader) (count : Nat) : r.peek count = r.ahead.take count := by
  rw [peek, ahead, List.drop_take, List.take_take]
  rfl

theorem take_ahead_of_le (hr : r.InBounds) (h : count ≤ r.ahead.length) :
    r.ahead.take count = (r.image.bytes.drop r.position).take count := by
  rw [length_ahead hr] at h
  rw [← peek_eq, peek, Nat.min_eq_left h]

end Reader

/-! ## Reading in place -/

namespace Reading

variable {a : Address} {r : Reader} {count size : Nat}

/-- The bytes that are asked for are read if there are enough of them. -/
theorem take_of_le (hr : r.InBounds) (h : count ≤ r.ahead.length) :
    (take count).on r = (.ok (r.ahead.take count), r.moveTo (r.position + count)) := by
  have hroom : ¬ r.remaining < count := by
    rw [← Reader.length_ahead hr]
    omega
  rw [take, InPlace.on_bind_of_ok (InPlace.on_get r), if_neg hroom, ← Reader.peek_eq]
  rfl

/-- Else the reader stays where it is. -/
theorem take_of_lt (hr : r.InBounds) (h : r.ahead.length < count) :
    (take count).on r = (.error (.outOfBounds r.address count r.remaining), r) := by
  have hfew : r.remaining < count := by rwa [← Reader.length_ahead hr]
  rw [take, InPlace.on_bind_of_ok (InPlace.on_get r), if_pos hfew]
  rfl

theorem skip_of_le (hr : r.InBounds) (h : count ≤ r.ahead.length) :
    (skip count).on r = (.ok (), r.moveTo (r.position + count)) :=
  InPlace.on_bind_of_ok (take_of_le hr h)

theorem skip_of_lt (hr : r.InBounds) (h : r.ahead.length < count) :
    (skip count).on r = (.error (.outOfBounds r.address count r.remaining), r) :=
  InPlace.on_bind_of_error (take_of_lt hr h)

theorem unsigned_of_le (hr : r.InBounds) (h : size ≤ r.ahead.length) :
    (unsigned size).on r =
      (.ok (r.order.assemble (r.ahead.take size)), r.moveTo (r.position + size)) := by
  rw [unsigned, InPlace.on_bind_of_ok (InPlace.on_get r)]
  exact InPlace.on_bind_of_ok (take_of_le hr h)

theorem unsigned_of_lt (hr : r.InBounds) (h : r.ahead.length < size) :
    (unsigned size).on r = (.error (.outOfBounds r.address size r.remaining), r) := by
  rw [unsigned, InPlace.on_bind_of_ok (InPlace.on_get r)]
  exact InPlace.on_bind_of_error (take_of_lt hr h)

theorem signed_of_le (hr : r.InBounds) (h : size ≤ r.ahead.length) :
    (signed size).on r =
      (.ok ((r.order.assemble (r.ahead.take size) : Int).bmod (modulus (8 * size))),
        r.moveTo (r.position + size)) :=
  InPlace.on_bind_of_ok (unsigned_of_le hr h)

theorem signed_of_lt (hr : r.InBounds) (h : r.ahead.length < size) :
    (signed size).on r = (.error (.outOfBounds r.address size r.remaining), r) :=
  InPlace.on_bind_of_error (unsigned_of_lt hr h)

theorem seek_of_mem {position : Nat} (hplace : a.linear = r.image.base.linear + position)
    (hfirst : r.first ≤ position) (hlimit : position ≤ r.limit) :
    (seek a).on r = (.ok (), r.moveTo position) := by
  have hdistance : a.linear - r.image.base.linear = position := by omega
  have hrange : r.image.base.linear ≤ a.linear ∧ r.first ≤ position ∧ position ≤ r.limit :=
    ⟨by omega, hfirst, hlimit⟩
  rw [seek, InPlace.on_bind_of_ok (InPlace.on_get r)]
  simp only [hdistance, if_pos hrange]
  rfl

theorem seek_of_not_mem
    (h : ∀ position, r.first ≤ position → position ≤ r.limit →
      a.linear ≠ r.image.base.linear + position) :
    (seek a).on r = (.error (.notMapped a), r) := by
  have hrange : ¬ (r.image.base.linear ≤ a.linear ∧ r.first ≤ a.linear - r.image.base.linear ∧
      a.linear - r.image.base.linear ≤ r.limit) := by
    rintro ⟨hbase, hfirst, hlimit⟩
    exact h _ hfirst hlimit (Nat.add_sub_of_le hbase).symm
  rw [seek, InPlace.on_bind_of_ok (InPlace.on_get r)]
  simp only [if_neg hrange]
  rfl

end Reading

/-! ## Reading step by step -/

namespace Reader

variable {a start stop : Address} {m : Image} {order : ByteOrder} {r : Reader} {count size : Nat}

/-- Integers of at most eight bytes are assembled in full. -/
theorem assemble_ahead (r : Reader) (hsize : size ≤ 8) :
    r.order.assemble (r.ahead.take size) = littleEndian (r.order.arrange (r.ahead.take size)) :=
  r.order.assemble_eq (Nat.le_trans (List.length_take_le ..) hsize)

theorem unsigned_eq (hr : r.InBounds) (h : size ≤ r.ahead.length) :
    r.unsigned size =
      .ok (r.order.assemble (r.ahead.take size), r.moveTo (r.position + size)) :=
  InPlace.attempt_of_ok (Reading.unsigned_of_le hr h)

theorem unsigned_of_le (hr : r.InBounds) (horder : r.order = .little) (hsize : size ≤ 8)
    (h : size ≤ r.ahead.length) :
    r.unsigned size = .ok (littleEndian (r.ahead.take size), r.moveTo (r.position + size)) := by
  rw [unsigned_eq hr h, assemble_ahead r hsize, horder]
  rfl

theorem unsigned_of_lt (hr : r.InBounds) (h : r.ahead.length < size) :
    r.unsigned size = .error (.outOfBounds r.address size r.remaining) :=
  InPlace.attempt_of_error (Reading.unsigned_of_lt hr h)

theorem signed_of_le (hr : r.InBounds) (horder : r.order = .little) (hsize : size ≤ 8)
    (h : size ≤ r.ahead.length) :
    r.signed size =
      .ok (signedLittleEndian (r.ahead.take size), r.moveTo (r.position + size)) := by
  rw [signed, InPlace.attempt_of_ok (Reading.signed_of_le hr h), assemble_ahead r hsize, horder,
    signedLittleEndian, List.length_take_of_le h]
  rfl

theorem signed_of_lt (hr : r.InBounds) (h : r.ahead.length < size) :
    r.signed size = .error (.outOfBounds r.address size r.remaining) :=
  InPlace.attempt_of_error (Reading.signed_of_lt hr h)

theorem peekByte_of_pos (h : 0 < r.ahead.length) :
    ∃ b, r.ahead.take 1 = [b] ∧ r.peekByte = .ok b := by
  obtain ⟨b, rest, hahead⟩ := List.exists_cons_of_length_pos h
  refine ⟨b, by rw [hahead]; rfl, ?_⟩
  rw [peekByte, peek_eq, hahead]
  rfl

theorem peekByte_of_eq_zero (h : r.ahead.length = 0) :
    r.peekByte = .error (.outOfBounds r.address 1 0) := by
  rw [peekByte, peek_eq, List.eq_nil_of_length_eq_zero h]
  rfl

/-! ## Requests -/

/-- What a reader can be asked for. -/
inductive Request where
  | unsigned (size : Nat)
  | signed (size : Nat)
  | bytes (count : Nat)
  | skip (count : Nat)
  | peek (count : Nat)
  | peekByte
  | seek (a : Address)

inductive Answer where
  | unsigned (value : Nat)
  | signed (value : Int)
  | bytes (list : List UInt8)
  | byte (b : UInt8)
  | done
  deriving DecidableEq

/-- What is done for a request. -/
def Request.reading : Request → Reading Answer
  | .unsigned size => return .unsigned (← Reading.unsigned size)
  | .signed size => return .signed (← Reading.signed size)
  | .bytes count => return .bytes (← Reading.take count)
  | .skip count => do
    Reading.skip count
    return .done
  | .peek count => return .bytes ((← get).peek count)
  | .peekByte => do
    match (← get).peekByte with
    | .ok b => return .byte b
    | .error e => throw e
  | .seek a => do
    Reading.seek a
    return .done

/-- The answer to a request, and the reader behind it. -/
def serve (r : Reader) (q : Request) : Except ImageError Answer × Reader := q.reading.on r

/-- The reader that goes on behind a request. -/
def after (r : Reader) (q : Request) : Reader := (r.serve q).2

/-- The reader that goes on behind requests, which it is asked for in order. -/
def afterAll (r : Reader) (requests : List Request) : Reader := requests.foldl after r

namespace Request

/-- The number of bytes that a request takes off those ahead; others only look or move. -/
def count? : Request → Option Nat
  | .unsigned size | .signed size => some size
  | .bytes count | .skip count => some count
  | .peek _ | .peekByte | .seek _ => none

/-- An integer that is asked for has at most eight bytes. -/
def IsShort : Request → Prop
  | .unsigned size | .signed size => size ≤ 8
  | _ => True

/-- What a request that takes bytes is answered. -/
def answer (order : ByteOrder) (list : List UInt8) : Request → Answer
  | .unsigned _ => .unsigned (littleEndian (order.arrange list))
  | .signed _ => .signed (signedLittleEndian (order.arrange list))
  | .bytes _ => .bytes list
  | _ => .done

end Request

/-! ## What a request gives -/

section

variable {q : Request} {n : Nat}

theorem after_of_serve {result : Except ImageError Answer} {r' : Reader}
    (h : r.serve q = (result, r')) : r.after q = r' := by
  rw [after, h]

/-- A request takes its bytes if there are enough of them. -/
theorem serve_of_le (hr : r.InBounds) (hq : q.count? = some n) (h : n ≤ r.ahead.length) :
    ∃ answer, r.serve q = (.ok answer, r.moveTo (r.position + n)) ∧
      (q.IsShort → answer = q.answer r.order (r.ahead.take n)) := by
  cases q with
  | unsigned size =>
    cases hq
    refine ⟨_, InPlace.on_bind_of_ok (Reading.unsigned_of_le hr h), fun hshort => ?_⟩
    rw [assemble_ahead r hshort]
    rfl
  | signed size =>
    cases hq
    refine ⟨_, InPlace.on_bind_of_ok (Reading.signed_of_le hr h), fun hshort => ?_⟩
    rw [assemble_ahead r hshort, Request.answer, signedLittleEndian, ByteOrder.length_arrange,
      List.length_take_of_le h]
  | bytes count =>
    cases hq
    exact ⟨_, InPlace.on_bind_of_ok (Reading.take_of_le hr h), fun _ => rfl⟩
  | skip count =>
    cases hq
    exact ⟨_, InPlace.on_bind_of_ok (Reading.skip_of_le hr h), fun _ => rfl⟩
  | peek | peekByte | seek => cases hq

/-- Else it fails, and the reader is as it was. -/
theorem serve_of_lt (hr : r.InBounds) (hq : q.count? = some n) (h : r.ahead.length < n) :
    r.serve q = (.error (.outOfBounds r.address n r.remaining), r) := by
  cases q with
  | unsigned size =>
    cases hq
    exact InPlace.on_bind_of_error (Reading.unsigned_of_lt hr h)
  | signed size =>
    cases hq
    exact InPlace.on_bind_of_error (Reading.signed_of_lt hr h)
  | bytes count =>
    cases hq
    exact InPlace.on_bind_of_error (Reading.take_of_lt hr h)
  | skip count =>
    cases hq
    exact InPlace.on_bind_of_error (Reading.skip_of_lt hr h)
  | peek | peekByte | seek => cases hq

theorem serve_peekByte (r : Reader) : r.serve .peekByte = (r.peekByte.map .byte, r) := by
  rw [serve, Request.reading, InPlace.on_bind_of_ok (InPlace.on_get r)]
  cases r.peekByte <;> rfl

theorem serve_seek_of_mem {position : Nat} (hplace : a.linear = r.image.base.linear + position)
    (hfirst : r.first ≤ position) (hlimit : position ≤ r.limit) :
    r.serve (.seek a) = (.ok .done, r.moveTo position) :=
  InPlace.on_bind_of_ok (Reading.seek_of_mem hplace hfirst hlimit)

theorem serve_seek_of_not_mem
    (h : ∀ position, r.first ≤ position → position ≤ r.limit →
      a.linear ≠ r.image.base.linear + position) :
    r.serve (.seek a) = (.error (.notMapped a), r) :=
  InPlace.on_bind_of_error (Reading.seek_of_not_mem h)

end

/-! ## Ranges -/

/-- The reader stands in its range, and the range lies in the image. -/
structure InRange (r : Reader) : Prop where
  first_le : r.first ≤ r.position
  position_le : r.position ≤ r.limit
  inBounds : r.InBounds

/-- The reader has just been made. -/
inductive Made : Reader → Prop
  | ofImage (m : Image) (order : ByteOrder) : Made (.ofImage m order)
  | startingAt {m : Image} {a : Address} {order : ByteOrder} {r : Reader}
      (h : Reader.startingAt m a order = .ok r) : Made r
  | between {m : Image} {start stop : Address} {order : ByteOrder} {r : Reader}
      (h : Reader.between m start stop order = .ok r) : Made r

theorem inRange_startingAt (h : Reader.startingAt m a order = .ok r) : r.InRange := by
  unfold Reader.startingAt at h
  split at h
  · next hposition =>
    cases h
    exact ⟨Nat.zero_le _, Image.le_size_of_position? hposition, Nat.le_refl _⟩
  · cases h

/-- Also a range that would end before its start lies in the image. -/
theorem inRange_between (h : Reader.between m start stop order = .ok r) : r.InRange := by
  unfold Reader.between at h
  split at h
  · cases h
  · cases h
  · next hfirst hlast =>
    cases h
    have hle := Image.le_size_of_position? hfirst
    have hle' := Image.le_size_of_position? hlast
    exact ⟨Nat.le_refl _, Nat.le_max_right _ _, Nat.max_le.2 ⟨hle', hle⟩⟩

theorem Made.inRange (h : r.Made) : r.InRange := by
  cases h with
  | ofImage m order => exact ⟨Nat.le_refl _, Nat.zero_le _, Nat.le_refl _⟩
  | startingAt h => exact inRange_startingAt h
  | between h => exact inRange_between h

namespace InRange

theorem length_ahead (h : r.InRange) : r.position + r.ahead.length = r.limit := by
  rw [Reader.length_ahead h.inBounds, remaining]
  exact Nat.add_sub_of_le h.position_le

/-- A request is answered, and the reader goes on somewhere in its range, or it fails, and the
reader is as it was. -/
theorem serve_cases (h : r.InRange) (q : Request) :
    (∃ answer position, r.serve q = (.ok answer, r.moveTo position) ∧
      r.first ≤ position ∧ position ≤ r.limit) ∨
    ∃ e, r.serve q = (.error e, r) := by
  have hcounted {n : Nat} (hq : q.count? = some n) :
      (∃ answer position, r.serve q = (.ok answer, r.moveTo position) ∧
        r.first ≤ position ∧ position ≤ r.limit) ∨
      ∃ e, r.serve q = (.error e, r) := by
    rcases Nat.lt_or_ge r.ahead.length n with hshort | henough
    · exact .inr ⟨_, serve_of_lt h.inBounds hq hshort⟩
    · obtain ⟨answer, hserve, -⟩ := serve_of_le h.inBounds hq henough
      have hahead := h.length_ahead
      exact .inl ⟨answer, _, hserve, Nat.le_add_right_of_le h.first_le, by omega⟩
  cases q with
  | unsigned | signed | bytes | skip => exact hcounted rfl
  | peek count => exact .inl ⟨_, r.position, rfl, h.first_le, h.position_le⟩
  | peekByte =>
    rw [serve_peekByte]
    cases r.peekByte with
    | ok b => exact .inl ⟨_, r.position, rfl, h.first_le, h.position_le⟩
    | error e => exact .inr ⟨e, rfl⟩
  | seek a =>
    by_cases hplace : ∃ position, r.first ≤ position ∧ position ≤ r.limit ∧
        a.linear = r.image.base.linear + position
    · obtain ⟨position, hfirst, hlimit, heq⟩ := hplace
      exact .inl ⟨_, position, serve_seek_of_mem heq hfirst hlimit, hfirst, hlimit⟩
    · exact .inr ⟨_, serve_seek_of_not_mem fun position hfirst hlimit heq =>
        hplace ⟨position, hfirst, hlimit, heq⟩⟩

/-- A request changes at most the position, and leaves it in the range. -/
theorem after (h : r.InRange) (q : Request) :
    ∃ position, r.after q = r.moveTo position ∧ r.first ≤ position ∧ position ≤ r.limit := by
  rcases h.serve_cases q with ⟨answer, position, hserve, hrange⟩ | ⟨e, hserve⟩
  · exact ⟨position, after_of_serve hserve, hrange⟩
  · exact ⟨r.position, after_of_serve hserve, h.first_le, h.position_le⟩

/-- A request that fails leaves the reader as it was. -/
theorem after_of_error (h : r.InRange) {q : Request} {e : ImageError}
    (hserve : (r.serve q).1 = .error e) : r.after q = r := by
  rcases h.serve_cases q with ⟨answer, position, hok, -⟩ | ⟨e', herror⟩
  · rw [hok] at hserve
    cases hserve
  · exact after_of_serve herror

/-- Requests change at most the position, and leave it in the range. -/
theorem afterAll (h : r.InRange) (requests : List Request) :
    ∃ position, r.afterAll requests = r.moveTo position ∧ r.first ≤ position ∧
      position ≤ r.limit := by
  induction requests generalizing r with
  | nil => exact ⟨r.position, rfl, h.first_le, h.position_le⟩
  | cons q requests ih =>
    obtain ⟨position, hafter, hfirst, hlimit⟩ := h.after q
    have hmoved : (r.moveTo position).InRange := ⟨hfirst, hlimit, h.inBounds⟩
    obtain ⟨position', hafter', hfirst', hlimit'⟩ := ih hmoved
    refine ⟨position', ?_, hfirst', hlimit'⟩
    change (r.after q).afterAll requests = _
    rw [hafter, hafter']
    rfl

end InRange

/-! ## The contract -/

/-- These are the next bytes of the image, `n` of them. -/
def Next (r : Reader) (n : Nat) (list : List UInt8) : Prop :=
  list.length = n ∧ list <+: r.image.bytes.drop r.position

theorem next_ahead (hr : r.InBounds) {n : Nat} (h : n ≤ r.ahead.length) :
    r.Next n (r.ahead.take n) := by
  refine ⟨List.length_take_of_le h, ?_⟩
  rw [take_ahead_of_le hr h]
  exact List.take_prefix _ _

/-- What a reader does when it is asked for something. -/
structure Contract (r : Reader) : Prop where
  /-- The bytes that are asked for are read, and the reader goes on behind them. -/
  read : ∀ q n, q.count? = some n → q.IsShort → n ≤ r.remaining →
    ∃ list, r.Next n list ∧ r.serve q = (.ok (q.answer r.order list), r.moveTo (r.position + n))
  /-- Or they are too few. -/
  read_error : ∀ q n, q.count? = some n → r.remaining < n →
    r.serve q = (.error (.outOfBounds r.address n r.remaining), r)
  peek : ∀ count, ∃ list, r.Next (min count r.remaining) list ∧
    r.serve (.peek count) = (.ok (.bytes list), r)
  peekByte : 0 < r.remaining → ∃ b, r.Next 1 [b] ∧ r.serve .peekByte = (.ok (.byte b), r)
  peekByte_error : r.remaining = 0 →
    r.serve .peekByte = (.error (.outOfBounds r.address 1 r.remaining), r)
  seek : ∀ (a : Address) (position : Nat), (a.linear : Int) - r.image.base.linear = position →
    r.first ≤ position → position ≤ r.limit →
      r.serve (.seek a) = (.ok .done, r.moveTo position)
  seek_error : ∀ a : Address,
    (a.linear : Int) - r.image.base.linear < r.first ∨
      (r.limit : Int) < a.linear - r.image.base.linear →
    r.serve (.seek a) = (.error (.notMapped a), r)
  after_error : ∀ q e, (r.serve q).1 = .error e → r.after q = r

theorem InRange.contract (h : r.InRange) : r.Contract where
  read q n hq hshort hn := by
    rw [← Reader.length_ahead h.inBounds] at hn
    obtain ⟨answer, hserve, hanswer⟩ := serve_of_le h.inBounds hq hn
    rw [hanswer hshort] at hserve
    exact ⟨_, next_ahead h.inBounds hn, hserve⟩
  read_error q n hq hn := by
    rw [← Reader.length_ahead h.inBounds] at hn
    exact serve_of_lt h.inBounds hq hn
  peek count := by
    have hle : min count r.remaining ≤ r.ahead.length := by
      rw [Reader.length_ahead h.inBounds]
      exact Nat.min_le_right _ _
    refine ⟨_, next_ahead h.inBounds hle, ?_⟩
    rw [← Reader.length_ahead h.inBounds, ← List.take_eq_take_min, ← peek_eq]
    rfl
  peekByte hpos := by
    rw [← Reader.length_ahead h.inBounds] at hpos
    obtain ⟨b, hnext, hpeek⟩ := peekByte_of_pos hpos
    refine ⟨b, hnext ▸ next_ahead h.inBounds hpos, ?_⟩
    rw [serve_peekByte, hpeek]
    rfl
  peekByte_error hzero := by
    rw [← Reader.length_ahead h.inBounds] at hzero
    rw [serve_peekByte, peekByte_of_eq_zero hzero, ← Reader.length_ahead h.inBounds, hzero]
    rfl
  seek a position hdistance hfirst hlimit := serve_seek_of_mem (by omega) hfirst hlimit
  seek_error a hfar := serve_seek_of_not_mem fun position hfirst hlimit heq => by omega
  after_error q e hserve := h.after_of_error hserve

/-- Whatever a reader has been asked for since it was made, its image, its range and its byte order
are those that it was made with, its position lies in the range, and it keeps the contract. -/
theorem contract_afterAll (h : r.Made) (requests : List Request) :
    ∃ position, r.afterAll requests = r.moveTo position ∧
      r.first ≤ position ∧ position ≤ r.limit ∧ r.limit ≤ r.image.size ∧
      (r.afterAll requests).Contract := by
  have hrange := h.inRange
  obtain ⟨position, hafter, hfirst, hlimit⟩ := hrange.afterAll requests
  have hmoved : (r.moveTo position).InRange := ⟨hfirst, hlimit, hrange.inBounds⟩
  exact ⟨position, hafter, hfirst, hlimit, hrange.inBounds, hafter ▸ hmoved.contract⟩

/-- A reader of two bytes in the middle of four: what lies outside its range is neither read nor
sought. -/
theorem contract_afterAll_between :
    let m : Image := ⟨⟨.flat .w32, 0x1000, by decide⟩, [0x34, 0x12, 0x78, 0x56]⟩
    let requests : List Request :=
      [.unsigned 2, .skip 1, .seek (m.addressAt 4), .seek (m.addressAt 2), .peek 8]
    ∃ r, Reader.between m (m.addressAt 1) (m.addressAt 3) .big = .ok r ∧
      r.afterAll requests = r.moveTo 2 ∧ (r.afterAll requests).Contract := by
  intro m requests
  let r : Reader := ⟨m, 1, 1, 3, .big⟩
  have hfirst : m.position? (m.addressAt 1) = some 1 := by decide +kernel
  have hlast : m.position? (m.addressAt 3) = some 3 := by decide +kernel
  have hmade : Reader.between m (m.addressAt 1) (m.addressAt 3) .big = .ok r := by
    rw [Reader.between, hfirst, hlast]
    rfl
  have hafter : r.afterAll requests = r.moveTo 2 := by decide +kernel
  obtain ⟨position, -, -, -, -, hcontract⟩ := contract_afterAll (.between hmade) requests
  exact ⟨r, hmade, hafter, hcontract⟩

end Reader

end CodeLift
