-- SUMMARY: Positions of an image and their addresses lead to each other until counting wraps.
import CodeLift.Image.Writer
import CodeLift.Proofs.Image.Reading

/-!
# Positions and addresses

From positions to addresses one counts offsets, which wrap around at the end of the space;
from addresses to positions one goes by linear distance, which does not. So a position and
its address lead to each other exactly if the count from the base has not wrapped
(`Image.inverse_iff`).

In an image that fits its space, every byte is before the wrap. The end of the image is a
position too, and it is behind the wrap if the last byte is the last of the space
(`Image.positions_inverse_iff`).
-/

namespace CodeLift

namespace Image

variable {m : Image} {a : Address} {position : Nat}

/-! ## The position of an address -/

theorem position?_eq_some_iff :
    m.position? a = some position ↔
      a.linear = m.base.linear + position ∧ position ≤ m.size := by
  unfold position?
  constructor
  · intro h
    split at h
    · next hrange =>
      cases h
      exact ⟨(Nat.add_sub_of_le hrange.1).symm, hrange.2⟩
    · cases h
  · rintro ⟨hlinear, hle⟩
    have hdistance : a.linear - m.base.linear = position := by omega
    rw [hdistance, if_pos ⟨by omega, hle⟩]

/-- The base is the address of the first position. -/
theorem position?_base (m : Image) : m.position? m.base = some 0 :=
  position?_eq_some_iff.2 ⟨rfl, Nat.zero_le _⟩

/-- In its own segment, an address that an image maps is that of its position. -/
theorem addressAt_of_position? (h : m.position? a = some position)
    (hspace : a.space = m.base.space) : m.addressAt position = a := by
  obtain ⟨hlinear, -⟩ := position?_eq_some_iff.1 h
  obtain ⟨space, offset, hlt⟩ := a
  subst hspace
  have hoffset : m.base.offset + position = offset := by
    simp only [Address.linear] at hlinear
    omega
  simp only [addressAt, Address.advance, Address.wrapping, hoffset, Nat.mod_eq_of_lt hlt]

/-! ## The address of a position -/

theorem linear_addressAt (m : Image) (position : Nat) :
    (m.addressAt position).linear =
      m.base.space.origin + (m.base.offset + position) % m.base.space.size := rfl

/-- A position is found again from its address if the count from the base has not wrapped. -/
theorem position?_addressAt_iff (hle : position ≤ m.size) :
    m.position? (m.addressAt position) = some position ↔
      m.base.offset + position < m.base.space.size := by
  rw [← Nat.mod_eq_iff_lt (Nat.ne_of_gt m.base.space.size_pos), position?_eq_some_iff,
    linear_addressAt, Address.linear]
  omega

/-- The end of an image that fills its space to the last byte is looked up as the first address of
the space, which is that of the base or lies in front of it. -/
theorem position?_limit_of_full (h : m.base.offset + m.size = m.base.space.size) :
    m.position? m.limit = if m.base.offset = 0 then some 0 else none := by
  have hlinear : m.limit.linear = m.base.space.origin := by
    rw [limit, linear_addressAt, h, Nat.mod_self, Nat.add_zero]
  split
  · next hzero =>
    have hbase : m.base.linear = m.base.space.origin := by rw [Address.linear, hzero, Nat.add_zero]
    exact position?_eq_some_iff.2 ⟨by rw [hlinear, hbase, Nat.add_zero], Nat.zero_le _⟩
  · next hne =>
    have hfront : m.base.space.origin < m.base.linear :=
      Nat.lt_add_of_pos_right (Nat.pos_of_ne_zero hne)
    rw [position?, hlinear, if_neg fun hrange => Nat.not_le_of_lt hfront hrange.1]

end Image

/-! ## Who stands at a position -/

namespace Reader

variable {m : Image} {a : Address} {order : ByteOrder} {r : Reader}

theorem startingAt_of_position? {position : Nat} (h : m.position? a = some position) :
    Reader.startingAt m a order = .ok ⟨m, 0, position, m.size, order⟩ := by
  rw [Reader.startingAt, h]

theorem seek_of_mem {position : Nat} (hplace : a.linear = r.image.base.linear + position)
    (hfirst : r.first ≤ position) (hlimit : position ≤ r.limit) :
    r.seek a = .ok (r.moveTo position) := by
  rw [seek, InPlace.attempt_of_ok (Reading.seek_of_mem hplace hfirst hlimit)]
  rfl

/-- A reader stays where it is if it seeks the address of its own position. -/
theorem seek_eq_self_iff (hr : r.InRange) :
    r.seek a = .ok r ↔ r.image.position? a = some r.position := by
  rw [Image.position?_eq_some_iff]
  by_cases hplace : ∃ position, r.first ≤ position ∧ position ≤ r.limit ∧
      a.linear = r.image.base.linear + position
  · obtain ⟨position, hfirst, hlimit, hlinear⟩ := hplace
    rw [seek_of_mem hlinear hfirst hlimit]
    constructor
    · intro h
      have hposition : position = r.position := congrArg Reader.position (Except.ok.inj h)
      exact ⟨hposition ▸ hlinear, Nat.le_trans hr.position_le hr.inBounds⟩
    · intro hself
      have hposition : position = r.position := by omega
      rw [hposition]
      rfl
  · have herror : r.seek a = .error (.notMapped a) := by
      rw [seek, InPlace.attempt_of_error (Reading.seek_of_not_mem
        fun position hfirst hlimit hlinear => hplace ⟨position, hfirst, hlimit, hlinear⟩)]
      rfl
    rw [herror]
    constructor
    · intro h
      cases h
    · intro hself
      exact absurd ⟨r.position, hr.first_le, hr.position_le, hself.1⟩ hplace

/-- The reader between two addresses is that of the whole image if the first is at the start and
the second at the end. -/
theorem between_base_eq_ofImage_iff :
    Reader.between m m.base a order = .ok (.ofImage m order) ↔ m.position? a = some m.size := by
  rw [Reader.between, Image.position?_base]
  cases m.position? a with
  | none => simp
  | some position => simp [Reader.ofImage]

end Reader

theorem Writer.startingAt_of_position? {m : Image} {a : Address} {order : ByteOrder}
    {position : Nat} (h : m.position? a = some position) :
    Writer.startingAt m a order = .ok ⟨m, position, order⟩ := by
  rw [Writer.startingAt, h]

namespace Image

variable {m : Image} {position : Nat}

/-- The position and its address lead to each other: the address is found at the position, whoever
is made at the address stands there, and a reader that stands there stays when it seeks its own
address. -/
structure Inverse (m : Image) (position : Nat) : Prop where
  position? : m.position? (m.addressAt position) = some position
  reader : ∀ order, ∃ r, Reader.startingAt m (m.addressAt position) order = .ok r ∧
    r.position = position ∧ r.address = m.addressAt position
  writer : ∀ order, ∃ w, Writer.startingAt m (m.addressAt position) order = .ok w ∧
    w.position = position ∧ w.address = m.addressAt position
  seek : ∀ r : Reader, r.InRange → r.image = m → r.position = position →
    r.seek r.address = .ok r

theorem inverse_iff (hle : position ≤ m.size) :
    m.Inverse position ↔ m.base.offset + position < m.base.space.size := by
  rw [← position?_addressAt_iff hle]
  refine ⟨Inverse.position?, fun hplace => ⟨hplace, fun order => ?_, fun order => ?_, ?_⟩⟩
  · exact ⟨_, Reader.startingAt_of_position? hplace, rfl, rfl⟩
  · exact ⟨_, Writer.startingAt_of_position? hplace, rfl, rfl⟩
  · rintro r hr rfl rfl
    exact (Reader.seek_eq_self_iff hr).2 hplace

/-- In an image that fits its space, the position of each byte and its address lead to each other.
So do the end and its address, and the range from the base to the end is the whole image, if and
only if the space goes on behind the last byte. -/
theorem positions_inverse_iff (hfits : m.base.offset + m.size ≤ m.base.space.size) :
    (∀ position < m.size, m.Inverse position) ∧
    (m.Inverse m.size ↔ m.base.offset + m.size < m.base.space.size) ∧
    (m.position? m.limit = some m.size ↔ m.base.offset + m.size < m.base.space.size) ∧
    ∀ order, Reader.between m m.base m.limit order = .ok (.ofImage m order) ↔
      m.base.offset + m.size < m.base.space.size := by
  have hlimit : m.position? m.limit = some m.size ↔
      m.base.offset + m.size < m.base.space.size := position?_addressAt_iff (Nat.le_refl _)
  refine ⟨fun position hlt => ?_, inverse_iff (Nat.le_refl _), hlimit, fun order => ?_⟩
  · exact (inverse_iff (Nat.le_of_lt hlt)).2 (by omega)
  · rw [Reader.between_base_eq_ofImage_iff, hlimit]

/-- Three bytes in front of the last one of a segment. -/
theorem positions_inverse_iff_before_last :
    let m : Image := ⟨⟨.segment 0x0C00, 0xFFFC, by decide⟩, [0x8C, 0xC8, 0xC3]⟩
    m.base.offset + m.size ≤ m.base.space.size ∧ m.limit.offset = 0xFFFF ∧ m.Inverse 2 ∧
      m.Inverse 3 ∧ ∀ order, Reader.between m m.base m.limit order = .ok (.ofImage m order) := by
  intro m
  have hfits : m.base.offset + m.size ≤ m.base.space.size := by decide +kernel
  have hroom : m.base.offset + m.size < m.base.space.size := by decide +kernel
  obtain ⟨hbytes, hend, -, hwhole⟩ := positions_inverse_iff hfits
  exact ⟨hfits, by decide +kernel, hbytes 2 (by decide), hend.2 hroom,
    fun order => (hwhole order).2 hroom⟩

/-- The last byte of the image is the last of the space: the address behind it is the first of the
space, which is not mapped. -/
theorem not_inverse_last_of_space :
    let m : Image := ⟨⟨.flat .w16, 0xFFFF, by decide⟩, [0x90]⟩
    m.base.offset + m.size ≤ m.base.space.size ∧ m.limit.offset = 0 ∧
      m.position? m.limit = none ∧
      Reader.between m m.base m.limit .little = .error (.notMapped m.limit) ∧
      ¬ m.Inverse m.size := by
  intro m
  have hfull : m.base.offset + m.size = m.base.space.size := by decide +kernel
  have hnone : m.position? m.limit = none := position?_limit_of_full hfull
  refine ⟨Nat.le_of_eq hfull, by decide +kernel, hnone, ?_, fun h => ?_⟩
  · rw [Reader.between, position?_base, hnone]
  · cases hnone.symm.trans h.position?

end Image

end CodeLift
