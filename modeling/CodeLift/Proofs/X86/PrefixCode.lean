-- SUMMARY: The bytes of an instruction decode to it whatever follows them.
import CodeLift.Proofs.X86.Decoding

/-!
# Instructions are a prefix code

The decoder reads bytes in order and never looks ahead, so the bytes of an
instruction alone tell where it ends (`decode_append`): no instruction is a proper
prefix of another one. Of the errors only truncation depends on what follows; bytes
that are wrong stay wrong (`decode_error_append`).

Hence an image that is cut off decodes as before, up to the instruction in which it
is cut (`decode_take_of_le`, `decode_of_take`).
-/

namespace CodeLift.X86

variable {mode : Mode} {a : Address} {bytes : List UInt8} {i : Instruction} {e : DecodeError}

/-! ## More bytes -/

/-- The bytes of an instruction decode to it whatever follows them. -/
theorem decode_append (h : decode mode a bytes = .ok i) (other : List UInt8) :
    decode mode a (i.bytes ++ other) = .ok i := by
  obtain ⟨-, -, hprefix, -⟩ := decode_eq_ok h
  obtain ⟨body, c, hrun, hplace⟩ := decode_eq_ok_iff.1 h
  obtain ⟨-, read, ⟨htaken, -⟩, hsame⟩ := (Decoding.ensures_instruction mode).ok hrun
  have hread : read = i.bytes := by simpa [htaken] using congrArg Instruction.bytes hplace.symm
  have hle : i.bytes.length ≤ maxLength := Nat.le_trans hprefix.length_le (List.length_take_le _ _)
  subst hread
  refine decode_eq_ok_iff.2 ⟨body, ⟨i.bytes, other.take (maxLength - i.bytes.length)⟩, ?_, ?_⟩
  · rw [List.take_append, List.take_of_length_le hle]
    exact hsame _
  · simpa [htaken] using hplace

/-- Bytes that are wrong, and not just cut off, stay so whatever follows them. -/
theorem decode_error_append (h : decode mode a bytes = .error e) (hfinal : e.fault.IsFinal)
    (more : List UInt8) : decode mode a (bytes ++ more) = .error e := by
  obtain ⟨hrun, haddress⟩ := decode_eq_error_iff.1 h
  refine decode_eq_error_iff.2 ⟨?_, haddress⟩
  rcases (Decoding.ensures_instruction mode).error hrun with ⟨needed, hcut, -⟩ | ⟨-, hmore⟩
  · exact absurd hcut (hfinal needed _)
  · rw [List.take_append]
    exact hmore _

/-- Bytes that are cut off are fewer than needed. -/
theorem final_or_truncated (h : decode mode a bytes = .error e) :
    e.fault.IsFinal ∨
      ∃ needed, e.fault = .truncated needed (min maxLength bytes.length) ∧
        min maxLength bytes.length < needed := by
  obtain ⟨hrun, -⟩ := decode_eq_error_iff.1 h
  rcases (Decoding.ensures_instruction mode).error hrun with hcut | ⟨hfinal, -⟩
  · exact .inr (by simpa [Cursor.CutsOff, Cursor.size] using hcut)
  · exact .inl hfinal

/-! ## Fewer bytes -/

/-- The bytes of a decoded instruction are the first ones at hand. -/
theorem bytes_eq_take (h : decode mode a bytes = .ok i) : i.bytes = bytes.take i.length := by
  obtain ⟨-, -, hprefix, -⟩ := decode_eq_ok h
  exact List.prefix_iff_eq_take.1 (List.IsPrefix.trans hprefix (List.take_prefix _ _))

theorem length_le (h : decode mode a bytes = .ok i) : i.length ≤ min maxLength bytes.length := by
  obtain ⟨-, -, hprefix, -⟩ := decode_eq_ok h
  simpa [Instruction.length] using hprefix.length_le

/-- Bytes that begin with an instruction can be cut off behind it. -/
theorem decode_take_of_le (h : decode mode a bytes = .ok i) {n : Nat} (hn : i.length ≤ n) :
    decode mode a (bytes.take n) = .ok i := by
  have hbytes : bytes.take n = i.bytes ++ (bytes.take n).drop i.length := by
    have hsplit := List.take_append_drop i.length (bytes.take n)
    rwa [List.take_take, Nat.min_eq_left hn, ← bytes_eq_take h, eq_comm] at hsplit
  rw [hbytes]
  exact decode_append h _

/-- What decodes when bytes are cut off decodes before. -/
theorem decode_of_take {n : Nat} (h : decode mode a (bytes.take n) = .ok i) :
    decode mode a bytes = .ok i := by
  have hbytes : bytes = i.bytes ++ bytes.drop i.length := by
    have hn : i.length ≤ n :=
      Nat.le_trans (length_le h) (Nat.le_trans (Nat.min_le_right _ _) (List.length_take_le _ _))
    rw [bytes_eq_take h, List.take_take, Nat.min_eq_left hn, List.take_append_drop]
  rw [hbytes]
  exact decode_append h _

/-- An instruction that is cut off is truncated. -/
theorem decode_take_of_lt (h : decode mode a bytes = .ok i) {n : Nat} (hn : n < i.length) :
    ∃ needed available,
      decode mode a (bytes.take n) = .error ⟨a, .truncated needed available⟩ := by
  cases hcut : decode mode a (bytes.take n) with
  | ok j =>
    have hsame : decode mode a bytes = .ok j := decode_of_take hcut
    rw [h] at hsame
    cases hsame
    have hle := Nat.le_trans (length_le hcut) (Nat.min_le_right _ _)
    exact absurd (Nat.le_trans hle (List.length_take_le _ _)) (Nat.not_le_of_lt hn)
  | error e =>
    rcases final_or_truncated hcut with hfinal | ⟨needed, hfault, -⟩
    · have hstays := decode_error_append hcut hfinal (bytes.drop n)
      rw [List.take_append_drop, h] at hstays
      cases hstays
    · obtain ⟨-, haddress⟩ := decode_eq_error_iff.1 hcut
      obtain ⟨address, fault⟩ := e
      cases haddress
      cases hfault
      exact ⟨needed, _, rfl⟩

/-! ## Prefix code -/

/-- Instructions are a prefix code: the bytes of one decode to it whatever follows, any fewer are
truncated, and what fails for another reason fails so whatever follows. -/
theorem decode_isPrefixCode (mode : Mode) (a : Address) (bytes : List UInt8) :
    (∀ i, decode mode a bytes = .ok i →
      1 ≤ i.length ∧ i.length ≤ min 15 bytes.length ∧ i.bytes = bytes.take i.length ∧
        (∀ other, decode mode a (bytes.take i.length ++ other) = .ok i) ∧
        ∀ n < i.length, ∃ needed available,
          decode mode a (bytes.take n) = .error ⟨a, .truncated needed available⟩) ∧
    (∀ e, decode mode a bytes = .error e →
      (∀ needed available, e.fault ≠ .truncated needed available) →
        ∀ more, decode mode a (bytes ++ more) = .error e) ∧
    ∀ e needed available, decode mode a bytes = .error e → e.fault = .truncated needed available →
      available = min 15 bytes.length ∧ available < needed := by
  refine ⟨?_, ?_, ?_⟩
  · intro i h
    obtain ⟨-, hne, -, -⟩ := decode_eq_ok h
    refine ⟨List.length_pos_iff.2 hne, length_le h, bytes_eq_take h, ?_, ?_⟩
    · intro other
      rw [← bytes_eq_take h]
      exact decode_append h other
    · intro n hn
      exact decode_take_of_lt h hn
  · intro e h hfinal
    exact decode_error_append h hfinal
  · intro e needed available h hfault
    rcases final_or_truncated h with hfinal | ⟨needed', hcut, hlt⟩
    · exact absurd hfault (hfinal needed available)
    · rw [hfault] at hcut
      cases hcut
      exact ⟨rfl, hlt⟩

/-- Four prefixes before `add dword cs:[ebx+esi*4+12345678], DEADBEEF` make an instruction of the
greatest length, which ends where it does whatever follows, and is truncated one byte earlier. -/
theorem decode_isPrefixCode_greatest_length :
    let a : Address := ⟨.segment 0x0C00, 0xFFFE, by decide⟩
    let bytes : List UInt8 :=
      [0xF0, 0x2E, 0x66, 0x67, 0x81, 0x84, 0xB3, 0x78, 0x56, 0x34, 0x12, 0xEF, 0xBE, 0xAD, 0xDE]
    ∃ i, decode .real16 a bytes = .ok i ∧ i.length = 15 ∧
      (∀ other, decode .real16 a (bytes ++ other) = .ok i) ∧
        ∃ needed available,
          decode .real16 a (bytes.take 14) = .error ⟨a, .truncated needed available⟩ := by
  intro a bytes
  obtain ⟨i, hi, hlength⟩ : ∃ i, decode .real16 a bytes = .ok i ∧ i.length = 15 := ⟨_, rfl, rfl⟩
  obtain ⟨-, -, -, hfollowed, hcut⟩ := (decode_isPrefixCode .real16 a bytes).1 i hi
  rw [hlength] at hfollowed hcut
  exact ⟨i, hi, hlength, hfollowed, hcut 14 (by decide)⟩

end CodeLift.X86
