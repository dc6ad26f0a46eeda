-- SUMMARY: Which texts are decorated names, and the signature that each stands for.
import CodeLift.Proofs.Text.Blank
import CodeLift.Proofs.Text.Numeral
import CodeLift.Signature
import Mathlib.Data.String.Basic

/-!
# Decorated names

A decorated name is a name, an `@` and the number of bytes that the procedure takes off the
stack as arguments. The texts of a name and a number are told by a grammar
(`Signature.Decorates`). A signature is read from these alone, and only as long as its stack
delta fits 32 bits (`Signature.decorated_exact`).
-/

namespace CodeLift.Signature

open Text

variable {text name : List Char} {returnSize bytes : Nat}

/-- The text decorates the name with a number of bytes: a name that begins with an underscore has
a second one before it, and others may have one. A numeral has no `@`, so it begins behind the last
one of the text, while the name may have more. -/
inductive Decorates : List Char → List Char → Nat → Prop
  | underscored {name numeral : List Char} {bytes : Nat} (hname : name ≠ [])
      (hnumeral : IsDecimal numeral bytes) : Decorates ('_' :: name ++ '@' :: numeral) name bytes
  | bare {name numeral : List Char} {bytes : Nat} (hname : name ≠ [])
      (hfirst : name.head? ≠ some '_') (hnumeral : IsDecimal numeral bytes) :
      Decorates (name ++ '@' :: numeral) name bytes

/-- The signature of a procedure that takes its return address and `bytes` of arguments off the
stack. It returns nothing, and no register is lost. -/
def removing (name : String) (returnSize bytes : Nat) : Signature where
  name := name
  result := none
  parameters := []
  trashed := []
  stackDelta := returnSize + bytes

/-- What is taken off beyond the return address is the arguments, if they fit 31 bits. -/
theorem extraBytes_removing (name : String) (returnSize : Nat) (h : bytes < modulus 31) :
    (removing name returnSize bytes).extraBytes returnSize = bytes := by
  have hdelta : (removing name returnSize bytes).stackDelta - returnSize = bytes := by
    change (returnSize + bytes : Int) - returnSize = bytes
    omega
  have hlimit : modulus 31 = 2147483648 := rfl
  have hwords : modulus 32 = 4294967296 := rfl
  rw [extraBytes, hdelta, wrap32, hwords]
  exact Int.bmod_eq_of_le (by omega) (by omega)

theorem undecorated_cases (before : List Char) :
    before = '_' :: undecorated before ∨
      before = undecorated before ∧ (undecorated before).head? ≠ some '_' := by
  unfold undecorated
  split
  · exact .inl rfl
  · next hbare =>
    refine .inr ⟨rfl, fun hhead => ?_⟩
    obtain ⟨rest, hrest⟩ := List.head?_eq_some_iff.1 hhead
    exact hbare rest hrest

theorem undecorated_of_head? (h : name.head? ≠ some '_') : undecorated name = name := by
  unfold undecorated
  split
  · exact absurd rfl h
  · rfl

/-- The parts of a decorated name are what splitting at the last `@` gives. -/
theorem decorates_iff_splitLast :
    Decorates text name bytes ↔
      ∃ before numeral, splitLast '@' text = some (before, numeral) ∧ undecorated before = name ∧
        name ≠ [] ∧ IsDecimal numeral bytes := by
  have hlast : ∀ numeral, IsDecimal numeral bytes → '@' ∉ numeral := fun _ hnumeral =>
    hnumeral.not_mem (by decide) (by decide)
  simp only [splitLast_eq_some_iff]
  constructor
  · intro h
    cases h with
    | underscored hname hnumeral => exact ⟨_, _, ⟨rfl, hlast _ hnumeral⟩, rfl, hname, hnumeral⟩
    | bare hname hfirst hnumeral =>
      exact ⟨_, _, ⟨rfl, hlast _ hnumeral⟩, undecorated_of_head? hfirst, hname, hnumeral⟩
  · rintro ⟨before, numeral, ⟨rfl, -⟩, rfl, hname, hnumeral⟩
    have hcases := undecorated_cases before
    generalize undecorated before = name at *
    rcases hcases with rfl | ⟨rfl, hfirst⟩
    · exact .underscored hname hnumeral
    · exact .bare hname hfirst hnumeral

theorem ofDecoratedName?_eq_some_iff {text : String} {sig : Signature} :
    ofDecoratedName? text returnSize = some sig ↔
      ∃ name bytes, Decorates text.toList name bytes ∧ returnSize + bytes < modulus 31 ∧
        sig = removing (String.ofList name) returnSize bytes := by
  simp only [ofDecoratedName?, Option.bind_eq_bind, Option.bind_eq_some_iff, Prod.exists,
    decimalNumeral?_eq_some_iff, Option.ite_none_left_eq_some, not_or, Nat.not_le,
    decorates_iff_splitLast, Option.some_inj]
  constructor
  · rintro ⟨before, numeral, hsplit, bytes, ⟨hnumeral, -⟩, ⟨hname, hfits⟩, rfl⟩
    exact ⟨_, bytes, ⟨before, numeral, hsplit, rfl, hname, hnumeral⟩, hfits, rfl⟩
  · rintro ⟨name, bytes, ⟨before, numeral, hsplit, rfl, hname, hnumeral⟩, hfits, rfl⟩
    exact ⟨before, numeral, hsplit, bytes, ⟨hnumeral, by omega⟩, ⟨hname, hfits⟩, rfl⟩

/-- A name behind an underscore is decorated with a number in decimal, whatever its characters. -/
theorem decorates_repr (name : String) (hname : name ≠ "") (bytes : Nat) :
    Decorates ("_" ++ name ++ "@" ++ bytes.repr).toList name.toList bytes := by
  have hne : name.toList ≠ [] := fun h => hname (String.toList_eq_nil_iff.1 h)
  have h := Decorates.underscored hne (isDecimal_toDigits bytes)
  simpa [Nat.toList_repr] using h

/-- Decorated names are read exactly. A text stands for a signature if and only if it decorates a
name with a number of bytes that fits 32 bits together with the return address. The signature has
this name and takes both off the stack, so the arguments are what it takes beyond the return
address. So each name and number are read back from the text that is made of them. -/
theorem decorated_exact (returnSize : Nat) :
    (∀ (text : String) (sig : Signature), ofDecoratedName? text returnSize = some sig ↔
        ∃ name bytes, Decorates text.toList name bytes ∧ returnSize + bytes < modulus 31 ∧
          sig = removing (String.ofList name) returnSize bytes) ∧
      ∀ (name : String) (bytes : Nat), returnSize + bytes < modulus 31 →
        (removing name returnSize bytes).extraBytes returnSize = bytes ∧
          (name ≠ "" → ofDecoratedName? ("_" ++ name ++ "@" ++ bytes.repr) returnSize =
            some (removing name returnSize bytes)) := by
  refine ⟨fun text sig => ofDecoratedName?_eq_some_iff, fun name bytes hfits => ⟨?_, ?_⟩⟩
  · exact extraBytes_removing name returnSize (by omega)
  · intro hname
    refine ofDecoratedName?_eq_some_iff.2 ⟨_, bytes, decorates_repr name hname bytes, hfits, ?_⟩
    rw [String.ofList_toList]

/-- The greatest number that fits, for a name with an underscore and an `@` of its own. -/
theorem decorated_exact_greatest :
    ofDecoratedName? "__a@b@+02147483643" 4 = some (removing "_a@b" 4 2147483643) ∧
      (removing "_a@b" 4 2147483643).extraBytes 4 = 2147483643 ∧
      ofDecoratedName? "__a@b@2147483643" 4 = some (removing "_a@b" 4 2147483643) ∧
      ofDecoratedName? "__a@b@2147483644" 4 = none := by
  have hfits : 4 + 2147483643 < modulus 31 := by decide
  have hnumeral : IsDecimal "+02147483643".toList 2147483643 :=
    .signed nofun (List.all_eq_true.1 (by decide +kernel))
  have htext : "__a@b@+02147483643".toList =
      '_' :: "_a@b".toList ++ '@' :: "+02147483643".toList := by decide +kernel
  have hdecorates : Decorates "__a@b@+02147483643".toList "_a@b".toList 2147483643 :=
    htext ▸ .underscored (by decide) hnumeral
  obtain ⟨hextra, hback⟩ := (decorated_exact 4).2 "_a@b" 2147483643 hfits
  exact ⟨((decorated_exact 4).1 _ _).2 ⟨_, _, hdecorates, hfits, by rw [String.ofList_toList]⟩,
    hextra, hback (by decide), by decide +kernel⟩

end CodeLift.Signature
