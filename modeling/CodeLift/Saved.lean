-- SUMMARY: The saved forms of addresses, widths, byte orders, register classes, operations and conditions.
import CodeLift.Address.Text
import CodeLift.ByteOrder
import CodeLift.Instruction
import CodeLift.Json

/-!
# Saved forms

An address is saved as its text, an alternative as its tag. A tag stands alone
or is the only field of an object, whose value is then the content: `null` where
there is none. Only the operation `other` has content, which is its code.
-/

namespace CodeLift

namespace Json

/-- A tag with its content. -/
def tagged? : Json → Option (String × Json)
  | .string tag => some (tag, .null)
  | .object [(tag, content)] => some (tag, content)
  | _ => none

/-- A tag without content. -/
def tag? (j : Json) : Option String :=
  match j.tagged? with
  | some (tag, .null) => some tag
  | _ => none

end Json

/-! ## Addresses -/

def Address.toJson (a : Address) : Json := .string a.render

def Address.ofJson? (j : Json) : Option Address := j.string?.bind fun text => (read text).toOption

/-! ## Alternatives without content -/

/-- The word for a width in saved data. -/
def Width.name : Width → String
  | .w16 => "Bits16"
  | .w32 => "Bits32"
  | .w64 => "Bits64"

def Width.all : List Width := [.w16, .w32, .w64]

def Width.toJson (w : Width) : Json := .string w.name

def Width.ofJson? (j : Json) : Option Width :=
  j.tag?.bind fun tag => Width.all.find? (·.name == tag)

/-- The word for a byte order in saved data. -/
def ByteOrder.name : ByteOrder → String
  | .little => "Little"
  | .big => "Big"

def ByteOrder.all : List ByteOrder := [.little, .big]

def ByteOrder.toJson (o : ByteOrder) : Json := .string o.name

def ByteOrder.ofJson? (j : Json) : Option ByteOrder :=
  j.tag?.bind fun tag => ByteOrder.all.find? (·.name == tag)

def RegisterClass.toJson (c : RegisterClass) : Json := .string c.name

def RegisterClass.ofJson? (j : Json) : Option RegisterClass := j.tag?.bind RegisterClass.ofName?

def Condition.toJson (c : Condition) : Json := .string c.name

def Condition.ofJson? (j : Json) : Option Condition := j.tag?.bind Condition.ofName?

/-! ## Operations -/

def Operation.toJson : Operation → Json
  | .other code => .object [("Other", .number code)]
  | o => .string o.tag

/-- Read an operation; a code has 16 bits. -/
def Operation.ofJson? (j : Json) : Option Operation :=
  match j.tag? with
  | some tag => Operation.ofTag? tag
  | none =>
    match j with
    | .object [("Other", code)] => (code.natBelow? (modulus 16)).map .other
    | _ => none

/-! ## Reading back -/

theorem Width.ofJson?_toJson (w : Width) : Width.ofJson? w.toJson = some w := by
  cases w <;> rfl

theorem ByteOrder.ofJson?_toJson (o : ByteOrder) : ByteOrder.ofJson? o.toJson = some o := by
  cases o <;> rfl

theorem RegisterClass.ofJson?_toJson (c : RegisterClass) :
    RegisterClass.ofJson? c.toJson = some c := by
  cases c <;> rfl

theorem Condition.ofJson?_toJson (c : Condition) : Condition.ofJson? c.toJson = some c := by
  cases c <;> rfl

end CodeLift
