-- SUMMARY: Register transfers as JSON trees.
import CodeLift.Json
import CodeLift.Rtl.Stmt

/-!
# Register transfers as trees

A tree has all of an expression but the full records of its registers and flag
groups, which it names. Values of constants are given as text, because they have
up to 128 bits.
-/

namespace CodeLift

/-! ## Constants and storage -/

def Constant.toJson : Constant → Json
  | .unknown => .null
  | .known bits value => .object [("bits", .number bits), ("value", .string (toString value))]

def Storage.toJson : Storage → Json
  | .register r => .object [("reg", .string r.name)]
  | .flags g => .object [("flags", .string g.name)]
  | .stackLocal offset => .object [("local", .number offset)]
  | .stackArgument offset => .object [("arg", .number offset)]

def Identifier.toJson (id : Identifier) : Json :=
  .object [("name", .string id.name), ("bits", .number id.bits), ("storage", id.storage.toJson)]

/-! ## Expressions -/

def Expr.toJson : Expr → Json
  | .constant c => .object [("const", c.toJson)]
  | .register r => .object [("reg", .string r.name)]
  | .flags g => .object [("flags", .string g.name)]
  | .identifier id => .object [("id", id.toJson)]
  | .address a => .object [("addr", .string a.render)]
  | .external name => .object [("ext", .string name)]
  | .binary op left right bits =>
    .object [("bin", .string op.name), ("l", left.toJson), ("r", right.toJson),
      ("bits", .number bits)]
  | .unary op e bits =>
    .object [("un", .string op.name), ("e", e.toJson), ("bits", .number bits)]
  | .memory segment place bits =>
    let segment := match segment with
      | some r => .string r.name
      | none => .null
    .object [("mem", place.toJson), ("seg", segment), ("bits", .number bits)]
  | .test condition g =>
    .object [("test", .string condition.name), ("flags", .string g.name)]
  | .conditionOf e => .object [("cond", e.toJson)]

/-! ## Statements -/

/-- The kind of a statement, and its parts. -/
def Stmt.parts : Stmt → String × List (String × Json)
  | .assign dst src => ("Assignment", [("dst", dst.toJson), ("src", src.toJson)])
  | .store dst src => ("Store", [("dst", dst.toJson), ("src", src.toJson)])
  | .branch condition target =>
    ("Branch", [("condition", condition.toJson), ("target", .string target.render)])
  | .goto target => ("Goto", [("target", target.toJson)])
  | .call target returnSize => ("Call", [("target", target.toJson), ("ras", .number returnSize)])
  | .ret returnSize extra => ("Return", [("ras", .number returnSize), ("extra", .number extra)])
  | .nop => ("Nop", [])
  | .invalid => ("Invalid", [])

def Stmt.toJson (s : Stmt) : Json :=
  .object (("kind", .string s.parts.1) :: ("text", .string s.render) :: s.parts.2)

def Cluster.toJson (c : Cluster) : Json :=
  .object [("addr", .string c.address.render), ("length", .number c.length),
    ("end", .string c.next.render), ("invalid", .bool c.isInvalid),
    ("stmts", .array (c.statements.map Stmt.toJson)), ("text", .string c.render)]

end CodeLift
