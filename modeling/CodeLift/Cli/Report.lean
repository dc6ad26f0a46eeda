-- SUMMARY: The tables and listings that the commands print.
import CodeLift.Procedure
import CodeLift.Registry

/-!
# Reports

Tables have columns of a least width, names to the left and numbers to the
right. A lifted procedure is printed as comments and clusters, or as JSON.
-/

namespace CodeLift.Cli

/-- The text filled with blanks on the right. -/
def leftColumn (width : Nat) (text : String) : String :=
  String.ofList (text.toList.rightpad width ' ')

/-- The text filled with blanks on the left. -/
def rightColumn (width : Nat) (text : String) : String :=
  String.ofList (text.toList.leftpad width ' ')

def ruler (c : Char) (width : Nat) : String := String.ofList (List.replicate width c)

/-- The lines, each with its end. -/
def joinLines (lines : List String) : String := String.join (lines.map (· ++ "\n"))

/-! ## Tables -/

def architecturesReport (r : Registry) : List String :=
  (leftColumn 20 "Name" ++ " Description") :: ruler '=' 60 ::
    r.entries.map fun e => leftColumn 20 e.name ++ " " ++ e.description

/-- A row of the register table. -/
def registerRow (number name offset bits kind : String) : String :=
  rightColumn 4 number ++ "  " ++ leftColumn 8 name ++ " " ++ rightColumn 6 offset ++ " " ++
    rightColumn 6 bits ++ "  " ++ kind

def registerLine (r : Register) : String :=
  registerRow (toString r.number) r.name (toString r.offset) (toString r.bits) r.kind.name

/-- A flag with its mask in four digits. -/
def flagLine (f : Flag) : String :=
  let digits := String.ofList ((Text.lowerHex f.mask).leftpad 4 '0')
  s!"  {f.letter}  0x{digits}"

def registersReport (p : Processor) : List String :=
  [s!"Architecture:  {p.name}",
   s!"Pointer size:  {p.pointerWidth.bits} bits",
   s!"Word size:     {p.wordBits} bits",
   s!"Stack pointer: {p.stackPointer.name}",
   "",
   registerRow "Num" "Name" "Offset" "Bits" "Class",
   ruler '-' 40] ++
  p.registers.registers.map registerLine ++
  ["", s!"Flags ({p.flags.register.name}):"] ++
  p.flags.flags.map flagLine

/-! ## Procedures -/

def procedureReport (p : Procedure) : List String :=
  s!"// {p.name} ({p.entry.render} .. {p.limit.render})" ::
    (if p.isPartial then ["// warning: contains instructions that could not be lifted"] else []) ++
    s!"// {p.signature.render}" :: p.clusters.map Cluster.render

def clusterJson (c : Cluster) : Json :=
  .object [("address", .string c.address.render), ("length", .number c.length),
    ("statements", .strings (c.statements.map Stmt.render))]

def procedureJson (p : Procedure) : Json :=
  .object [("name", .string p.name), ("entry", .string p.entry.render),
    ("end", .string p.limit.render), ("partial", .bool p.isPartial),
    ("stack_delta", .number p.signature.stackDelta),
    ("identifiers", .strings (p.frame.identifiers.map Identifier.name)),
    ("clusters", .array (p.clusters.map clusterJson))]

/-- The procedures with an empty line between two of them. -/
def proceduresReport (procedures : List Procedure) : List String :=
  List.intercalate [""] (procedures.map procedureReport)

end CodeLift.Cli
