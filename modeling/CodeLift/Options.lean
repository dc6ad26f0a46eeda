-- SUMMARY: Options that a project keeps for its architecture, and their saved form.
import CodeLift.Json

/-!
# Options

An option value is a text, a list of values, or a dictionary. Dictionaries are
sorted by key and hold each key once. `SavedArchitecture` is what a project
saves: the name of an architecture and its options, which are left out of the
saved form when there are none.
-/

namespace CodeLift

inductive OptionValue where
  | item (text : String)
  | list (values : List OptionValue)
  | dict (entries : List (String × OptionValue))

/-- Options by name, sorted. -/
abbrev Options := List (String × OptionValue)

/-- The text of a value that is one. -/
def OptionValue.item? : OptionValue → Option String
  | .item text => some text
  | _ => none

namespace Options

def find? (o : Options) (key : String) : Option OptionValue :=
  (List.find? (·.1 == key) o).map Prod.snd

def erase (o : Options) (key : String) : Options := List.filter (·.1 != key) o

/-- Set an option, in its place in the order of keys. -/
def insert (key : String) (value : OptionValue) : Options → Options
  | [] => [(key, value)]
  | (k, v) :: rest =>
    if key < k then (key, value) :: (k, v) :: rest
    else if key = k then (key, value) :: rest
    else (k, v) :: insert key value rest

end Options

/-! ## Saved form -/

mutual

def OptionValue.toJson : OptionValue → Json
  | .item text => .string text
  | .list values => .array (OptionValue.listToJson values)
  | .dict entries => .object (OptionValue.entriesToJson entries)

def OptionValue.listToJson : List OptionValue → List Json
  | [] => []
  | value :: rest => value.toJson :: OptionValue.listToJson rest

def OptionValue.entriesToJson : List (String × OptionValue) → List (String × Json)
  | [] => []
  | (key, value) :: rest => (key, value.toJson) :: OptionValue.entriesToJson rest

end

mutual

def OptionValue.ofJson? : Json → Option OptionValue
  | .string text => some (.item text)
  | .array elements => (OptionValue.listOfJson? elements).map .list
  | .object fields => (OptionValue.entriesOfJson? fields).map .dict
  | _ => none

def OptionValue.listOfJson? : List Json → Option (List OptionValue)
  | [] => some []
  | j :: rest => do
    let value ← OptionValue.ofJson? j
    let values ← OptionValue.listOfJson? rest
    return value :: values

/-- The entries of an object's fields. Of fields with one key the last counts. -/
def OptionValue.entriesOfJson? : List (String × Json) → Option (List (String × OptionValue))
  | [] => some []
  | (key, j) :: rest => do
    let value ← OptionValue.ofJson? j
    let entries ← OptionValue.entriesOfJson? rest
    return if (Options.find? entries key).isSome then entries else Options.insert key value entries

end

/-- What a project saves of its architecture. -/
structure SavedArchitecture where
  name : String
  options : Options

namespace SavedArchitecture

def toJson (s : SavedArchitecture) : Json :=
  let options :=
    if s.options.isEmpty then [] else [("options", .object (OptionValue.entriesToJson s.options))]
  .object (("architecture", .string s.name) :: options)

/-- Read the options field; it may be missing. -/
def optionsOfJson? : Option Json → Option Options
  | none => some []
  | some (.object fields) => OptionValue.entriesOfJson? fields
  | some _ => none

/-- Read the saved form, or its parts in a list. Other fields do not count. -/
def ofJson? : Json → Option SavedArchitecture
  | .object fields => do
    let name ← ((fields.find? (·.1 == "architecture")).map Prod.snd).bind Json.string?
    let options ← optionsOfJson? ((fields.find? (·.1 == "options")).map Prod.snd)
    return ⟨name, options⟩
  | .array [name] => do
    return ⟨← name.string?, []⟩
  | .array [name, options] => do
    return ⟨← name.string?, ← optionsOfJson? (some options)⟩
  | _ => none

end SavedArchitecture

end CodeLift
