/-!
# Layout of values in diagnostic text

A value is shown as its type's name with its parts in brackets: `Name(part)` for a wrapper,
`Name { part: ..., part: ... }` for a record, `[a, b]` for a list.  A record that does not show
everything ends in two dots.
-/

namespace HeapSampler.Text

def commaSeparated (items : List String) : String :=
  ", ".intercalate items

def bracketed (items : List String) : String :=
  "[" ++ commaSeparated items ++ "]"

def wrapped (name content : String) : String :=
  name ++ "(" ++ content ++ ")"

def parts (fields : List (String × String)) : List String :=
  fields.map fun (name, content) => name ++ ": " ++ content

def record (name : String) (fields : List (String × String)) : String :=
  name ++ " \x7b " ++ commaSeparated (parts fields) ++ " \x7d"

/-- A record of which only some parts are shown. -/
def openRecord (name : String) (fields : List (String × String)) : String :=
  name ++ " \x7b " ++ commaSeparated (parts fields ++ [".."]) ++ " \x7d"

def truth (value : Bool) : String :=
  if value then "true" else "false"

end HeapSampler.Text
