import PortMatch.Text.Quoted

/-!
# Detailed notation

A value of the library has two written forms: a message for people, and a *detail* that shows what
the value is made of, on one line.  This module fixes how details are put together; each type builds
its own `detail` from these pieces.

* `Detail.record` — a name and its named parts, `Name { part: value, part: value }`;
* `Detail.tuple` — a name and its parts in order, `Name(value, value)`;
* `Detail.list` — a list, `[value, value]`;
* `Detail.option` — a part that may be missing, `None` or `Some(value)`.
-/

namespace PortMatch.Text.Detail

/-- The parts of a value, one after the other. -/
def commaSeparated (parts : List String) : String := String.intercalate ", " parts

/-- A value with named parts. -/
def record (name : String) (parts : List (String × String)) : String :=
  name ++ " \x7b " ++ commaSeparated (parts.map fun p => p.1 ++ ": " ++ p.2) ++ " \x7d"

/-- A value whose parts are told apart by their place. -/
def tuple (name : String) (parts : List String) : String :=
  name ++ "(" ++ commaSeparated parts ++ ")"

/-- A list of values. -/
def list (values : List String) : String := "[" ++ commaSeparated values ++ "]"

/-- A value that may be missing. -/
def option : Option String → String
  | none => "None"
  | some value => tuple "Some" [value]

end PortMatch.Text.Detail
