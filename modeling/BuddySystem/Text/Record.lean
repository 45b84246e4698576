/-!
# Records as text

A record is shown with its name and its fields in order, on one line or with one line per field.
A record that does not show all of its fields ends with two dots.
-/

namespace BuddySystem.Text

/-- A named list of fields, each with the text of its value. -/
structure Record where
  name : String
  fields : List (String × String)
  /-- Whether all fields are shown. -/
  complete : Bool

namespace Record

/-- The text of each field, and of what is left out. -/
def entries (record : Record) : List String :=
  record.fields.map (fun (label, value) => s!"{label}: {value}") ++
    if record.complete then [] else [".."]

/-- The record on one line. -/
def inLine (record : Record) : String :=
  record.name ++ " \x7b " ++ String.intercalate ", " record.entries ++ " \x7d"

/-- The record with one line per field. -/
def inLines (record : Record) : String :=
  let shown := record.fields.map fun (label, value) => s!"    {label}: {value},\n"
  let rest := if record.complete then "" else "    ..\n"
  record.name ++ " \x7b\n" ++ String.join shown ++ rest ++ "\x7d"

end Record

end BuddySystem.Text
