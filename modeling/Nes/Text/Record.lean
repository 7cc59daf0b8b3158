/-!
# Records as text

Debugging text shows a value as the name of its kind and its fields between braces, in order:
`Ram { len: 2048 }`.  A record that hides some of its fields ends in two dots.

## Main definitions

* `Record.render`: every field is listed.
* `Record.renderPartial`: some fields are left out, and the text says so.
-/

namespace Nes.Record

/-- The listed fields, each as its name, a colon and its value. -/
def fieldTexts (fields : List (String × String)) : List String :=
  fields.map fun (name, value) => name ++ ": " ++ value

/-- A record of which every field is listed. -/
def render (kind : String) (fields : List (String × String)) : String :=
  kind ++ " \x7b " ++ ", ".intercalate (fieldTexts fields) ++ " \x7d"

/-- A record that has more fields than those listed. -/
def renderPartial (kind : String) (fields : List (String × String)) : String :=
  kind ++ " \x7b " ++ ", ".intercalate (fieldTexts fields ++ [".."]) ++ " \x7d"

end Nes.Record
