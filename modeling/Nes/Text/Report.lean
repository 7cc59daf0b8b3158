/-!
# Error reports

A failed run is reported as what was being done, followed by the causes, each one the cause of the
one before it.  A single cause stands alone; several are numbered from zero.  The number is set
right-aligned in five columns, and further lines of a cause are indented to where its text begins.

## Main definitions

* `Report.render`: the whole report.
-/

namespace Nes.Report

/-- A number right-aligned in five columns. -/
def number (n : Nat) : String :=
  let text := toString n
  "".pushn ' ' (5 - text.length) ++ text

/-- The lines of a text, with every line after the first indented. -/
def hang (indent : Nat) (text : String) : String :=
  ("\n" ++ "".pushn ' ' indent).intercalate (text.splitOn "\n")

/-- A cause that stands alone. -/
def onlyCause (cause : String) : String :=
  "    " ++ hang 4 cause ++ "\n"

/-- The causes of a list, numbered from `first`. -/
def numberedCauses (first : Nat) : List String → String
  | [] => ""
  | cause :: rest =>
    number first ++ ": " ++ hang 7 cause ++ "\n" ++ numberedCauses (first + 1) rest

/-- The part of a report that lists causes. -/
def causes : List String → String
  | [] => ""
  | [cause] => "\nCaused by:\n" ++ onlyCause cause
  | several => "\nCaused by:\n" ++ numberedCauses 0 several

/-- A report: what failed, and why. -/
def render (failed : String) (why : List String) : String :=
  "Error: " ++ failed ++ "\n" ++ causes why

end Nes.Report
