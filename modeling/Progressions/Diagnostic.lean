import Progressions.Location
import Progressions.Text.Uppercase

/-!
# Diagnostics

A diagnostic is what a reader of a specification is told about a fault in it.
-/

set_option autoImplicit false

namespace Progressions

structure Diagnostic where
  message : String
  location : Option Location
  severity : String
  code : Option String
  help : Option String

namespace Diagnostic

/-- A line per part: the message under its severity, the location, and the help unless empty. -/
def report (diagnostic : Diagnostic) : String :=
  let headline := Text.upper diagnostic.severity ++ ": " ++ diagnostic.message ++ "\n"
  let place :=
    match diagnostic.location with
    | some location => "  --> " ++ location.brief ++ "\n"
    | none => ""
  let advice :=
    match diagnostic.help with
    | some help => if help = "" then "" else "  help: " ++ help ++ "\n"
    | none => ""
  headline ++ place ++ advice

end Diagnostic

end Progressions
