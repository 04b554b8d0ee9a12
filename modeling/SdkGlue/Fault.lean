import SdkGlue.Json.Error
import SdkGlue.Layout
import SdkGlue.Store.Walk
import SdkGlue.Text.Utf8
import SdkGlue.Toml.Error

/-!
# Faults

The reasons for which work on a project ends early, each with its wording.
-/

namespace SdkGlue

def Cause.number : Cause → Nat
  | .missing => 2
  | .notDirectory => 20
  | .isDirectory => 21
  | .nameTooLong => 36
  | .linkLoop => 40

def Cause.message : Cause → String
  | .missing => "No such file or directory"
  | .notDirectory => "Not a directory"
  | .isDirectory => "Is a directory"
  | .nameTooLong => "File name too long"
  | .linkLoop => "Too many levels of symbolic links"

/-- Why work ends early. -/
inductive Fault where
  | system (cause : Cause) (path : String)
  | nulInPath
  | notUtf8 (e : Text.Utf8.DecodeError)
  | json (e : Json.SyntaxError)
  | toml (e : Toml.SyntaxError)
  | integerTooLong (digits : Nat)
  | notTable
  | badSource (typeName : String)
  | layout (faults : List Layout.FieldFault)
  | unknownLibrary (name : String)
  deriving Repr

def Fault.message : Fault → String
  | .system cause path => s!"[Errno {cause.number}] {cause.message}: {Text.quote path}"
  | .nulInPath => "embedded null byte"
  | .notUtf8 e => e.message
  | .json e => e.message
  | .toml e => e.message
  | .integerTooLong digits =>
      s!"Exceeds the limit (4300 digits) for integer string conversion: value has {digits} digits; "
        ++ "use sys.set_int_max_str_digits() to increase the limit"
  | .notTable => "Top-level configuration must be a mapping/dict"
  | .badSource typeName => s!"Unsupported config source type: <class '{typeName}'>"
  | .layout faults => Layout.report faults
  | .unknownLibrary name => s!"{Text.quote name} is not a valid LibraryName"

end SdkGlue
