import SdkGlue.Note

/-!
# Names of commands
-/

namespace SdkGlue.Command

/-- The commands: those that work on a project, and the list of libraries. -/
inductive Name where
  | work (activity : Activity)
  | catalog
  deriving DecidableEq, Repr

namespace Name

/-- The commands in the order of the help. -/
def all : List Name := [.work .imports, .work .scan, .catalog, .work .clean]

def text : Name → String
  | .work activity => activity.name
  | .catalog => "catalog"

def ofText? (s : String) : Option Name := all.find? (·.text = s)

def takesProject : Name → Bool
  | .work _ => true
  | .catalog => false

/-- What a command does, in the lines of the help. -/
def summary : Name → List String
  | .work .imports => ["Detect required SDK libraries and regenerate", "imports.cmake"]
  | .work .scan => ["Report the SDK libraries each generated source needs,", "without writing"]
  | .work .clean => ["Remove generated C sources from a previous translation"]
  | .catalog => ["List the known SDK libraries and the names that", "resolve to them"]

end Name

end SdkGlue.Command
