import SdkGlue.Glue.Write
import SdkGlue.Layout.Load
import SdkGlue.Sources

/-!
# Work on a project

Regenerating the glue from the generated sources, and removing the sources
before they are generated anew.
-/

namespace SdkGlue.Project

/-- What a regeneration found and wrote. -/
structure Generated where
  members : List Member
  output : Path
  content : String
  deriving DecidableEq, Repr

/-- The libraries that the glue links. -/
def Generated.libraries (g : Generated) : List String := Catalog.sdk.linked g.members

/-- Scans the generated sources and writes the glue for what they include. -/
def generate (project : Path) (layout : Layout) : Script Generated := do
  let sources := layout.sourcesOf project
  let output := layout.glueOf project
  Script.report (.sourcesAt sources)
  Script.report (.glueAt output)
  let members ← Sources.collect sources.text layout.suffix
  let content := Glue.ofMembers members
  let _ ← Glue.install content output
  return ⟨members, output, content⟩

def clean (project : Path) (layout : Layout) : Script Nat :=
  Sources.clean (layout.sourcesOf project).text layout.suffix

/-- The members of each generated source; nothing is written. -/
def scan (project : Path) (layout : Layout) : Script (List (Path × List Member)) :=
  Sources.scanEach (layout.sourcesOf project).text layout.suffix

end SdkGlue.Project
