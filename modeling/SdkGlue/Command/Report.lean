import SdkGlue.Command.Host
import SdkGlue.Project

/-!
# Reports

What the commands print about their results: lines and tables that are marked
up, one after another.
-/

namespace SdkGlue.Command

def generatedReport (g : Project.Generated) : List Item :=
  let libraries := g.libraries
  let found :=
    if libraries.isEmpty then "No SDK libraries detected"
    else s!"Linking {libraries.length} libraries: " ++ " ".intercalate libraries
  [.line found, .line s!"Wrote {g.output.text}"]

def orElse (substitute s : String) : String := if s = "" then substitute else s

def memberNames (ms : List Member) : String :=
  orElse "-" (", ".intercalate ((Catalog.sdk.arrange ms).map Member.name))

def memberLinks (ms : List Member) : String := orElse "-" (" ".intercalate (Catalog.sdk.linked ms))

/-- The table of sources with the members that each includes. -/
def scanTable (directory : Path) (found : List (Path × List Member)) : Table where
  title := s!"Generated sources in {directory.text}"
  columns :=
    [⟨"File", found.map fun e => e.1.name⟩,
     ⟨"Libraries", found.map fun e => memberNames e.2⟩,
     ⟨"Links", found.map fun e => memberLinks e.2⟩]

def scanLinks (found : List (Path × List Member)) : List String :=
  Catalog.sdk.linked (found.flatMap (·.2))

def scanReport (directory : Path) (found : List (Path × List Member)) : List Item :=
  let links := orElse "(none)" (" ".intercalate (scanLinks found))
  [.table (scanTable directory found), .line s!"{found.length} files, links: {links}"]

def cleanReport (removed : Nat) : List Item := [.line s!"Removed {removed} generated sources"]

def catalogTable (t : Catalog) : Table where
  title := "Pico SDK library catalog"
  columns :=
    [⟨"Name", t.map Member.name⟩,
     ⟨"Library", t.map Member.library⟩,
     ⟨"Matched by", t.map fun m => ", ".intercalate (t.keysOf m)⟩]

end SdkGlue.Command
