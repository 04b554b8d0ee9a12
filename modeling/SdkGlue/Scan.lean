import SdkGlue.Include
import SdkGlue.Text.Lines
import SdkGlue.Text.Utf8

/-!
# Scanning a source

The includes of a generated source stand before its first type definition, so
a scan ends at the first line that starts with `typedef`.
-/

namespace SdkGlue

/-- What a scan found: the members included, and the paths that mean none. -/
structure Scan where
  members : List Member
  unknown : List String
  deriving DecidableEq, Repr

namespace Scan

def endsRegion (line : List Char) : Bool := "typedef".toList.isPrefixOf line

def region (lines : List (List Char)) : List (List Char) := lines.takeWhile (!endsRegion ·)

/-- The include paths of the scanned lines, in order. -/
def paths (lines : List (List Char)) : List (List Char) := (region lines).filterMap Include.path?

/-- The scan of a source given by its lines. -/
def ofLines (lines : List (List Char)) : Scan where
  members := Catalog.sdk.arrange ((paths lines).filterMap Include.resolve)
  unknown := ((paths lines).filter fun p => (Include.resolve p).isNone).map String.ofList

def ofText (s : List Char) : Scan := ofLines (Text.lines s)

/-- The scan of a source given by its bytes, read leniently. -/
def ofBytes (bytes : List UInt8) : Scan := ofText (Text.Utf8.decodeLossy bytes)

end Scan

end SdkGlue
