import SdkGlue.Glue
import SdkGlue.Script

/-!
# Writing the glue

The old glue file is removed, the new text goes to a sibling file, and that is
moved into place.  When this fails the sibling is removed.
-/

namespace SdkGlue.Glue

/-- Removes a file, and says whether there was one. -/
def discard (path : Path) : Script Bool :=
  if Script.hasNul path.text then Script.fail .nulInPath
  else Script.ask (.unlink path.text) fun
    | .ok _ => pure true
    | .error .missing => pure false
    | .error cause => Script.fail (.system cause path.text)

/-- The file that takes the text first. -/
def siblingOf (path : Path) : Path := path.withName ("." ++ path.name ++ ".tmp")

/-- Writes a text through the sibling file. -/
def replace (path : Path) (text : String) : Script Unit :=
  let sibling := siblingOf path
  Script.onFault
    (do
      Script.call sibling.text (.write sibling.text (Text.Utf8.encode text.toList))
      Script.call sibling.text (.rename sibling.text path.text))
    (do let _ ← discard sibling)

/-- Puts a text in the place of the glue file. -/
def install (text : String) (path : Path) : Script Path := do
  if ← discard path then Script.report (.glueRemoved path)
  replace path text
  Script.report (.glueWritten path)
  return path

/-- Writes the glue for members. -/
def installFor (members : List Member) (path : Path) : Script Path :=
  install (ofMembers members) path

end SdkGlue.Glue
