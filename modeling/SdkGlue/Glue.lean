import SdkGlue.Catalog.Sdk

/-!
# The glue text

The glue defines one build function that links the libraries of the generated
sources, each followed by a space, in catalog order.
-/

namespace SdkGlue.Glue

def opening : String :=
  "# This is a generated file do not modify it, 'piconim' makes it every run.\n" ++
  "function(link_imported_libs name)\n" ++
  "  target_link_libraries($\x7bname\x7d "

def closing : String := ")\nendFunction()\n"

def ofLibraries (libraries : List String) : String :=
  opening ++ String.join (libraries.map (· ++ " ")) ++ closing

/-- The glue for the members that sources include. -/
def ofMembers (members : List Member) : String := ofLibraries (Catalog.sdk.linked members)

end SdkGlue.Glue
