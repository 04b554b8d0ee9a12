import SdkGlue.Command.Argument
import SdkGlue.Command.Name
import SdkGlue.Text.Quoted

/-!
# Usage

The help texts and the messages about misuse.  There is a page for the program
and one for each command.
-/

namespace SdkGlue.Command

/-- A page of the help. -/
inductive Page where
  | top
  | command (name : Name)
  deriving DecidableEq, Repr

def choice : String := "\x7b" ++ ",".intercalate (Name.all.map Name.text) ++ "\x7d"

/-- Entries of a help text: the left column, and the lines of the right one. -/
abbrev Entries := List (String × List String)

/-- Lines that begin in the right column, the first one after the left one. -/
def entryLines (column : Nat) (e : String × List String) : List String :=
  let margin := "".pushn ' ' column
  match e with
  | (left, []) => ["  " ++ left]
  | (left, first :: rest) =>
      let left := "  " ++ left
      if left.length + 2 ≤ column then
        (left ++ "".pushn ' ' (column - left.length) ++ first) :: rest.map (margin ++ ·)
      else left :: (first :: rest).map (margin ++ ·)

/-- A section of a help text, with the line before it. -/
def sectionLines (column : Nat) (heading : String) (entries : Entries) : List String :=
  ["", heading ++ ":"] ++ entries.flatMap (entryLines column)

def helpEntry : String × List String := ("-h, --help", ["show this help message and exit"])

namespace Page

/-- The name under which a page reports. -/
def program : Page → String
  | .top => "picodeps"
  | .command name => s!"picodeps {name.text}"

/-- What may follow the name of the program on a page. -/
def synopsis : Page → String
  | .top => s!"[-h] [-v] [-c CONFIG] {choice} ..."
  | .command name => if name.takesProject then "[-h] [project]" else "[-h]"

def usage (p : Page) : String := s!"usage: {p.program} {p.synopsis}\n"

def body : Page → List String
  | .top =>
      ["", "Picodeps - Pico SDK library detection and CMake glue generation"] ++
        sectionLines 24 "positional arguments" ((choice, ["Available commands"]) ::
          Name.all.map fun n => ("  " ++ n.text, n.summary)) ++
        sectionLines 24 "options"
          [helpEntry,
           ("-v, --verbose", ["Enable verbose logging"]),
           ("-c CONFIG, --config CONFIG",
             ["Optional project layout configuration. Can be a path",
              "to a TOML/JSON file or an inline TOML/JSON string.",
              "When omitted, the default csource/build/nimcache ->",
              "csource/imports.cmake layout is used."])]
  | .command name =>
      (if name.takesProject then
        sectionLines 14 "positional arguments"
          [("project", ["Project root (default: current directory)"])]
      else []) ++ sectionLines 14 "options" [helpEntry]

def help (p : Page) : String := p.usage ++ String.join (p.body.map (· ++ "\n"))

end Page

def Misuse.message : Misuse → String
  | .ambiguous given candidates =>
      s!"ambiguous option: {given} could match " ++ ", ".intercalate candidates
  | .missingValue o => s!"argument {o.label}: expected one argument"
  | .unwantedValue o value =>
      s!"argument {o.label}: ignored explicit argument {Text.quote value}"
  | .unknownCommand given =>
      s!"argument command: invalid choice: {Text.quote given} (choose from " ++
        ", ".intercalate (Name.all.map fun n => Text.quote n.text) ++ ")"
  | .unrecognized given => "unrecognized arguments: " ++ " ".intercalate given

def Misuse.report (p : Page) (m : Misuse) : String :=
  p.usage ++ s!"{p.program}: error: {m.message}\n"

end SdkGlue.Command
