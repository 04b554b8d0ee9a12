import SdkGlue.Command.Invocation
import SdkGlue.Command.Report

/-!
# Running a command line

A command line is run on a host to what it prints and how it ends.  A fault of the
work is noted and ends it with the exit code 1 and no report; a misuse ends with 2.
An error of the host ends it with what was printed before.
-/

namespace SdkGlue.Command

variable {ε : Type}

/-- How a command ends: with an exit code, or with an error that it does not catch. -/
inductive Ending (ε : Type) where
  | exit (code : Nat)
  | escaped (e : ε)
  deriving DecidableEq, Repr

/-- What a command prints, and how it ends. -/
structure Printout (ε : Type) where
  stdout : String
  stderr : String
  ending : Ending ε
  deriving DecidableEq, Repr

/-- Prints texts up to the first error. -/
def Printout.ofPrinted : List (Except ε String) → Printout ε
  | [] => ⟨"", "", .exit 0⟩
  | .error e :: _ => ⟨"", "", .escaped e⟩
  | .ok s :: rest =>
      let o := ofPrinted rest
      { o with stdout := s ++ o.stdout }

def Printout.ofStop : Stop → Printout ε
  | .help p => ⟨p.help, "", .exit 0⟩
  | .misuse p m => ⟨"", m.report p, .exit 2⟩

/-- Does the work of an activity with a layout, and says what to report on it. -/
def workWith (activity : Activity) (project : Path) (layout : Layout) : Script (List Item) := do
  match activity with
  | .imports => return generatedReport (← Project.generate project layout)
  | .scan => return scanReport (layout.sourcesOf project) (← Project.scan project layout)
  | .clean => return cleanReport (← Project.clean project layout)

/-- Does the work of an activity, and prints the report on it.  Where the host gives
up on the configuration nothing is done. -/
def workOn (host : Host ε) (activity : Activity) (config : Layout.Source) (project : Path) :
    Script (List (Except ε String)) := do
  let contents ← Layout.fetch config
  match host.givesUp? contents with
  | some e => return [.error e]
  | none => do
      let layout ← Script.ofExcept contents.read
      return (← workWith activity project layout).map host.print

def announce (activity : Activity) (project : Path) : Script Unit :=
  match activity with
  | .imports => do
      Script.report .importsStarted
      Script.report (.project project)
  | _ => pure ()

def perform (host : Host ε) (config : Layout.Source) : Option Action → Script (Printout ε)
  | none => pure ⟨Page.top.help, "", .exit 1⟩
  | some .catalog => pure (Printout.ofPrinted [host.table (catalogTable Catalog.sdk)])
  | some (.work activity project) => do
      announce activity project
      match ← (workOn host activity config project).attempt with
      | .ok printed => return Printout.ofPrinted printed
      | .error fault => do
          Script.report (.failed activity project fault)
          return ⟨"", "", .exit 1⟩

def Action.name : Action → Name
  | .work activity _ => .work activity
  | .catalog => .catalog

def runOn (host : Host ε) (args : List String) : Script (Printout ε) :=
  match Invocation.read args with
  | .error stop => pure (Printout.ofStop stop)
  | .ok inv => do
      Script.report (.command (inv.action.map (·.name.text)))
      perform host inv.config inv.action

/-! ## On the screen -/

/-- A text to print, or the fault of its markup. -/
abbrev Printed := Except Markup.Fault String

abbrev Output := Printout Markup.Fault

@[match_pattern] abbrev Ending.badMarkup (e : Markup.Fault) : Ending Markup.Fault := .escaped e

def work (activity : Activity) (config : Layout.Source) (project : Path) :
    Script (List Printed) :=
  workOn (.screen .small) activity config project

def run (args : List String) : Script Output := runOn (.screen .small) args

def isVerbose (args : List String) : Bool :=
  match Invocation.read args with
  | .ok inv => inv.verbose
  | .error _ => false

/-- The records of the notes that a command line logs. -/
def log (args : List String) (notes : List Note) : List String :=
  (notes.filter (Note.isLogged (isVerbose args))).map Note.record

end SdkGlue.Command
