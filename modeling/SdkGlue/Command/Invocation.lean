import SdkGlue.Command.Usage
import SdkGlue.Layout.Load

/-!
# Invocations

Reading a command line.  Options of the program come first; the first other
argument is the command, and all that follow belong to it.  What is left over
is reported at the end, when nothing else is wrong and no help was asked for.
-/

namespace SdkGlue.Command

/-- A command with what it works on. -/
inductive Action where
  | work (activity : Activity) (project : Path)
  | catalog
  deriving DecidableEq, Repr

/-- What a command line asks for. -/
structure Invocation where
  verbose : Bool
  config : Layout.Source
  action : Option Action

/-- Why a command line asks for nothing. -/
inductive Stop where
  | help (p : Page)
  | misuse (p : Page) (m : Misuse)
  deriving DecidableEq, Repr

/-- The options of the program read so far, and the arguments left over. -/
structure Settings where
  verbose : Bool := false
  config : Layout.Source := .nothing
  extras : List String := []

namespace Settings

def setAside (st : Settings) (s : String) : Settings := { st with extras := st.extras ++ [s] }

/-- Takes the options of an argument into account, with the value of the last
one. -/
def apply (st : Settings) (k : Cluster) (value : Option String) : Except Stop Settings :=
  if .help ∈ k.flags then .error (.help .top)
  else .ok {
    verbose := st.verbose || .verbose ∈ k.flags
    config := (value.map Layout.Source.text).getD st.config
    extras := st.extras ++ k.rest.toList }

end Settings

def Page.options : Page → List Switch
  | .top => [.help, .verbose, .config]
  | .command _ => [.help]

def clusterOf (p : Page) (g : Given) : Except Stop Cluster :=
  (Cluster.ofGiven p.options g).mapError (.misuse p)

def argumentsOf (p : Page) (args : List String) : Except Stop (List Argument) :=
  (Argument.readAll p.options args).mapError (.misuse p)

/-- Reads the options of the program, up to the first argument that is none. -/
def readOptions (st : Settings) : List Argument → Except Stop (Settings × List Argument)
  | .unknown s :: rest => readOptions (st.setAside s) rest
  | .option _ g :: rest => do
      let k ← clusterOf .top g
      match k.last with
      | none => readOptions (← st.apply k none) rest
      | some (_, some value) => readOptions (← st.apply k (some value)) rest
      | some (o, none) =>
          match rest with
          | .word value :: rest => readOptions (← st.apply k (some value)) rest
          | _ => throw (.misuse .top (.missingValue o))
  | rest => .ok (st, rest)

/-- Reads the arguments of a command: its project, if it takes one, and those
left over. -/
def readOperands (name : Name) (project : Option String) :
    List Argument → Except Stop (Option String × List String)
  | [] => .ok (project, [])
  | .option _ g :: _ => do
      let _ ← clusterOf (.command name) g
      throw (.help (.command name))
  | .divider :: .word s :: rest =>
      if name.takesProject ∧ project = none then readOperands name (some s) rest
      else do
        let (p, extras) ← readOperands name project rest
        return (p, "--" :: s :: extras)
  | .divider :: rest => do
      let (p, extras) ← readOperands name project rest
      return (p, if name.takesProject ∧ project = none then extras else "--" :: extras)
  | .word s :: .divider :: rest =>
      if name.takesProject ∧ project = none then readOperands name (some s) rest
      else do
        let (p, extras) ← readOperands name project rest
        return (p, s :: "--" :: extras)
  | .word s :: rest =>
      if name.takesProject ∧ project = none then readOperands name (some s) rest
      else do
        let (p, extras) ← readOperands name project rest
        return (p, s :: extras)
  | .unknown s :: rest => do
      let (p, extras) ← readOperands name project rest
      return (p, s :: extras)

/-- A command on a project; without one it is the current directory. -/
def actionOf (name : Name) (project : Option String) : Action :=
  match name with
  | .work activity => .work activity (.ofString (project.getD "."))
  | .catalog => .catalog

def readCommand (args : List Argument) : Except Stop (Option Action × List String) :=
  match args with
  | [] => .ok (none, [])
  | [.divider] => .ok (none, ["--"])
  | a :: rest =>
      match Name.ofText? a.text with
      | none => .error (.misuse .top (.unknownCommand a.text))
      | some name => do
          let operands ← argumentsOf (.command name) (rest.map Argument.text)
          let (project, extras) ← readOperands name none operands
          return (some (actionOf name project), extras)

def Invocation.read (args : List String) : Except Stop Invocation := do
  let args ← argumentsOf .top args
  let (st, rest) ← readOptions {} args
  let (action, extras) ← readCommand rest
  let extras := st.extras ++ extras
  if extras ≠ [] then throw (.misuse .top (.unrecognized extras))
  return ⟨st.verbose, st.config, action⟩

end SdkGlue.Command
