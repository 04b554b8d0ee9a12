import SdkGlue.Command.Run

/-!
# The program

Runs a command line on the real file system.  Requests are answered one by
one, logged notes go to the error output as they come, and the output of the
command is printed at the end.
-/

namespace SdkGlue.Program

/-- The size of an error code; some operations give codes below zero. -/
def magnitude (code : UInt32) : Nat := min code.toNat (-code).toNat

/-- The number that the system gave for a failure. -/
def numberOf : IO.Error → Nat
  | .noFileOrDirectory _ code _ => magnitude code
  | .inappropriateType _ code _ => magnitude code
  | .invalidArgument _ code _ => magnitude code
  | .resourceExhausted _ code _ => magnitude code
  | .permissionDenied _ code _ => magnitude code
  | .otherError code _ => magnitude code
  | _ => 0

/-- The cause of a failure, when scripts know it. -/
def cause? (e : IO.Error) : Option Cause :=
  [.missing, .notDirectory, .isDirectory, .nameTooLong, .linkLoop].find?
    (Cause.number · = numberOf e)

/-- The kind of a file; what is neither a file nor a link counts as a
directory. -/
def kindOf : IO.FS.FileType → Entry.Kind
  | .file => .file
  | .symlink => .link
  | _ => .directory

/-- A path seen from the current directory. -/
def locate (path : String) := do return (← IO.currentDir) / path

def list (path : String) : IO (List (String × Entry.Kind)) := do
  let entries ← (← locate path).readDir
  entries.toList.mapM fun e => do return (e.fileName, kindOf (← e.path.symlinkMetadata).type)

def unlink (path : String) : IO (Except Cause Unit) := do
  let place ← locate path
  match kindOf (← place.symlinkMetadata).type with
  | .directory => return .error .isDirectory
  | _ => return .ok (← IO.FS.removeFile place)

def answer : (q : Request) → IO (Except Cause q.Answer)
  | .kindAt path => do return .ok (kindOf (← (← locate path).metadata).type)
  | .list path => do return .ok (← list path)
  | .read path => do return .ok (← IO.FS.readBinFile path).toList
  | .write path bytes => do return .ok (← IO.FS.writeBinFile path ⟨bytes.toArray⟩)
  | .unlink path => unlink path
  | .rename source target => do return .ok (← IO.FS.rename source target)

def attempt (q : Request) : IO (Except Cause q.Answer) := do
  try answer q
  catch e =>
    match cause? e with
    | some c => return .error c
    | none => throw e

/-- Runs a script and hands its notes on as they come. -/
def play {α : Type} (log : Note → IO Unit) : Script α → IO (Except Fault α)
  | .done r => return r
  | .note n x => do
      log n
      play log x
  | .ask q k => do play log (k (← attempt q))

/-- Prints what a command has to say, and gives its exit code. -/
def finish (o : Command.Output) : IO UInt32 := do
  (← IO.getStdout).putStr o.stdout
  (← IO.getStderr).putStr o.stderr
  match o.ending with
  | .exit code => return code.toUInt32
  | .badMarkup e => do
      IO.eprintln e.message
      return 1

/-- Logs the notes that a command line asks for. -/
def logTo (verbose : Bool) (n : Note) : IO Unit := do
  if n.isLogged verbose then IO.eprintln n.record

end SdkGlue.Program

def main (args : List String) : IO UInt32 := do
  let log := SdkGlue.Program.logTo (SdkGlue.Command.isVerbose args)
  match ← SdkGlue.Program.play log (SdkGlue.Command.run args) with
  | .ok o => SdkGlue.Program.finish o
  | .error fault => do
      IO.eprintln fault.message
      return 1
