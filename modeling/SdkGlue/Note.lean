import SdkGlue.Fault

/-!
# Notes

What work on a project reports besides its result.  A note belongs to a
channel and has a level; its wording is a log record.
-/

namespace SdkGlue

/-- How important a note is. -/
inductive Level where
  | debug
  | info
  | error
  deriving DecidableEq, Repr

/-- The formats of configuration documents. -/
inductive Format where
  | json
  | toml
  deriving DecidableEq, Repr

def Format.name : Format → String
  | .json => "json"
  | .toml => "toml"

/-- The commands that work on a project. -/
inductive Activity where
  | imports
  | scan
  | clean
  deriving DecidableEq, Repr

/-- Something to report. -/
inductive Note where
  | command (name : Option String)
  | importsStarted
  | project (path : Path)
  | failed (activity : Activity) (project : Path) (fault : Fault)
  | standardLayout
  | givenLayout
  | layoutFile (path : Path) (format : Format)
  | inlineLayout (format : Format)
  | sourcesAt (path : Path)
  | glueAt (path : Path)
  | unknownInclude (path file : String)
  | scanned (file : String) (count : Nat)
  | collected (libraries files : Nat) (directory : String)
  | nothingToClean (directory : String)
  | cleaned (count : Nat) (directory : String)
  | glueRemoved (path : Path)
  | glueWritten (path : Path)
  deriving Repr

def Level.name : Level → String
  | .debug => "DEBUG"
  | .info => "INFO"
  | .error => "ERROR"

/-- The word for an activity in the name of its channel. -/
def Activity.name : Activity → String
  | .imports => "imports"
  | .scan => "scan"
  | .clean => "clean"

/-- What an activity sets out to do. -/
def Activity.purpose : Activity → String
  | .imports => "generate CMake glue"
  | .scan => "scan generated sources"
  | .clean => "clean generated sources"

namespace Note

def channel : Note → String
  | .command _ => "picodeps.cli"
  | .importsStarted | .project _ => "picodeps.cli.imports"
  | .failed activity _ _ => s!"picodeps.cli.{activity.name}"
  | .standardLayout | .givenLayout | .layoutFile _ _ | .inlineLayout _ =>
      "picodeps.runtime.config_loader"
  | .sourcesAt _ | .glueAt _ => "picodeps.runtime.pipeline"
  | .unknownInclude _ _ | .scanned _ _ => "picodeps.parsers.include_scanner"
  | .collected _ _ _ | .nothingToClean _ | .cleaned _ _ => "picodeps.parsers.aggregator"
  | .glueRemoved _ | .glueWritten _ => "picodeps.export.cmake"

def level : Note → Level
  | .failed _ _ _ => .error
  | .layoutFile _ _ | .inlineLayout _ | .collected _ _ _ | .cleaned _ _ | .glueWritten _ => .info
  | _ => .debug

def message : Note → String
  | .command none => "Command: None"
  | .command (some name) => s!"Command: {name}"
  | .importsStarted => "=== Picodeps Imports ==="
  | .project path => s!"Project: {path.text}"
  | .failed activity root fault =>
      s!"Failed to {activity.purpose} for {root.text}: {fault.message}"
  | .standardLayout => "No config source provided; using default GlueConfig"
  | .givenLayout => "Loading GlueConfig from provided dict"
  | .layoutFile path format =>
      s!"Loading configuration from file: {path.text} (fmt={format.name})"
  | .inlineLayout format => s!"Loading configuration from inline {format.name} string"
  | .sourcesAt path => s!"Generated sources: {path.text}"
  | .glueAt path => s!"Glue output: {path.text}"
  | .unknownInclude path file => s!"Ignoring unknown include {Text.quote path} in {file}"
  | .scanned file count => s!"Scanned {file}: {count} libraries"
  | .collected libraries files directory =>
      s!"Collected {libraries} libraries from {files} generated sources in {directory}"
  | .nothingToClean directory => s!"Nothing to clean, {directory} does not exist"
  | .cleaned count directory => s!"Removed {count} generated sources from {directory}"
  | .glueRemoved path => s!"Removed previous glue file {path.text}"
  | .glueWritten path => s!"Wrote CMake glue: {path.text}"

def record (n : Note) : String := s!"[{n.channel}] [{n.level.name}] {n.message}"

/-- The note is logged: errors always, the rest on request. -/
def isLogged (verbose : Bool) (n : Note) : Bool := verbose || n.level = .error

end Note

end SdkGlue
