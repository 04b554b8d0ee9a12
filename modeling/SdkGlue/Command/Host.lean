import SdkGlue.Layout.Load
import SdkGlue.Table

/-!
# Hosts

What the commands rely on besides the file system: a reader of documents, which
may give up on a text, and a printer of texts that are marked up, which may fail.
The errors of a host are its own, and no command catches them.
-/

namespace SdkGlue.Command

/-- A part of a report. -/
inductive Item where
  | line (s : String)
  | table (t : Table)
  deriving DecidableEq, Repr

/-- A host, with errors of the given type. -/
structure Host (ε : Type) where
  giveUp : Format → List Char → Option ε
  line : String → Except ε String
  table : Table → Except ε String

namespace Host

variable {ε : Type}

/-- The error with which a host gives up on what a source holds. -/
def givesUp? (host : Host ε) : Layout.Contents → Option ε
  | .document format s => host.giveUp format s
  | _ => none

def print (host : Host ε) : Item → Except ε String
  | .line s => host.line s
  | .table t => host.table t

/-- The host that reads every document and prints on the screen. -/
def screen (d : Markup.Dialect) : Host Markup.Fault where
  giveUp _ _ := none
  line := Table.renderLine d
  table t := t.render d

end Host

end SdkGlue.Command
