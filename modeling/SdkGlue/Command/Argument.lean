import SdkGlue.Text.Digits

/-!
# Arguments

An argument is a word, an option, or the divider after which every argument is
a word.  An option is spelled out, shortened to a beginning that no other
option has, or followed by a value in the same argument.  One hyphen can
introduce several short options.
-/

namespace SdkGlue.Command

/-- The options. -/
inductive Switch where
  | help
  | verbose
  | config
  deriving DecidableEq, Repr

namespace Switch

def names : Switch → List String
  | .help => ["-h", "--help"]
  | .verbose => ["-v", "--verbose"]
  | .config => ["-c", "--config"]

def takesValue : Switch → Bool
  | .config => true
  | _ => false

def label (o : Switch) : String := "/".intercalate o.names

end Switch

/-- What is wrong with arguments. -/
inductive Misuse where
  | ambiguous (given : String) (candidates : List String)
  | missingValue (o : Switch)
  | unwantedValue (o : Switch) (value : String)
  | unknownCommand (given : String)
  | unrecognized (given : List String)
  deriving DecidableEq, Repr

/-- What follows the name of an option in the same argument. -/
inductive Attachment where
  | nothing
  | joined (s : List Char)
  | assigned (s : List Char)
  deriving DecidableEq, Repr

/-- An option as it is given. -/
structure Given where
  option : Switch
  attachment : Attachment
  deriving DecidableEq, Repr

/-- An argument. -/
inductive Argument where
  | word (s : String)
  | divider
  | option (s : String) (given : Given)
  | unknown (s : String)
  deriving DecidableEq, Repr

namespace Argument

def text : Argument → String
  | .word s => s
  | .divider => "--"
  | .option s _ => s
  | .unknown s => s

/-- The names of options, in order. -/
def spellings (options : List Switch) : List (String × Switch) :=
  options.flatMap fun o => o.names.map (·, o)

/-- The part before the first equals sign, and what follows the name then. -/
def splitEquals (s : List Char) : List Char × Attachment :=
  let front := s.takeWhile (· != '=')
  match s.drop front.length with
  | [] => (front, .nothing)
  | _ :: value => (front, .assigned value)

/-- The options that an argument may mean, by name: those that begin as a long
one does, or the short one at the front, joined with the rest. -/
def candidates (options : List Switch) (s : List Char) : List (String × Given) :=
  if s.take 2 = ['-', '-'] then
    let (front, attachment) := splitEquals s
    ((spellings options).filter fun e => front.isPrefixOf e.1.toList).map
      fun e => (e.1, ⟨e.2, attachment⟩)
  else
    ((spellings options).filter fun e => e.1.toList = s.take 2).map
      fun e => (e.1, ⟨e.2, .joined (s.drop 2)⟩)

/-- A hyphen and a decimal number, perhaps before a line end. -/
def isNegativeNumber (s : List Char) : Bool :=
  let s := if s.getLast? = some '\n' then s.dropLast else s
  match s with
  | '-' :: s =>
      let whole := s.takeWhile Text.isDecimalDigit
      match s.drop whole.length with
      | [] => !whole.isEmpty
      | '.' :: decimals => !decimals.isEmpty && decimals.all Text.isDecimalDigit
      | _ => false
  | _ => false

def named? (options : List Switch) (name : List Char) : Option Switch :=
  ((spellings options).find? fun e => e.1.toList = name).map (·.2)

/-- The option that an argument names, alone or before an equals sign. -/
def given? (options : List Switch) (s : List Char) : Option Given :=
  match named? options s with
  | some o => some ⟨o, .nothing⟩
  | none =>
      match splitEquals s with
      | (_, .nothing) => none
      | (front, attachment) => (named? options front).map (⟨·, attachment⟩)

def readHyphen (options : List Switch) (s : String) : Except Misuse Argument :=
  match given? options s.toList with
  | some g => .ok (.option s g)
  | none =>
      match candidates options s.toList with
      | [c] => .ok (.option s c.2)
      | [] =>
          if isNegativeNumber s.toList || s.toList.contains ' ' then .ok (.word s)
          else .ok (.unknown s)
      | cs => .error (.ambiguous s (cs.map (·.1)))

/-- An argument before the divider. -/
def read (options : List Switch) (s : String) : Except Misuse Argument :=
  match s.toList with
  | '-' :: _ :: _ => readHyphen options s
  | _ => .ok (.word s)

def readAll (options : List Switch) : List String → Except Misuse (List Argument)
  | [] => .ok []
  | s :: rest =>
      if s = "--" then .ok (.divider :: rest.map .word)
      else do return (← read options s) :: (← readAll options rest)

end Argument

/-- The options of one argument: those without a value, in order, then one that
takes a value, which may be the next argument, or what names no option. -/
structure Cluster where
  flags : List Switch
  last : Option (Switch × Option String)
  rest : Option String
  deriving DecidableEq, Repr

namespace Cluster

def single (o : Switch) : Cluster :=
  if o.takesValue then ⟨[], some (o, none), none⟩ else ⟨[o], none, none⟩

def valued (o : Switch) (value : List Char) : Cluster :=
  ⟨[], some (o, some (String.ofList value)), none⟩

def ofAssigned (o : Switch) (value : List Char) : Except Misuse Cluster :=
  if o.takesValue then .ok (valued o value)
  else .error (.unwantedValue o (String.ofList value))

/-- An option with characters joined to it: its value, or further short
options. -/
def ofJoined (options : List Switch) (o : Switch) : List Char → Except Misuse Cluster
  | [] => .ok (single o)
  | c :: rest =>
      if o.takesValue then .ok (valued o (c :: rest))
      else if c = '-' then .error (.unwantedValue o (String.ofList (c :: rest)))
      else
        match Argument.named? options ['-', c] with
        | none => .ok ⟨[o], none, some (String.ofList ('-' :: c :: rest))⟩
        | some next => do
            let k ← match rest with
              | '=' :: value => ofAssigned next value
              | rest => ofJoined options next rest
            return { k with flags := o :: k.flags }

def ofGiven (options : List Switch) (g : Given) : Except Misuse Cluster :=
  match g.attachment with
  | .nothing => .ok (single g.option)
  | .joined s => ofJoined options g.option s
  | .assigned s => ofAssigned g.option s

end Cluster

end SdkGlue.Command
