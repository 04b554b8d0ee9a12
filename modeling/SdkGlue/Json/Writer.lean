import SdkGlue.Document.Literal

/-!
# Writing JSON texts

Items are separated by a comma and a space, names from values by a colon and a
space.  A string escapes the quotation mark, the backslash and the controls up to
the space, and on request every character beyond the tilde.
-/

namespace SdkGlue.Json

def unitEscape (n : Nat) : List Char := '\\' :: 'u' :: Text.hex 4 n

/-- A character as one escape, or as the escapes of a surrogate pair. -/
def codeEscape (n : Nat) : List Char :=
  if n < 0x10000 then unitEscape n
  else unitEscape (0xd800 + (n - 0x10000) / 0x400) ++ unitEscape (0xdc00 + (n - 0x10000) % 0x400)

def writeChar (ascii : Bool) (c : Char) : List Char :=
  if c = '"' then ['\\', '"']
  else if c = '\\' then ['\\', '\\']
  else if c = '\n' then ['\\', 'n']
  else if c = '\r' then ['\\', 'r']
  else if c = '\t' then ['\\', 't']
  else if c = '\x08' then ['\\', 'b']
  else if c = '\x0c' then ['\\', 'f']
  else if c.toNat < 0x20 then unitEscape c.toNat
  else if ascii && 0x7e < c.toNat then codeEscape c.toNat
  else [c]

def writeText (ascii : Bool) (s : String) : List Char :=
  '"' :: s.toList.flatMap (writeChar ascii) ++ ['"']

def writeReal : Decimal → List Char
  | .notANumber => "NaN".toList
  | .infinite negative => (if negative then "-Infinity" else "Infinity").toList
  | d => d.text.toList

mutual

/-- The JSON text of a value; a calendar value is written as a string. -/
def writeValue (ascii : Bool) : Value → List Char
  | .null => "null".toList
  | .bool b => (if b then "true" else "false").toList
  | .int n => (toString n).toList
  | .real d => writeReal d
  | .text s => writeText ascii s
  | .moment m => writeText ascii (Value.momentLiteral m)
  | .list [] => ['[', ']']
  | .list (v :: vs) => '[' :: writeValue ascii v ++ writeItems ascii vs
  | .table [] => ['\x7b', '\x7d']
  | .table ((k, v) :: rest) =>
      '\x7b' :: writeText ascii k ++ [':', ' '] ++ writeValue ascii v ++ writeEntries ascii rest

/-- The items after the first one, and the closing bracket. -/
def writeItems (ascii : Bool) : List Value → List Char
  | [] => [']']
  | v :: vs => [',', ' '] ++ writeValue ascii v ++ writeItems ascii vs

/-- The entries after the first one, and the closing brace. -/
def writeEntries (ascii : Bool) : List (String × Value) → List Char
  | [] => ['\x7d']
  | (k, v) :: rest =>
      [',', ' '] ++ writeText ascii k ++ [':', ' '] ++ writeValue ascii v ++
        writeEntries ascii rest

end

def encode (ascii : Bool) (v : Value) : String := String.ofList (writeValue ascii v)

end SdkGlue.Json
