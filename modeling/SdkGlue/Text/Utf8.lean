import SdkGlue.Text.Digits

/-!
# UTF-8

Bytes are read as a list of pieces: characters, and the longest sequences that
begin a character and do not complete one.  The strict reading fails at the
first such flaw, the lenient reading puts U+FFFD in place of each.
-/

namespace SdkGlue.Text.Utf8

/-- Why a sequence of bytes is no character. -/
inductive Flaw where
  | badStart
  | badContinuation
  | truncated
  deriving DecidableEq, Repr

/-- A character, or the bytes of an incomplete one. -/
inductive Piece where
  | char (c : Char)
  | flaw (why : Flaw) (bytes : List UInt8)
  deriving DecidableEq, Repr

/-- A character under way: its bytes so far, their payload, the number of
continuation bytes due, and the range of the next one. -/
structure Pending where
  seen : List UInt8
  code : Nat
  due : Nat
  low : UInt8
  high : UInt8
  deriving DecidableEq, Repr

/-- What a byte begins. -/
def start (b : UInt8) : Piece ⊕ Pending :=
  let code (base : UInt8) := (b - base).toNat
  if b < 0x80 then .inl (.char (Char.ofNat b.toNat))
  else if b < 0xc2 then .inl (.flaw .badStart [b])
  else if b < 0xe0 then .inr ⟨[b], code 0xc0, 1, 0x80, 0xbf⟩
  else if b < 0xf0 then
    .inr ⟨[b], code 0xe0, 2, if b = 0xe0 then 0xa0 else 0x80, if b = 0xed then 0x9f else 0xbf⟩
  else if b < 0xf5 then
    .inr ⟨[b], code 0xf0, 3, if b = 0xf0 then 0x90 else 0x80, if b = 0xf4 then 0x8f else 0xbf⟩
  else .inl (.flaw .badStart [b])

def Pending.accepts (p : Pending) (b : UInt8) : Bool := p.low ≤ b && b ≤ p.high

/-- The character with one more byte: complete, or still under way. -/
def Pending.extend (p : Pending) (b : UInt8) : Piece ⊕ Pending :=
  let code := p.code * 64 + (b.toNat - 0x80)
  if p.due ≤ 1 then .inl (.char (Char.ofNat code))
  else .inr ⟨p.seen ++ [b], code, p.due - 1, 0x80, 0xbf⟩

/-- The pieces of the bytes, after a character under way. -/
def piecesFrom : Option Pending → List UInt8 → List Piece
  | none, [] => []
  | some p, [] => [.flaw .truncated p.seen]
  | none, b :: bs =>
      match start b with
      | .inl piece => piece :: piecesFrom none bs
      | .inr q => piecesFrom (some q) bs
  | some p, b :: bs =>
      if p.accepts b then
        match p.extend b with
        | .inl piece => piece :: piecesFrom none bs
        | .inr q => piecesFrom (some q) bs
      else
        .flaw .badContinuation p.seen ::
          match start b with
          | .inl piece => piece :: piecesFrom none bs
          | .inr q => piecesFrom (some q) bs

def pieces (bytes : List UInt8) : List Piece := piecesFrom none bytes

def encodeChar (c : Char) : List UInt8 :=
  let n := c.toNat
  let tail (n : Nat) : UInt8 := UInt8.ofNat (0x80 + n % 64)
  if n < 0x80 then [UInt8.ofNat n]
  else if n < 0x800 then [UInt8.ofNat (0xc0 + n / 64), tail n]
  else if n < 0x10000 then [UInt8.ofNat (0xe0 + n / 4096), tail (n / 64), tail n]
  else [UInt8.ofNat (0xf0 + n / 262144), tail (n / 4096), tail (n / 64), tail n]

def encode (s : List Char) : List UInt8 := s.flatMap encodeChar

def Piece.size : Piece → Nat
  | .char c => (encodeChar c).length
  | .flaw _ bytes => bytes.length

/-- The place and nature of the first flaw of some bytes. -/
structure DecodeError where
  why : Flaw
  offset : Nat
  bytes : List UInt8
  deriving DecidableEq, Repr

/-- The characters up to the first flaw, or the flaw with its offset. -/
def collect : (offset : Nat) → List Piece → Except DecodeError (List Char)
  | _, [] => .ok []
  | offset, .char c :: ps => (c :: ·) <$> collect (offset + (encodeChar c).length) ps
  | offset, .flaw why bytes :: _ => .error ⟨why, offset, bytes⟩

/-- The strict reading: a flaw is an error. -/
def decode (bytes : List UInt8) : Except DecodeError (List Char) := collect 0 (pieces bytes)

/-- The character of a piece, U+FFFD for a flaw. -/
def Piece.toChar : Piece → Char
  | .char c => c
  | .flaw _ _ => '\ufffd'

/-- The lenient reading: each flaw is one replacement character. -/
def decodeLossy (bytes : List UInt8) : List Char := (pieces bytes).map Piece.toChar

def Flaw.message : Flaw → String
  | .badStart => "invalid start byte"
  | .badContinuation => "invalid continuation byte"
  | .truncated => "unexpected end of data"

def DecodeError.message (e : DecodeError) : String :=
  let place := match e.bytes with
    | [b] => s!"byte 0x{String.ofList (hex 2 b.toNat)} in position {e.offset}"
    | bs => s!"bytes in position {e.offset}-{e.offset + bs.length - 1}"
  s!"'utf-8' codec can't decode {place}: {e.why.message}"

end SdkGlue.Text.Utf8
