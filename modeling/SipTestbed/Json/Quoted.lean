import SipTestbed.Text.Basic

/-! The inside of JSON strings. A string is kept as it is written, because a reader that passes
over it does not care whether its code units make a text; `decode?` does. -/
namespace SipTestbed.Json

/-- A character, an escape of one letter, or a code unit of UTF-16. -/
inductive StringPart where
  | plain (c : Char)
  | short (letter : Char)
  | unit (n : UInt16)
  deriving DecidableEq, Repr

abbrev Quoted := List StringPart

def short? : Char → Option Char
  | '"' => some '"'
  | '\\' => some '\\'
  | '/' => some '/'
  | 'b' => some '\x08'
  | 'f' => some '\x0c'
  | 'n' => some '\n'
  | 'r' => some '\r'
  | 't' => some '\t'
  | _ => none

namespace Quoted

def isHigh (n : UInt16) : Bool := 0xD800 ≤ n && n < 0xDC00
def isLow (n : UInt16) : Bool := 0xDC00 ≤ n && n < 0xE000

def join (high low : UInt16) : Char :=
  Char.ofNat (0x10000 + (high.toNat - 0xD800) * 0x400 + (low.toNat - 0xDC00))

/-- The text of a string; a surrogate without its partner stands for none. -/
def decode? : Quoted → Option Text
  | [] => some []
  | .plain c :: r => (decode? r).map (c :: ·)
  | .short l :: r =>
    match short? l with
    | some c => (decode? r).map (c :: ·)
    | none => none
  | .unit n :: r =>
    if isHigh n then
      match r with
      | .unit m :: r => if isLow m then (decode? r).map (join n m :: ·) else none
      | _ => none
    else if isLow n then none
    else (decode? r).map (Char.ofNat n.toNat :: ·)

def partOf (c : Char) : StringPart :=
  if c = '"' then .short '"'
  else if c = '\\' then .short '\\'
  else if c = '\x08' then .short 'b'
  else if c = '\x0c' then .short 'f'
  else if c = '\n' then .short 'n'
  else if c = '\r' then .short 'r'
  else if c = '\t' then .short 't'
  else if c.toNat < 0x20 then .unit (UInt16.ofNat c.toNat)
  else .plain c

def encode (t : Text) : Quoted := t.map partOf

def hex4 (n : Nat) : Text :=
  [Nat.digitChar (n / 4096 % 16), Nat.digitChar (n / 256 % 16), Nat.digitChar (n / 16 % 16),
    Nat.digitChar (n % 16)]

def renderPart : StringPart → Text
  | .plain c => [c]
  | .short l => ['\\', l]
  | .unit n => '\\' :: 'u' :: hex4 n.toNat

def render (q : Quoted) : Text := ['"'] ++ q.flatMap renderPart ++ ['"']

end Quoted
end SipTestbed.Json
