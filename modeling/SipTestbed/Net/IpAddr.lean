import SipTestbed.Text.Decimal
import SipTestbed.Text.Hex

/-! IP addresses and their texts. Reading takes four decimal numbers, or eight groups of hexadecimal
digits with at most one gap `::` and possibly four decimal numbers at the end; printing gives the
recommended form, with the longest run of zero groups as the gap. -/
namespace SipTestbed

inductive IpAddr where
  | v4 (a b c d : UInt8)
  | v6 (a b c d e f g h : UInt16)
  deriving DecidableEq, Repr

namespace IpAddr

def octet? (t : Text) : Option UInt8 :=
  if t.isEmpty || 3 < t.length || !t.all Char.isDigit || (t.head? == some '0' && 1 < t.length) then
    none
  else if Nat.ofDigitChars 10 t 0 ≤ 255 then some (UInt8.ofNat (Nat.ofDigitChars 10 t 0))
  else none

def readV4? (t : Text) : Option (UInt8 × UInt8 × UInt8 × UInt8) :=
  match t.splitOn '.' with
  | [a, b, c, d] => do return (← octet? a, ← octet? b, ← octet? c, ← octet? d)
  | _ => none

def group? (t : Text) : Option UInt16 :=
  if t.isEmpty || 4 < t.length then none
  else (t.mapM Hex.value?).map fun ds => UInt16.ofNat (ds.foldl (fun n d => 16 * n + d) 0)

def pair (a b c d : UInt8) : List UInt16 :=
  [a.toUInt16 * 256 + b.toUInt16, c.toUInt16 * 256 + d.toUInt16]

/-- The groups of pieces, the last of which may be an IPv4 text. -/
def groups? : List Text → Option (List UInt16)
  | [] => some []
  | [t] =>
    match readV4? t with
    | some (a, b, c, d) => some (pair a b c d)
    | none => (group? t).map ([·])
  | t :: u :: ts => do return (← group? t) :: (← groups? (u :: ts))

def sidePieces (t : Text) : List Text := if t.isEmpty then [] else t.splitOn ':'

def cutGap? : Text → Option (Text × Text)
  | ':' :: ':' :: r => some ([], r)
  | c :: r => (cutGap? r).map fun (a, b) => (c :: a, b)
  | [] => none

def ofGroups? : List UInt16 → Option IpAddr
  | [a, b, c, d, e, f, g, h] => some (.v6 a b c d e f g h)
  | _ => none

/-- A gap stands for at least one group of zeros. -/
def fillGap? (front back : List UInt16) : Option IpAddr :=
  if front.length + back.length ≤ 7 then
    ofGroups? (front ++ List.replicate (8 - (front.length + back.length)) 0 ++ back)
  else none

def readV6? (t : Text) : Option IpAddr :=
  match cutGap? t with
  | some (front, back) => do
    fillGap? (← (sidePieces front).mapM group?) (← groups? (sidePieces back))
  | none => do ofGroups? (← groups? (t.splitOn ':'))

def parse? (t : Text) : Option IpAddr :=
  match readV4? t with
  | some (a, b, c, d) => some (.v4 a b c d)
  | none => readV6? t

def writeV4 (a b c d : UInt8) : Text :=
  ['.'].intercalate ([a, b, c, d].map fun n => Decimal.write n.toNat)

def writeGroups (gs : List UInt16) : Text :=
  [':'].intercalate (gs.map fun g => Nat.toDigits 16 g.toNat)

def zeros (gs : List UInt16) : Nat := (gs.takeWhile (· == 0)).length

def longestZeros (gs : List UInt16) : Nat × Nat :=
  (List.range gs.length).foldl
    (fun best i => if best.2 < zeros (gs.drop i) then (i, zeros (gs.drop i)) else best) (0, 0)

/-- A run of two or more zero groups is printed as a gap. -/
def writeV6 (gs : List UInt16) : Text :=
  if 1 < (longestZeros gs).2 then
    writeGroups (gs.take (longestZeros gs).1) ++ [':', ':'] ++
      writeGroups (gs.drop ((longestZeros gs).1 + (longestZeros gs).2))
  else writeGroups gs

/-- An IPv6 address that holds an IPv4 address ends in the latter's text. -/
def render : IpAddr → Text
  | .v4 a b c d => writeV4 a b c d
  | .v6 a b c d e f g h =>
    if [a, b, c, d, e, f] = [0, 0, 0, 0, 0, 0xFFFF] then
      "::ffff:".toList ++
        writeV4 (g / 256).toUInt8 (g % 256).toUInt8 (h / 256).toUInt8 (h % 256).toUInt8
    else writeV6 [a, b, c, d, e, f, g, h]

def isV6 : IpAddr → Bool
  | .v4 .. => false
  | .v6 .. => true

end IpAddr
end SipTestbed
