/-! Texts as lists of characters: blanks, trimming, cutting at a separator, letter case.
Letter case is ASCII case everywhere: protocol keywords are ASCII, and other letters stay as written. -/
namespace SipTestbed

abbrev Text := List Char

namespace Text

/-- The Unicode property White_Space. -/
def isBlank (c : Char) : Bool :=
  let n := c.toNat
  (0x09 ≤ n && n ≤ 0x0D) || n == 0x20 || n == 0x85 || n == 0xA0 || n == 0x1680 ||
    (0x2000 ≤ n && n ≤ 0x200A) || n == 0x2028 || n == 0x2029 || n == 0x202F || n == 0x205F ||
    n == 0x3000

def trimBy (p : Char → Bool) (t : Text) : Text :=
  ((t.dropWhile p).reverse.dropWhile p).reverse

def trim (t : Text) : Text := trimBy isBlank t

/-- Drop every double quote at either end, balanced or not. -/
def unquote (t : Text) : Text := trimBy (· == '"') t

def cutBy? (p : Char → Bool) : Text → Option (Text × Text)
  | [] => none
  | c :: r => if p c then some ([], r) else (cutBy? p r).map fun (a, b) => (c :: a, b)

def cut? (sep : Char) (t : Text) : Option (Text × Text) := cutBy? (· == sep) t

def cutLast? (sep : Char) (t : Text) : Option (Text × Text) :=
  (cut? sep t.reverse).map fun (a, b) => (b.reverse, a.reverse)

def words (t : Text) : List Text := (t.splitOnP isBlank).filter fun w => !w.isEmpty

def hasPart (part : Text) : Text → Bool
  | [] => part.isEmpty
  | c :: r => part.isPrefixOf (c :: r) || hasPart part r

def lower (t : Text) : Text := t.map Char.toLower
def upper (t : Text) : Text := t.map Char.toUpper

def sameWord (a b : Text) : Bool := lower a == lower b

end Text
end SipTestbed
