import SipTestbed.Json.Quoted
import SipTestbed.Text.Decimal

/-! JSON values as they are written: numbers keep their spelling, and objects all their members. -/
namespace SipTestbed

namespace Json

/-- A number's sign, its whole part, and the fraction and exponent behind it. -/
structure Number where
  negative : Bool
  whole : Text
  rest : Text
  deriving DecidableEq, Repr

def Number.ofNat (n : Nat) : Number := ⟨false, Decimal.write n, []⟩

def Number.unsigned? (limit : Nat) (n : Number) : Option Nat :=
  if n.negative || !n.rest.isEmpty then none else Decimal.digits? limit n.whole

def Number.render (n : Number) : Text :=
  (if n.negative then ['-'] else []) ++ n.whole ++ n.rest

end Json

inductive Json where
  | null
  | bool (b : Bool)
  | number (n : Json.Number)
  | string (s : Json.Quoted)
  | array (vs : List Json)
  | object (ms : List (Json.Quoted × Json))

namespace Json

def ofText (t : Text) : Json := .string (Quoted.encode t)
def ofNat (n : Nat) : Json := .number (.ofNat n)

def ofMembers (ms : List (Text × Json)) : Json := .object (ms.map fun m => (Quoted.encode m.1, m.2))

def text? : Json → Option Text
  | .string s => s.decode?
  | _ => none

def nat? (limit : Nat) : Json → Option Nat
  | .number n => n.unsigned? limit
  | _ => none

end Json
end SipTestbed
