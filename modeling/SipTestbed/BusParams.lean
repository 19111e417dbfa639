import SipTestbed.Json.Parser
import SipTestbed.Json.Printer

/-! Parameters of a test as they travel over the bus: unsigned 32-bit numbers and texts by name, in
the order of the names. -/
namespace SipTestbed

inductive BusValue where
  | number (n : UInt32)
  | text (t : Text)
  deriving DecidableEq, Repr

namespace BusValue

def toJson : BusValue → Json
  | .number n => .ofNat n.toNat
  | .text t => .ofText t

/-- Numbers that do not fit are refused, not cut down. -/
def ofJson? : Json → Option BusValue
  | .number n => (n.unsigned? 4294967295).map fun n => .number (UInt32.ofNat n)
  | .string s => s.decode?.map .text
  | _ => none

end BusValue

abbrev BusParams := List (Text × BusValue)

namespace BusParams

/-- Keep the order of the names; the last value given to a name counts. -/
def insert (k : Text) (v : BusValue) : BusParams → BusParams
  | [] => [(k, v)]
  | e :: es =>
    if k = e.1 then (k, v) :: es
    else if k < e.1 then (k, v) :: e :: es
    else e :: insert k v es

def insertMember? (ps : BusParams) (m : Json.Quoted × Json) : Option BusParams := do
  return insert (← m.1.decode?) (← BusValue.ofJson? m.2) ps

def ofJson? : Json → Option BusParams
  | .object ms => ms.foldlM insertMember? []
  | _ => none

def toJson (ps : BusParams) : Json := .ofMembers (ps.map fun p => (p.1, p.2.toJson))

def parse? (t : Text) : Option BusParams := (Json.parse? t).bind ofJson?

def render (ps : BusParams) : Text := ps.toJson.render

end BusParams
end SipTestbed
