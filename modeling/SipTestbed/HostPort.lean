import SipTestbed.ParseError
import SipTestbed.Text.Decimal

/-! A host with an optional port. A host with colons in it is an IPv6 literal and is printed in
brackets, so that its colons are not taken for the one before a port. -/
namespace SipTestbed

structure HostPort where
  host : Text
  port : Option UInt16
  deriving DecidableEq, Repr

namespace HostPort

/-- The host and the text of the port. A bracketed host ends at the first closing bracket; any
other ends at the last colon. -/
def split (t : Text) : Except ParseError (Text × Option Text) :=
  match t with
  | '[' :: r =>
    match Text.cut? ']' r with
    | none => .error (.unterminatedHost t)
    | some (h, ':' :: p) => .ok (h, some p)
    | some (h, _) => .ok (h, none)
  | _ =>
    match Text.cutLast? ':' t with
    | some (h, p) => .ok (h, some p)
    | none => .ok (t, none)

def readPort : Option Text → Except ParseError (Option UInt16)
  | none => .ok none
  | some p =>
    match Decimal.readU16? p with
    | some n => .ok (some n)
    | none => .error (.port p)

def parse (t : Text) : Except ParseError HostPort := do
  let (host, port) ← split (Text.trim t)
  if host.isEmpty then .error (.missingHost (Text.trim t))
  else return ⟨host, ← readPort port⟩

def renderHost (host : Text) : Text :=
  if host.contains ':' then ['['] ++ host ++ [']'] else host

def render (a : HostPort) : Text :=
  renderHost a.host ++
    match a.port with
    | some p => ':' :: Decimal.write p.toNat
    | none => []

end HostPort
end SipTestbed
