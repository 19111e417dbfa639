import SipTestbed.Address
import SipTestbed.Fault
import SipTestbed.Message.Basic

/-! What a REGISTER request wants: to bind a contact, to have a binding removed, or to be told of
one. -/
namespace SipTestbed

/-- Longest time of a binding in seconds; longer wishes are cut down to it. -/
def maxExpiry : Nat := 4294967295

inductive Intent where
  | remove
  | query
  | bind (domain contact : Uri) (seconds : Nat)
  deriving DecidableEq, Repr

namespace Intent

def expiresText? (r : Request) : Option Text :=
  (r.headers.get? "expires".toList).map Text.trim

/-- The time asked for: by the header, which has to be a number, else by the contact, whose
parameter is passed over if it is none, else the default. -/
def seconds (default : Nat) (header : Option Text) (contact : Address) : Except Fault Nat :=
  match header with
  | some v =>
    match Decimal.readU64? v with
    | some n => .ok (min n maxExpiry)
    | none => .error (.invalidExpires v)
  | none =>
    .ok (min (((contact.params.value? "expires".toList).bind Decimal.readU64?).getD default)
      maxExpiry)

def fillPort (port : UInt16) (u : Uri) : Uri :=
  { u with hostPort := { u.hostPort with port := some (u.port.getD port) } }

/-- A time of zero asks for removal; the requested domain matters only for a binding. -/
def ofContact (default : Nat) (port : UInt16) (r : Request) (contact : Text) :
    Except Fault Intent := do
  let contact ← (Address.parse contact).mapError .malformed
  let secs ← seconds default (expiresText? r) contact
  if secs = 0 then return .remove
  let domain ← (Uri.parse r.uri).mapError .malformed
  return .bind domain (fillPort port contact.uri) secs

def ofRequest (default : Nat) (port : UInt16) (r : Request) : Except Fault (Uri × Intent) := do
  let some value := r.headers.get? "to".toList | .error .missingTo
  let user ← (Address.parse value).mapError .malformed
  if expiresText? r = some ['0'] then return (user.uri, .remove)
  match r.headers.get? "contact".toList with
  | some contact => return (user.uri, ← ofContact default port r contact)
  | none => return (user.uri, .query)

end Intent
end SipTestbed
