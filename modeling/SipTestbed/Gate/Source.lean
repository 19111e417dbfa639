import SipTestbed.Fault
import SipTestbed.Message.Basic
import SipTestbed.Net.Endpoint
import SipTestbed.Via

/-! The true source of a request, recorded in its top Via, so that the reply finds its way back
to a sender whose own address is not seen from outside. -/
namespace SipTestbed

/-- The Via with its source recorded, or nothing if there is no need. Where the sender gave another
host, the source's is recorded, and the port if that is another too; where the host is right, both
are recorded if the port is asked for. -/
def Via.stamp? (src : Endpoint) (v : Via) : Option Via :=
  if v.sentBy.host ≠ src.ip.render then
    if v.sentBy.port = some src.port then some (v.setReceived src.ip.render)
    else some ((v.setReceived src.ip.render).setRport src.port)
  else if v.rport = .asked then some ((v.setReceived src.ip.render).setRport src.port)
  else none

def Request.stamp (src : Endpoint) (r : Request) : Except Fault Request :=
  match r.headers.get? "via".toList with
  | none => .error .missingVia
  | some text =>
    match Via.parse text with
    | .error e => .error (.malformed e)
    | .ok v =>
      match v.stamp? src with
      | none => .ok r
      | some v => .ok { r with headers := r.headers.replaceFirst "via".toList v.render }

/-- The same as a change of a request where it stands. -/
def Request.stampInPlace (src : Endpoint) : StateM Request (Except Fault Unit) := do
  match (← get).headers.get? "via".toList with
  | none => return .error .missingVia
  | some text =>
    match Via.parse text with
    | .error e => return .error (.malformed e)
    | .ok v =>
      if let some v := v.stamp? src then
        modify fun r => { r with headers := r.headers.replaceFirst "via".toList v.render }
      return .ok ()

end SipTestbed
