import SipTestbed.HostPort
import SipTestbed.Params

/-! One hop of a Via header: `SIP/2.0/transport sent-by;params`. -/
namespace SipTestbed

def sipVersion : Text := "SIP/2.0".toList

structure Via where
  transport : Text
  sentBy : HostPort
  params : Params
  deriving DecidableEq, Repr

/-- The `rport` parameter: a flag asks for the port that a number tells. -/
inductive Rport where
  | absent
  | asked
  | known (port : UInt16)
  deriving DecidableEq, Repr

def Rport.port? : Rport → Option UInt16
  | .known p => some p
  | _ => none

namespace Via

def transport? (protocol : Text) : Option Text :=
  if (sipVersion ++ ['/']).isPrefixOf (Text.upper protocol) then
    (Text.cutLast? '/' protocol).map fun (_, t) => Text.upper t
  else none

def parse (text : Text) : Except ParseError Via :=
  match Text.cutBy? Text.isBlank (Text.trim text) with
  | none => .error (.via (Text.trim text))
  | some (protocol, rest) =>
    match transport? protocol with
    | none => .error (.viaProtocol protocol)
    | some transport =>
      match Text.cut? ';' rest with
      | some (s, p) => do return ⟨transport, ← HostPort.parse s, Params.parse p⟩
      | none => do return ⟨transport, ← HostPort.parse rest, []⟩

def received (v : Via) : Option Text := v.params.value? "received".toList

/-- A parameter without a valid number counts as a flag. -/
def rport (v : Via) : Rport :=
  match v.params.get? "rport".toList with
  | none => .absent
  | some none => .asked
  | some (some p) =>
    match Decimal.readU16? p with
    | some n => .known n
    | none => .asked

def setReceived (host : Text) (v : Via) : Via :=
  { v with params := Params.set "received".toList host v.params }

def setRport (port : UInt16) (v : Via) : Via :=
  { v with params := Params.set "rport".toList (Decimal.write port.toNat) v.params }

def render (v : Via) : Text :=
  sipVersion ++ ['/'] ++ v.transport ++ [' '] ++ v.sentBy.render ++ v.params.render

end Via
end SipTestbed
