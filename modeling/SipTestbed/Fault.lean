import SipTestbed.Bindings

/-! Why a request is not granted, with the status code that tells it to the sender. -/
namespace SipTestbed

inductive Fault where
  | rejected (code : UInt16) (reason : Text)
  | malformed (e : ParseError)
  | binding (e : BindingError)
  | io
  deriving DecidableEq, Repr

namespace Fault

def missingTo : Fault := .rejected 400 "missing To header".toList
def missingVia : Fault := .rejected 400 "missing Via header".toList
def unroutable : Fault := .rejected 400 "response has no Via".toList
def invalidExpires (value : Text) : Fault := .rejected 400 ("invalid Expires: ".toList ++ value)
def crashedPolicy : Fault := .rejected 500 "registrar handler panicked".toList
def unsupported (method : Text) : Fault :=
  .rejected 501 ("method ".toList ++ method ++ " not supported".toList)

/-- No answer can be sent where sending is what fails. -/
def status : Fault → Option UInt16
  | .rejected c _ => some c
  | .malformed _ => some 400
  | .binding e => some e.status
  | .io => none

def message? : Fault → Option Text
  | .rejected c r => some ("SIP ".toList ++ Decimal.write c.toNat ++ ": ".toList ++ r)
  | .malformed e => some e.message
  | .binding e => some e.message
  | .io => none

end Fault
end SipTestbed
