import SipTestbed.Net.IpAddr

/-! A UDP endpoint: an IP address and a port. -/
namespace SipTestbed

structure Endpoint where
  ip : IpAddr
  port : UInt16
  deriving DecidableEq, Repr

namespace Endpoint

/-- A port in an endpoint's text is written without a sign. -/
def port? (t : Text) : Option UInt16 :=
  (Decimal.digits? 65535 t).map UInt16.ofNat

def parse? (t : Text) : Option Endpoint := do
  let (host, p) ← Text.cutLast? ':' t
  let port ← port? p
  match host with
  | '[' :: r =>
    if r.getLast? == some ']' then return ⟨← IpAddr.readV6? r.dropLast, port⟩ else none
  | _ =>
    let (a, b, c, d) ← IpAddr.readV4? host
    return ⟨.v4 a b c d, port⟩

def render (e : Endpoint) : Text :=
  (if e.ip.isV6 then ['['] ++ e.ip.render ++ [']'] else e.ip.render) ++ [':'] ++
    Decimal.write e.port.toNat

end Endpoint
end SipTestbed
