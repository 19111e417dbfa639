import SipTestbed.Net.Endpoint
import SipTestbed.Text.Utf8

/-! What surrounds a registrar: the clock, the name table and the network. -/
namespace SipTestbed

structure World where
  /-- Nanoseconds since the start. -/
  now : Nat
  networkUp : Bool
  names : Text → List IpAddr

/-- The addresses of a host: the literal itself, or what its name stands for. A name with a NUL
character cannot be asked for. -/
def addressesOf (names : Text → List IpAddr) (host : Text) : List IpAddr :=
  match IpAddr.parse? host with
  | some ip => [ip]
  | none => if host.contains '\x00' then [] else names host

structure Attempt where
  dest : Endpoint
  data : Utf8.Octets
  ok : Bool
  deriving DecidableEq, Repr

end SipTestbed
