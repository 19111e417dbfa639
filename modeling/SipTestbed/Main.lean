import SipTestbed.Scenario
import Std.Async.DNS
import Std.Async.Signal
import Std.Async.UDP

/-! The command line: a registrar on its own that accepts every registration, until it is
interrupted. Its settings are in the file that the environment names. -/
namespace SipTestbed.Main

open Std.Net Std.Async

def toAddress (e : Endpoint) : SocketAddress :=
  match e.ip with
  | .v4 a b c d => .v4 ⟨⟨#v[a, b, c, d]⟩, e.port⟩
  | .v6 a b c d e' f g h => .v6 ⟨⟨#v[a, b, c, d, e', f, g, h]⟩, e.port⟩

def ofAddr : IPAddr → IpAddr
  | .v4 ⟨o⟩ => .v4 o[0] o[1] o[2] o[3]
  | .v6 ⟨s⟩ => .v6 s[0] s[1] s[2] s[3] s[4] s[5] s[6] s[7]

def ofAddress : SocketAddress → Endpoint
  | .v4 a => ⟨ofAddr (.v4 a.addr), a.port⟩
  | .v6 a => ⟨ofAddr (.v6 a.addr), a.port⟩

def look (host : Text) : IO (List IpAddr) := do
  if (IpAddr.parse? host).isSome || host.contains '\x00' then return []
  try
    let found ← (DNS.getAddrInfo (String.ofList host) "").block
    return found.toList.map ofAddr
  catch _ => return []

def source (path : String) : IO Profile.Source := do
  try
    return .content (← IO.FS.readBinFile path).toList
  catch
    | .noFileOrDirectory .. => return .missing
    | _ => return .unreadable

def randomToken (n : Nat) : IO (Token n) := do
  let bytes ← IO.getRandomBytes (n / 2).toUSize
  return Token.ofNat n (bytes.toList.foldl (fun k b => 256 * k + b.toNat) 0)

def randomValues : IO Fresh := return ⟨← randomToken 16, ← randomToken 32, ← randomToken 32⟩

def serveOne (socket : UDP.Socket) (data : Utf8.Octets) (src : Endpoint) (s : Session) :
    IO Session := do
  let host := (Gate.replyHost? data src).getD []
  let found ← look host
  let names (name : Text) : List IpAddr := if name = host then found else []
  let s := { s with world := ⟨← IO.monoNanosNow, true, names⟩ }
  let (report, s) := s.act (← randomValues) (.arrive data src)
  for a in report.sent do
    try (socket.send a.data.toByteArray (some (toAddress a.dest))).block catch _ => pure ()
  return s

/-- The next datagram and its sender, or nothing on an interrupt. A socket that cannot be read is
left alone, and the interrupt waited for. -/
def next? (socket : UDP.Socket) (interrupt : Signal.Waiter) :
    Async (Option (ByteArray × Option SocketAddress)) := do
  try
    Selectable.one #[.case interrupt.selector fun _ => return none,
      .case (socket.recvSelector maxDatagram.toUInt64) fun d => return some d]
  catch _ => Selectable.one #[.case interrupt.selector fun _ => return none]

partial def serve (socket : UDP.Socket) (interrupt : Signal.Waiter) (s : Session) : IO Unit := do
  match ← (next? socket interrupt).block with
  | none => return
  | some (data, some src) =>
    serve socket interrupt (← serveOne socket data.toList (ofAddress src) s)
  | some (_, none) => serve socket interrupt s

def surroundings : Surroundings IO UDP.Socket where
  create _ := return .ok ()
  look host := return some (← look host)
  bind e := do
    try
      let socket ← UDP.Socket.mk
      socket.bind (toAddress e)
      return some socket
    catch _ => return none
  run socket s := do
    serve socket (← Signal.Waiter.mk .sigint true) s
    return .ok ()

def run (p : Profile) : IO UInt32 := do
  match ← surroundings.setUp (fun _ => []) p .unrestricted with
  | .ok () => return 0
  | .error _ => return 1

def program : IO UInt32 := do
  let profile ← match ← IO.getEnv (String.ofList configVariable) with
    | some path => pure (Profile.load (← source path))
    | none => pure (.ok .default)
  match profile with
  | .ok p => run p
  | .error _ => return 1

end SipTestbed.Main

def main : IO UInt32 := SipTestbed.Main.program
