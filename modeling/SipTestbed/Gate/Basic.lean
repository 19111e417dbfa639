import SipTestbed.Gate.Source
import SipTestbed.Message.Parser
import SipTestbed.Registrar.Basic

/-! A gate before a registrar: a policy decides which registrations reach it, and every other
request is answered here. -/
namespace SipTestbed

structure Call where
  request : Request
  host : Text
  port : UInt16
  deriving DecidableEq, Repr

inductive Verdict where
  | allow
  | deny
  | crash
  deriving DecidableEq, Repr

inductive Policy where
  | unrestricted
  /-- A verdict may depend on the earlier calls, oldest first. -/
  | ask (judge : List Call → Call → Verdict)

def Policy.describe : Policy → Text
  | .unrestricted => "NoPolicy".toList
  | .ask _ => "Policy(<fn>)".toList

structure Gate where
  registrar : Registrar
  policy : Policy
  calls : List Call

namespace Gate

structure Step where
  sent : List Attempt
  asked : List Call
  gate : Gate

def ofDomain (domain : Text) (defaultExpiry : Nat) (policy : Policy) : Gate :=
  ⟨⟨defaultExpiry, .empty domain⟩, policy, []⟩

def bindings (g : Gate) : Bindings := g.registrar.bindings

def withBindings (bs : Bindings) (g : Gate) : Gate :=
  { g with registrar := { g.registrar with bindings := bs } }

def idle (g : Gate) : Step := ⟨[], [], g⟩

def follow (asked : List Call) (g : Gate) (o : Registrar.Outcome) : Except Fault Unit × Step :=
  (o.result, ⟨o.sent, asked, { g.withBindings o.bindings with calls := g.calls ++ asked }⟩)

def register (w : World) (fresh : Fresh) (call : Call) (g : Gate) : Except Fault Unit × Step :=
  match g.policy with
  | .unrestricted => g.follow [] (g.registrar.register w fresh call.request call.port)
  | .ask judge =>
    match judge g.calls call with
    | .allow => g.follow [call] (g.registrar.register w fresh call.request call.port)
    | .deny => g.follow [call] (g.registrar.refuse w fresh call.request)
    | .crash => g.follow [call] ⟨.error .crashedPolicy, [], g.bindings⟩

def dispatch (w : World) (fresh : Fresh) (src : Endpoint) (r : Request) (g : Gate) :
    Except Fault Unit × Step :=
  if r.method = "REGISTER".toList then g.register w fresh ⟨r, src.ip.render, src.port⟩
  else if r.method = "ACK".toList then (.ok (), g.idle)
  else (.error (.unsupported r.method), g.idle)

/-- Answer a request with the status of its fault, unless that is one of the network. -/
def report (w : World) (fresh : Fresh) (r : Request) : Except Fault Unit × Step → Step
  | (.ok (), s) => s
  | (.error f, s) =>
    match f.status with
    | none => s
    | some code => { s with sent := s.sent ++ ((r.reply fresh.tag code).deliver w).sent }

/-- Serve one datagram. Responses, and what is no request with a good top Via, are dropped. -/
def handle (w : World) (fresh : Fresh) (data : Utf8.Octets) (src : Endpoint) (g : Gate) : Step :=
  match Message.parse data with
  | .ok (.request r) =>
    match r.stamp src with
    | .ok r => report w fresh r (g.dispatch w fresh src r)
    | .error _ => g.idle
  | _ => g.idle

def replyHost? (data : Utf8.Octets) (src : Endpoint) : Option Text :=
  match Message.parse data with
  | .ok (.request r) => do
    let r ← (r.stamp src).toOption
    let v ← (r.reply (.zero 16) 200).topVia.toOption
    return v.replyHost
  | _ => none

end Gate
end SipTestbed
