import SipTestbed.HostPort
import SipTestbed.Params

/-! SIP URIs: `sip:user:password@host:port;params?headers`. -/
namespace SipTestbed

inductive Scheme where
  | sip
  | sips
  deriving DecidableEq, Repr

def Scheme.render : Scheme → Text
  | .sip => "sip".toList
  | .sips => "sips".toList

def Scheme.parse (t : Text) : Except ParseError Scheme :=
  if t = "sip".toList then .ok .sip
  else if t = "sips".toList then .ok .sips
  else .error (.uriScheme t)

structure UserInfo where
  name : Text
  password : Option Text
  deriving DecidableEq, Repr

def UserInfo.parse (t : Text) : UserInfo :=
  match Text.cut? ':' t with
  | some (n, p) => ⟨n, some p⟩
  | none => ⟨t, none⟩

def UserInfo.render (u : UserInfo) : Text :=
  match u.password with
  | some p => u.name ++ ':' :: p
  | none => u.name

structure Uri where
  scheme : Scheme
  user : Option UserInfo
  hostPort : HostPort
  params : Params
  headers : Option Text
  deriving DecidableEq, Repr

namespace Uri

def host (u : Uri) : Text := u.hostPort.host
def port (u : Uri) : Option UInt16 := u.hostPort.port

def cutOff (cut : Option (Text × Text)) (t : Text) : Text × Option Text :=
  match cut with
  | some (a, b) => (a, some b)
  | none => (t, none)

/-- The headers follow the first `?`, the parameters the first `;` before it, and the host the
last `@` before that. -/
def parse (text : Text) : Except ParseError Uri :=
  match Text.cut? ':' (Text.trim text) with
  | none => .error (.notUri (Text.trim text))
  | some (s, rest) => do
    let scheme ← Scheme.parse (Text.lower s)
    let (rest, headers) := cutOff (Text.cut? '?' rest) rest
    let (rest, params) := cutOff (Text.cut? ';' rest) rest
    let (user, hostPort) :=
      match Text.cutLast? '@' rest with
      | some (u, h) => (some (UserInfo.parse u), h)
      | none => (none, rest)
    let hostPort ← HostPort.parse hostPort
    return ⟨scheme, user, hostPort, (params.map Params.parse).getD [], headers⟩

/-- The user part, empty when there is none: the name under which a binding is kept. -/
def userKey (u : Uri) : Text := (u.user.map UserInfo.name).getD []

def render (u : Uri) : Text :=
  u.scheme.render ++ [':'] ++
    (match u.user with
      | some i => i.render ++ ['@']
      | none => []) ++
    u.hostPort.render ++ u.params.render ++
    match u.headers with
    | some h => '?' :: h
    | none => []

end Uri
end SipTestbed
