import SipTestbed.Fault
import SipTestbed.Message.Printer
import SipTestbed.Net.World
import SipTestbed.Token

/-! Replies to requests, and where they go: to the address and port that the top Via records for
its sender, or else to the address and port that the sender gave. -/
namespace SipTestbed

def defaultPort : UInt16 := 5060

/-- A To value with a tag: the one it has, or a new one. A 100 needs none. -/
def withTag (tag : Token 16) (code : UInt16) (value : Text) : Text :=
  if Text.hasPart ";tag=".toList value || code == 100 then value
  else value ++ ";tag=".toList ++ tag.digits

def echoHeaders (tag : Token 16) (code : UInt16) (hs : Headers) : Headers :=
  let front := (Headers.empty.copyFrom hs "via".toList).copyFrom hs "from".toList
  let front :=
    match hs.get? "to".toList with
    | some value => front.add "to".toList (withTag tag code value)
    | none => front
  (front.copyFrom hs "call-id".toList).copyFrom hs "cseq".toList

def Request.reply (tag : Token 16) (code : UInt16) (r : Request) : Response :=
  { Response.ofCode code with headers := echoHeaders tag code r.headers }

def Response.addHeader (name value : Text) (r : Response) : Response :=
  { r with headers := r.headers.add name value }

namespace Via

def replyHost (v : Via) : Text := v.received.getD v.sentBy.host

/-- The port that a reply is for. -/
def replyPort (v : Via) : UInt16 := (v.rport.port?.or v.sentBy.port).getD defaultPort

end Via

def Response.topVia (r : Response) : Except Fault Via :=
  match r.headers.get? "via".toList with
  | none => .error .unroutable
  | some text => (Via.parse text).mapError .malformed

def Via.destination (w : World) (v : Via) : Except Fault Endpoint :=
  match addressesOf w.names v.replyHost with
  | [] => .error .io
  | ip :: _ => .ok ⟨ip, v.replyPort⟩

structure Delivery where
  result : Except Fault Unit
  sent : List Attempt

def Response.deliver (w : World) (r : Response) : Delivery :=
  match r.topVia >>= Via.destination w with
  | .error f => ⟨.error f, []⟩
  | .ok dest =>
    ⟨if w.networkUp then .ok () else .error .io, [⟨dest, r.encode, w.networkUp⟩]⟩

end SipTestbed
