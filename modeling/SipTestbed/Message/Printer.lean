import SipTestbed.Message.Basic
import SipTestbed.Text.Decimal
import SipTestbed.Via

/-! Responses as octets: status line, header fields, a Content-Length of the body's true size in
place of any given one, an empty line, the body. -/
namespace SipTestbed

def crlf : Text := ['\r', '\n']

def contentLength : Text := "content-length".toList

def Headers.renderEntry (e : Text × Text) : Text :=
  Headers.canonical e.1 ++ ": ".toList ++ e.2 ++ crlf

def Headers.render (hs : Headers) (size : Nat) : Text :=
  (hs.entries.filter fun e => e.1 != contentLength).flatMap renderEntry ++
    "Content-Length: ".toList ++ Decimal.write size ++ crlf ++ crlf

def Response.head (r : Response) : Text :=
  sipVersion ++ [' '] ++ Decimal.write r.code.toNat ++ [' '] ++ r.reason ++ crlf ++
    r.headers.render r.body.length

def Response.encode (r : Response) : Utf8.Octets := Utf8.encode r.head ++ r.body

end SipTestbed
