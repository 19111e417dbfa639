import SipTestbed.Headers
import SipTestbed.Text.Utf8

/-! Requests and responses. -/
namespace SipTestbed

structure Request where
  method : Text
  uri : Text
  headers : Headers
  body : Utf8.Octets
  deriving DecidableEq, Repr

structure Response where
  code : UInt16
  reason : Text
  headers : Headers
  body : Utf8.Octets
  deriving DecidableEq, Repr

inductive Message where
  | request (r : Request)
  | response (r : Response)
  deriving DecidableEq, Repr

def reasonPhrase (code : UInt16) : Text :=
  match code with
  | 100 => "Trying".toList
  | 180 => "Ringing".toList
  | 200 => "OK".toList
  | 202 => "Accepted".toList
  | 400 => "Bad Request".toList
  | 401 => "Unauthorized".toList
  | 403 => "Forbidden".toList
  | 404 => "Not Found".toList
  | 405 => "Method Not Allowed".toList
  | 407 => "Proxy Authentication Required".toList
  | 408 => "Request Timeout".toList
  | 423 => "Interval Too Brief".toList
  | 480 => "Temporarily Unavailable".toList
  | 481 => "Call/Transaction Does Not Exist".toList
  | 486 => "Busy Here".toList
  | 500 => "Server Internal Error".toList
  | 501 => "Not Implemented".toList
  | 503 => "Service Unavailable".toList
  | _ => "Unknown".toList

def Response.ofCode (code : UInt16) : Response := ⟨code, reasonPhrase code, .empty, []⟩

end SipTestbed
