import SipTestbed.Text.Basic

/-! Why a text or a datagram is not what it should be. -/
namespace SipTestbed

inductive ParseError where
  | emptyDatagram
  | headNotUtf8
  | foldWithoutHeader
  | headerLine (line : Text)
  | contentLength (value : Text)
  | statusLine (line : Text)
  | requestLine (line : Text)
  | notUri (text : Text)
  | uriScheme (scheme : Text)
  | unterminatedHost (text : Text)
  | missingHost (text : Text)
  | port (text : Text)
  | unterminatedAddress (text : Text)
  | via (text : Text)
  | viaProtocol (protocol : Text)
  /-- Raised outside this library, in its own words. -/
  | other (detail : Text)
  deriving DecidableEq, Repr

namespace ParseError

def detail : ParseError → Text
  | .emptyDatagram => "empty datagram".toList
  | .headNotUtf8 => "message head is not UTF-8".toList
  | .foldWithoutHeader => "continuation line before any header".toList
  | .headerLine l => "malformed header line: ".toList ++ l
  | .contentLength v => "invalid Content-Length: ".toList ++ v
  | .statusLine l => "invalid status line: ".toList ++ l
  | .requestLine l => "invalid request line: ".toList ++ l
  | .notUri t => "not a SIP URI: ".toList ++ t
  | .uriScheme s => "unsupported URI scheme: ".toList ++ s
  | .unterminatedHost t => "unterminated IPv6 host: ".toList ++ t
  | .missingHost t => "missing host in ".toList ++ t
  | .port p => "invalid port: ".toList ++ p
  | .unterminatedAddress t => "unterminated address: ".toList ++ t
  | .via t => "malformed Via: ".toList ++ t
  | .viaProtocol p => "malformed Via protocol: ".toList ++ p
  | .other d => d

def message (e : ParseError) : Text := "SIP parse error: ".toList ++ e.detail

end ParseError
end SipTestbed
