import SipTestbed.Message.Printer
import SipTestbed.ParseError

/-! Messages from datagrams. Lines end in CRLF or in LF alone, and a line that starts with a blank
continues the header field before it. -/
namespace SipTestbed

namespace Message

def skipBreaks (data : Utf8.Octets) : Utf8.Octets := data.dropWhile fun b => b == 13 || b == 10

def cutAt? (group : Utf8.Octets) : Utf8.Octets → Option (Utf8.Octets × Utf8.Octets)
  | [] => none
  | b :: r =>
    if group.isPrefixOf (b :: r) then some ([], (b :: r).drop group.length)
    else (cutAt? group r).map fun (h, t) => (b :: h, t)

/-- Head and body, parted by the first CRLF CRLF or else by the first LF LF. -/
def splitHead (data : Utf8.Octets) : Utf8.Octets × Utf8.Octets :=
  ((cutAt? [13, 10, 13, 10] data).or (cutAt? [10, 10] data)).getD (data, [])

def stripReturn (line : Text) : Text :=
  if line.getLast? == some '\r' then line.dropLast else line

def lines (head : Text) : List Text := (head.splitOn '\n').map stripReturn

def isFold (line : Text) : Bool := line.head? == some ' ' || line.head? == some '\t'

/-- The header fields of lines up to the first empty one, after the fields read so far. The last
of those is the field that a continuation line extends. -/
def fields (done : List (Text × Text)) (open? : Option (Text × Text)) :
    List Text → Except ParseError (List (Text × Text))
  | [] => .ok (done ++ open?.toList)
  | line :: ls =>
    if line.isEmpty then .ok (done ++ open?.toList)
    else if isFold line then
      match open? with
      | none => .error .foldWithoutHeader
      | some (n, v) => fields done (some (n, v ++ [' '] ++ Text.trim line)) ls
    else
      match Text.cut? ':' line with
      | none => .error (.headerLine line)
      | some (n, v) => fields (done ++ open?.toList) (some (Text.trim n, Text.trim v)) ls

def limitBody (headers : Headers) (body : Utf8.Octets) : Except ParseError Utf8.Octets :=
  match headers.get? contentLength with
  | none => .ok body
  | some v =>
    match Decimal.readU64? (Text.trim v) with
    | none => .error (.contentLength v)
    | some n => .ok (body.take n)

def isVersion (t : Text) : Bool := "SIP/".toList.isPrefixOf t

def statusLine? (line : Text) : Option (UInt16 × Text) := do
  let (_, rest) ← Text.cut? ' ' line
  match Text.cut? ' ' rest with
  | some (code, reason) => return (← Decimal.readU16? code, Text.trim reason)
  | none => return (← Decimal.readU16? rest, [])

def ofParts (start : Text) (headers : Headers) (body : Utf8.Octets) : Except ParseError Message :=
  if isVersion start then
    match statusLine? start with
    | some (code, reason) => .ok (.response ⟨code, reason, headers, body⟩)
    | none => .error (.statusLine start)
  else
    match Text.words start with
    | [method, uri, version] =>
      if isVersion version then .ok (.request ⟨method, uri, headers, body⟩)
      else .error (.requestLine start)
    | _ => .error (.requestLine start)

def ofLines (start : Text) (rest : List Text) (body : Utf8.Octets) : Except ParseError Message := do
  let headers := Headers.ofList (← fields [] none rest)
  ofParts start headers (← limitBody headers body)

/-- The message of one datagram. Bad header lines are reported before a bad start line. -/
def parse (data : Utf8.Octets) : Except ParseError Message :=
  if (skipBreaks data).isEmpty then .error .emptyDatagram
  else
    match Utf8.decode? (splitHead (skipBreaks data)).1 with
    | none => .error .headNotUtf8
    | some head =>
      ofLines ((lines head).headD []) (lines head).tail (splitHead (skipBreaks data)).2

end Message
end SipTestbed
