import SipTestbed.Json.Basic
import SipTestbed.Text.Hex

/-! JSON from texts. A reader takes a value from the front of a text and returns what follows it. -/
namespace SipTestbed.Json

def isSpace (c : Char) : Bool := c == ' ' || c == '\t' || c == '\n' || c == '\r'

def skipSpace (t : Text) : Text := t.dropWhile isSpace

def unit? (a b c d : Char) : Option UInt16 := do
  return UInt16.ofNat ((← Hex.value? a) * 4096 + (← Hex.value? b) * 256 + (← Hex.value? c) * 16 +
    (← Hex.value? d))

def consPart (p : StringPart) (rest : Option (Quoted × Text)) : Option (Quoted × Text) :=
  rest.map fun (q, r) => (p :: q, r)

/-- A string after its opening quote. Control characters have to be escaped. -/
def string? : Text → Option (Quoted × Text)
  | '"' :: r => some ([], r)
  | '\\' :: 'u' :: a :: b :: c :: d :: r =>
    match unit? a b c d with
    | some n => consPart (.unit n) (string? r)
    | none => none
  | '\\' :: l :: r => if (short? l).isSome then consPart (.short l) (string? r) else none
  | c :: r => if c == '\\' || c.toNat < 0x20 then none else consPart (.plain c) (string? r)
  | [] => none

def digits? (t : Text) : Option (Text × Text) :=
  if (t.takeWhile Char.isDigit).isEmpty then none
  else some (t.takeWhile Char.isDigit, t.dropWhile Char.isDigit)

/-- A whole part: zero, or digits without a zero in front. -/
def whole? : Text → Option (Text × Text)
  | '0' :: r => if (r.head?.map Char.isDigit).getD false then none else some (['0'], r)
  | t => digits? t

def fraction? : Text → Option (Text × Text)
  | '.' :: r => (digits? r).map fun (ds, r) => ('.' :: ds, r)
  | r => some ([], r)

def exponentSign : Text → Text × Text
  | '+' :: r => (['+'], r)
  | '-' :: r => (['-'], r)
  | r => ([], r)

def exponent? : Text → Option (Text × Text)
  | c :: r =>
    if c == 'e' || c == 'E' then
      (digits? (exponentSign r).2).map fun (ds, r') => (c :: (exponentSign r).1 ++ ds, r')
    else some ([], c :: r)
  | [] => some ([], [])

def number? (negative : Bool) (t : Text) : Option (Json × Text) := do
  let (w, r) ← whole? t
  let (f, r) ← fraction? r
  let (e, r) ← exponent? r
  return (.number ⟨negative, w, f ++ e⟩, r)

def word? (word : Text) (v : Json) (t : Text) : Option (Json × Text) :=
  if word.isPrefixOf t then some (v, t.drop word.length) else none

mutual
/-- A value. Every two units of fuel read at least one character. -/
def value? : Nat → Text → Option (Json × Text)
  | 0, _ => none
  | n + 1, t =>
    match skipSpace t with
    | '"' :: r => (string? r).map fun (s, r) => (.string s, r)
    | '[' :: r =>
      match skipSpace r with
      | ']' :: r => some (.array [], r)
      | r => (elements? n r).map fun (vs, r) => (.array vs, r)
    | '\x7b' :: r =>
      match skipSpace r with
      | '\x7d' :: r => some (.object [], r)
      | r => (members? n r).map fun (ms, r) => (.object ms, r)
    | '-' :: r => number? true r
    | 't' :: r => word? "rue".toList (.bool true) r
    | 'f' :: r => word? "alse".toList (.bool false) r
    | 'n' :: r => word? "ull".toList .null r
    | r => number? false r

def elements? : Nat → Text → Option (List Json × Text)
  | 0, _ => none
  | n + 1, t => do
    let (v, r) ← value? n t
    match skipSpace r with
    | ',' :: r => (elements? n r).map fun (vs, r) => (v :: vs, r)
    | ']' :: r => some ([v], r)
    | _ => none

def members? : Nat → Text → Option (List (Quoted × Json) × Text)
  | 0, _ => none
  | n + 1, t =>
    match skipSpace t with
    | '"' :: r => do
      let (k, r) ← string? r
      match skipSpace r with
      | ':' :: r => do
        let (v, r) ← value? n r
        match skipSpace r with
        | ',' :: r => (members? n r).map fun (ms, r) => ((k, v) :: ms, r)
        | '\x7d' :: r => some ([(k, v)], r)
        | _ => none
      | _ => none
    | _ => none
end

def parse? (t : Text) : Option Json :=
  match value? (2 * t.length + 2) t with
  | some (v, r) => if (skipSpace r).isEmpty then some v else none
  | none => none

end SipTestbed.Json
