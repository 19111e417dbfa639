import SipTestbed.Text.Basic

/-! Header fields in order, under one spelling of each name. A name is kept in lower case and in
its long form, so that every spelling of it finds the same fields. -/
namespace SipTestbed

structure Headers where
  entries : List (Text × Text)
  deriving DecidableEq, Repr

namespace Headers

def longForm? : Char → Option Text
  | 'v' => some "via".toList
  | 'f' => some "from".toList
  | 't' => some "to".toList
  | 'i' => some "call-id".toList
  | 'm' => some "contact".toList
  | 'l' => some "content-length".toList
  | 'c' => some "content-type".toList
  | 'k' => some "supported".toList
  | 's' => some "subject".toList
  | 'e' => some "content-encoding".toList
  | _ => none

def expand : Text → Text
  | [c] => (longForm? c).getD [c]
  | name => name

/-- The spelling under which a name is kept. -/
def normalise (name : Text) : Text := expand (Text.lower (Text.trim name))

def empty : Headers := ⟨[]⟩

def getAll (hs : Headers) (name : Text) : List Text :=
  (hs.entries.filter fun e => e.1 == normalise name).map Prod.snd

def get? (hs : Headers) (name : Text) : Option Text :=
  (hs.entries.find? fun e => e.1 == normalise name).map Prod.snd

def add (hs : Headers) (name value : Text) : Headers :=
  ⟨hs.entries ++ [(normalise name, value)]⟩

def remove (hs : Headers) (name : Text) : Headers :=
  ⟨hs.entries.filter fun e => e.1 != normalise name⟩

/-- Make `value` the only value of a name, after all other fields. -/
def set (hs : Headers) (name value : Text) : Headers := (hs.remove name).add name value

/-- Change the first entry of a name where it stands, or append one. -/
def replaceEntry (name value : Text) : List (Text × Text) → List (Text × Text)
  | [] => [(name, value)]
  | e :: es => if e.1 == name then (e.1, value) :: es else e :: replaceEntry name value es

def replaceFirst (hs : Headers) (name value : Text) : Headers :=
  ⟨replaceEntry (normalise name) value hs.entries⟩

def copyFrom (hs other : Headers) (name : Text) : Headers :=
  (other.getAll name).foldl (fun hs v => hs.add name v) hs

def ofList (es : List (Text × Text)) : Headers := es.foldl (fun hs e => hs.add e.1 e.2) empty

def capitalise : Text → Text
  | [] => []
  | c :: r => c.toUpper :: r

def canonical (name : Text) : Text :=
  if name = "call-id".toList then "Call-ID".toList
  else if name = "cseq".toList then "CSeq".toList
  else if name = "www-authenticate".toList then "WWW-Authenticate".toList
  else ['-'].intercalate ((name.splitOn '-').map capitalise)

end Headers
end SipTestbed
