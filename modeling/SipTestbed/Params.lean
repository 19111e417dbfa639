import SipTestbed.Text.Basic

/-! Parameters of URIs and headers: `;name=value`, or `;name` for a flag, in order. -/
namespace SipTestbed

abbrev Param := Text × Option Text

abbrev Params := List Param

namespace Params

def parseOne? (t : Text) : Option Param :=
  if (Text.trim t).isEmpty then none
  else match Text.cut? '=' (Text.trim t) with
    | some (k, v) => some (Text.lower (Text.trim k), some (Text.unquote (Text.trim v)))
    | none => some (Text.lower (Text.trim t), none)

def parse (t : Text) : Params := (t.splitOn ';').filterMap parseOne?

/-- The first parameter of a name in any letter case; `some none` is a flag. -/
def get? (ps : Params) (name : Text) : Option (Option Text) :=
  (ps.find? fun p => Text.sameWord p.1 name).map Prod.snd

def value? (ps : Params) (name : Text) : Option Text := (ps.get? name).join

def set (name value : Text) : Params → Params
  | [] => [(name, some value)]
  | p :: ps => if Text.sameWord p.1 name then (p.1, some value) :: ps else p :: set name value ps

def renderOne : Param → Text
  | (k, some v) => ';' :: k ++ ['='] ++ v
  | (k, none) => ';' :: k

def render (ps : Params) : Text := ps.flatMap renderOne

end Params
end SipTestbed
