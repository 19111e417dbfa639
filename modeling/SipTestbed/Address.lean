import SipTestbed.Uri

/-! The addresses of To, From and Contact: `"Name" <uri>;params` or `uri;params`. -/
namespace SipTestbed

structure Address where
  displayName : Text
  uri : Uri
  params : Params
  deriving DecidableEq, Repr

namespace Address

def parseBare (t : Text) : Except ParseError Address :=
  match Text.cut? ';' t with
  | some (u, p) => do return ⟨[], ← Uri.parse u, Params.parse p⟩
  | none => do return ⟨[], ← Uri.parse t, []⟩

/-- The first `<` opens the URI and the first `>` after it closes it. -/
def parse (text : Text) : Except ParseError Address :=
  match Text.cut? '<' (Text.trim text) with
  | none => parseBare (Text.trim text)
  | some (name, rest) =>
    match Text.cut? '>' rest with
    | none => .error (.unterminatedAddress (Text.trim text))
    | some (u, p) => do
      return ⟨Text.unquote (Text.trim name), ← Uri.parse u, Params.parse p⟩

end Address
end SipTestbed
