import SipTestbed.Json.Basic

/-! JSON without blanks. -/
namespace SipTestbed.Json

mutual
def render : Json → Text
  | .null => "null".toList
  | .bool b => if b then "true".toList else "false".toList
  | .number n => n.render
  | .string s => s.render
  | .array vs => ['['] ++ renderList vs ++ [']']
  | .object ms => ['\x7b'] ++ renderMembers ms ++ ['\x7d']

def renderList : List Json → Text
  | [] => []
  | [v] => v.render
  | v :: w :: vs => v.render ++ [','] ++ renderList (w :: vs)

def renderMembers : List (Quoted × Json) → Text
  | [] => []
  | [(k, v)] => k.render ++ [':'] ++ v.render
  | (k, v) :: m :: ms => k.render ++ [':'] ++ v.render ++ [','] ++ renderMembers (m :: ms)
end

end SipTestbed.Json
