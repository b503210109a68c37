import RazorVash.Json.Value

namespace RazorVash.Json

def escapeUnit (unit : Nat) : Text := "\\u".toList ++ Text.hex 4 unit

def escapeChar (c : Char) : Text :=
  if c = '"' then "\\\"".toList
  else if c = '\\' then "\\\\".toList
  else if c = '\n' then "\\n".toList
  else if c = '\r' then "\\r".toList
  else if c = '\t' then "\\t".toList
  else if c = '\x08' then "\\b".toList
  else if c = '\x0c' then "\\f".toList
  else
    let n := c.toNat
    if 32 ≤ n ∧ n ≤ 126 then [c]
    else if n < 0x10000 then escapeUnit n
    else
      escapeUnit (0xD800 + (n - 0x10000) / 0x400) ++ escapeUnit (0xDC00 + (n - 0x10000) % 0x400)

def quote (text : Text) : Text := '"' :: text.flatMap escapeChar ++ ['"']

def renderReal : Binary64 → Text
  | .nan => "NaN".toList
  | .infinite negative => if negative then "-Infinity".toList else "Infinity".toList
  | x => x.render

mutual

def render : Json → Text
  | null => "null".toList
  | bool value => if value then "true".toList else "false".toList
  | whole value => Text.ofInt value
  | real value => renderReal value
  | string value => quote value
  | list items => '[' :: renderItems items ++ [']']
  | object members => '{' :: renderMembers members ++ ['}']

def renderItems : List Json → Text
  | [] => []
  | [item] => render item
  | item :: items => render item ++ ", ".toList ++ renderItems items

def renderMembers : List (Text × Json) → Text
  | [] => []
  | [(name, value)] => quote name ++ ": ".toList ++ render value
  | (name, value) :: members =>
    quote name ++ ": ".toList ++ render value ++ ", ".toList ++ renderMembers members

end

end RazorVash.Json
