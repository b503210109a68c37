import RazorVash.Json.Value
import RazorVash.Text.Quoted

namespace RazorVash.Json

mutual

def spelled : Json → Text
  | null => "None".toList
  | bool value => if value then "True".toList else "False".toList
  | whole value => Text.ofInt value
  | real value => value.render
  | string value => value.quoted
  | list items => '[' :: spelledItems items ++ [']']
  | object members => '\x7b' :: spelledMembers members ++ ['\x7d']

def spelledItems : List Json → Text
  | [] => []
  | [item] => spelled item
  | item :: items => spelled item ++ ", ".toList ++ spelledItems items

def spelledMembers : List (Text × Json) → Text
  | [] => []
  | [(name, value)] => name.quoted ++ ": ".toList ++ spelled value
  | (name, value) :: members =>
    name.quoted ++ ": ".toList ++ spelled value ++ ", ".toList ++ spelledMembers members

end

/-- A string stands for itself, any other value is spelled. -/
def plain : Json → Text
  | string value => value
  | value => value.spelled

def kindName : Json → Text
  | null => "NoneType".toList
  | bool _ => "bool".toList
  | whole _ => "int".toList
  | real _ => "float".toList
  | string _ => "str".toList
  | list _ => "list".toList
  | object _ => "dict".toList

end RazorVash.Json
