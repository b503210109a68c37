import RazorVash.Entries
import RazorVash.Number.Binary64

namespace RazorVash

inductive Json
  | null
  | bool (value : Bool)
  | whole (value : Int)
  | real (value : Binary64)
  | string (value : Text)
  | list (items : List Json)
  | object (members : List (Text × Json))

namespace Json

abbrev Members := Entries Json

def ofString (s : String) : Json := .string s.toList

def member? (name : String) : Json → Option Json
  | object members => Entries.find? name.toList members
  | _ => none

def text? : Json → Option Text
  | string value => some value
  | _ => none

def bool? : Json → Option Bool
  | bool value => some value
  | _ => none

def whole? : Json → Option Int
  | whole value => some value
  | _ => none

def list? : Json → Option (List Json)
  | list items => some items
  | _ => none

def members? : Json → Option Members
  | object members => some members
  | _ => none

def isNull : Json → Bool
  | null => true
  | _ => false

/-- Empty values, zero and `false` count as nothing. -/
def isNothing : Json → Bool
  | null => true
  | bool value => !value
  | whole value => value = 0
  | real (.finite _ significand _) => significand = 0
  | real _ => false
  | string value => value.isEmpty
  | list items => items.isEmpty
  | object members => members.isEmpty

end Json

end RazorVash
