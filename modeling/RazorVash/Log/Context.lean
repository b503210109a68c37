import RazorVash.Json.Spelling

namespace RazorVash.Log

inductive ContextFault
  | notNamed (kind : Text)
  | notAssignable (kind : Text)
  | namesInList
deriving DecidableEq, Repr

namespace ContextFault

def message : ContextFault → Text
  | notNamed kind => '\'' :: kind ++ "' object is not a mapping".toList
  | notAssignable kind => '\'' :: kind ++ "' object does not support item assignment".toList
  | namesInList => "list indices must be integers or slices, not str".toList

end ContextFault

namespace Context

def namedData : Json → Except ContextFault Json.Members
  | .object members => .ok members
  | value => .error (.notNamed value.kindName)

def handedOn : Option Json → Except ContextFault Json.Members
  | none => .ok []
  | some (.object members) => .ok members
  | some (.list _) => .error .namesInList
  | some value => .error (.notAssignable value.kindName)

/-- The arguments of a call with the context and the call's own data joined under `extra`. Data that
already stands there is lost. -/
def apply (context : Json) (arguments : Json.Members) : Except ContextFault Json.Members := do
  let context ← namedData context
  let own ← namedData ((arguments.find? "extra_data".toList).getD (.object []))
  let extra ← handedOn (arguments.find? "extra".toList)
  let joined := extra.put "extra_data".toList (.object (context.putAll own))
  return (arguments.erase "extra_data".toList).put "extra".toList (.object joined)

end Context

end RazorVash.Log
