import RazorVash.Json.Value
import RazorVash.Text.Quoted

namespace RazorVash

inductive FieldFault
  | notString
  | notList
  | unclearBool
  | notBool
  | empty
  | frozen
deriving DecidableEq, Repr

namespace FieldFault

def code : FieldFault → Text
  | notString => "string_type".toList
  | notList => "list_type".toList
  | unclearBool => "bool_parsing".toList
  | notBool => "bool_type".toList
  | empty => "value_error".toList
  | frozen => "frozen_instance".toList

def message : FieldFault → Text
  | notString => "Input should be a valid string".toList
  | notList => "Input should be a valid list".toList
  | unclearBool => "Input should be a valid boolean, unable to interpret input".toList
  | notBool => "Input should be a valid boolean".toList
  | empty => "Value error, must not be empty".toList
  | frozen => "Instance is frozen".toList

end FieldFault

structure FieldError where
  field : Text
  index : Option Nat := none
  fault : FieldFault
deriving DecidableEq, Repr

structure Invalid where
  title : Text
  errors : List FieldError
deriving DecidableEq, Repr

namespace Invalid

/-- An empty text is the only input that is shown with its fault. -/
def describe (e : FieldError) : Text :=
  let place := match e.index with
    | none => e.field
    | some i => e.field ++ '.' :: Text.ofNat i
  place ++ "\n  ".toList ++ e.fault.message ++ " [type=".toList ++ e.fault.code ++
    ", input_value='', input_type=str]\n".toList ++
    "    For further information visit https://errors.pydantic.dev/2.14/v/".toList ++ e.fault.code

def message (e : Invalid) : Text :=
  let count := e.errors.length
  Text.ofNat count ++ (if count = 1 then " validation error for ".toList
    else " validation errors for ".toList) ++ e.title ++
    e.errors.flatMap fun error => '\n' :: describe error

end Invalid

/-- A field read with its faults; a value that is missing takes the default. -/
structure Checked (α : Type) where
  value : α
  errors : List FieldError

namespace Checked

def check {α : Type} (field : String) (default : α) (read : Json → Except FieldFault α)
    (value : Option Json) : Checked α :=
  match value with
  | none => ⟨default, []⟩
  | some value =>
    match read value with
    | .ok value => ⟨value, []⟩
    | .error fault => ⟨default, [{ field := field.toList, fault }]⟩

def readString : Json → Except FieldFault Text
  | .string value => .ok value
  | _ => .error .notString

def readOptionalString : Json → Except FieldFault (Option Text)
  | .null => .ok none
  | value => (readString value).map some

def boolOfWord? (word : Text) : Option Bool :=
  let word := word.lowerAscii
  if Text.isOneOf (["1", "true", "t", "yes", "y", "on"].map String.toList) word then some true
  else if Text.isOneOf (["0", "false", "f", "no", "n", "off"].map String.toList) word then
    some false
  else none

/-- A finite double without a fraction counts as a whole number. -/
def wholeOf? : Binary64 → Option Int
  | .finite negative significand exponent =>
    let (n, d) := Binary64.quotient significand exponent
    if n % d = 0 then some (if negative then -(n / d : Nat) else (n / d : Nat)) else none
  | _ => none

def boolOfWhole (n : Int) : Except FieldFault Bool :=
  if n = 1 then .ok true else if n = 0 then .ok false else .error .unclearBool

def readBool : Json → Except FieldFault Bool
  | .bool value => .ok value
  | .string word => match boolOfWord? word with
    | some value => .ok value
    | none => .error .unclearBool
  | .whole n => boolOfWhole n
  | .real x => match wholeOf? x with
    | some n => boolOfWhole n
    | none => .error .notBool
  | _ => .error .notBool

def itemErrors (field : Text) (index : Nat) : List Json → List FieldError
  | [] => []
  | .string _ :: items => itemErrors field (index + 1) items
  | _ :: items =>
    { field, index := some index, fault := .notString } :: itemErrors field (index + 1) items

def checkStrings (field : String) (default : List Text) (value : Option Json) :
    Checked (List Text) :=
  match value with
  | none => ⟨default, []⟩
  | some (.list items) => ⟨items.filterMap Json.text?, itemErrors field.toList 0 items⟩
  | some _ => ⟨default, [{ field := field.toList, fault := .notList }]⟩

end Checked

end RazorVash
