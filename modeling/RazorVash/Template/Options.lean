import RazorVash.Settings.Validation

namespace RazorVash

def defaultIgnoreStart : Text := "@*VASH_IGNORE_START*@".toList

def defaultIgnoreEnd : Text := "@*VASH_IGNORE_END*@".toList

def defaultHelpersName : Text := "Html".toList

structure NormalizerOptions where
  ignoreStart : Text := defaultIgnoreStart
  ignoreEnd : Text := defaultIgnoreEnd
  helpersName : Text := defaultHelpersName
  ignoreStart_ne : ignoreStart ≠ [] := by decide
  ignoreEnd_ne : ignoreEnd ≠ [] := by decide
  helpersName_ne : helpersName ≠ [] := by decide
deriving DecidableEq, Repr

namespace NormalizerOptions

def title : Text := "NormalizerOptions".toList

instance : Inhabited NormalizerOptions := ⟨{}⟩

def readFilled (value : Json) : Except FieldFault { text : Text // text ≠ [] } :=
  match Checked.readString value with
  | .error fault => .error fault
  | .ok text => if h : text ≠ [] then .ok ⟨text, h⟩ else .error .empty

def ofFields (fields : Json.Members) : Except Invalid NormalizerOptions :=
  let field (name : String) (default : { text : Text // text ≠ [] }) :=
    Checked.check name default readFilled (fields.find? name.toList)
  let start := field "ignore_start" ⟨defaultIgnoreStart, by decide⟩
  let stop := field "ignore_end" ⟨defaultIgnoreEnd, by decide⟩
  let helpers := field "helpers_name" ⟨defaultHelpersName, by decide⟩
  match start.errors ++ stop.errors ++ helpers.errors with
  | [] => .ok ⟨start.value, stop.value, helpers.value, start.value.2, stop.value.2,
      helpers.value.2⟩
  | errors => .error ⟨title, errors⟩

def ofTexts (ignoreStart ignoreEnd helpersName : Text) : Except Invalid NormalizerOptions :=
  ofFields [("ignore_start".toList, .string ignoreStart), ("ignore_end".toList, .string ignoreEnd),
    ("helpers_name".toList, .string helpersName)]

def fields (options : NormalizerOptions) : Json.Members :=
  [("ignore_start".toList, .string options.ignoreStart),
    ("ignore_end".toList, .string options.ignoreEnd),
    ("helpers_name".toList, .string options.helpersName)]

/-- Options never change once they are made, so every assignment to a field is refused. -/
def refuseAssignment (field : Text) : Invalid := ⟨title, [{ field, fault := .frozen }]⟩

end NormalizerOptions

end RazorVash
