import RazorVash.Text.Digit
import RazorVash.Text.Quoted

namespace RazorVash.CommandLine

inductive Switch
  | help
  | overwrite
  | ignoreStart
  | ignoreEnd
  | encoding
  | quiet
deriving DecidableEq, Repr

namespace Switch

def takesValue : Switch → Bool
  | ignoreStart | ignoreEnd | encoding => true
  | _ => false

def spellings : List (Text × Switch) :=
  [("-h".toList, help), ("--help".toList, help), ("--overwrite".toList, overwrite),
    ("--ignore-start".toList, ignoreStart), ("--ignore-end".toList, ignoreEnd),
    ("--encoding".toList, encoding), ("-q".toList, quiet), ("--quiet".toList, quiet)]

def ofSpelling? (spelling : Text) : Option Switch :=
  (spellings.find? (·.1 = spelling)).map Prod.snd

def title (switch : Switch) : Text :=
  Text.join ['/'] ((spellings.filter (·.2 = switch)).map Prod.fst)

end Switch

/-- A value in the same word as its option; one that follows a short spelling without an equals sign
may also be more options. -/
structure Attached where
  text : Text
  afterEquals : Bool
deriving DecidableEq, Repr

structure Mention where
  switch : Switch
  short : Bool
  attached : Option Attached
deriving DecidableEq, Repr

inductive Word
  | plain (text : Text)
  | option (mention : Mention)
  | unknown (text : Text)
  | separator
deriving DecidableEq, Repr

inductive Misuse
  | ambiguous (word : Text) (candidates : List Text)
  | missingValue (switch : Switch)
  | needlessValue (switch : Switch) (value : Text)
  | missingSource
  | unrecognized (words : List Text)
deriving DecidableEq, Repr

namespace Misuse

def message : Misuse → Text
  | ambiguous word candidates =>
    "ambiguous option: ".toList ++ word ++ " could match ".toList ++
      Text.join ", ".toList candidates
  | missingValue switch =>
    "argument ".toList ++ switch.title ++ ": expected one argument".toList
  | needlessValue switch value =>
    "argument ".toList ++ switch.title ++ ": ignored explicit argument ".toList ++ value.quoted
  | missingSource => "the following arguments are required: source".toList
  | unrecognized words => "unrecognized arguments: ".toList ++ Text.join [' '] words

end Misuse

namespace Word

/-- Numbers below zero are no options. -/
def isNegativeNumber : Text → Bool
  | '-' :: text =>
    let text := if text.getLast? = some '\n' then text.dropLast else text
    match text.dropWhile isDecimalDigit with
    | [] => text ≠ []
    | '.' :: fraction => fraction ≠ [] && fraction.all isDecimalDigit
    | _ => false
  | _ => false

def isShort (spelling : Text) : Bool := spelling.length = 2

def splitValue (word : Text) : Text × Option Attached :=
  match Text.cut? ['='] word with
  | some (spelling, value) => (spelling, some ⟨value, true⟩)
  | none => (word, none)

/-- The options that a word may mean whose spelling is not written out. -/
def candidates (word : Text) : List (Text × Mention) :=
  match word with
  | '-' :: '-' :: _ =>
    let (start, attached) := splitValue word
    (Switch.spellings.filter fun (spelling, _) => start.isPrefixOf spelling).map
      fun (spelling, switch) => (spelling, { switch, short := false, attached })
  | '-' :: c :: rest =>
    (Switch.spellings.filter fun (spelling, _) => spelling = ['-', c]).map
      fun (spelling, switch) => (spelling, { switch, short := true, attached := some ⟨rest, false⟩ })
  | _ => []

def spelledOut? (word : Text) : Option Mention :=
  match Switch.ofSpelling? word with
  | some switch => some { switch, short := isShort word, attached := none }
  | none =>
    let (spelling, attached) := splitValue word
    match Switch.ofSpelling? spelling, attached with
    | some switch, some attached =>
      some { switch, short := isShort spelling, attached := some attached }
    | _, _ => none

def ofText (word : Text) : Except Misuse Word :=
  match word with
  | '-' :: _ :: _ =>
    match spelledOut? word with
    | some mention => .ok (.option mention)
    | none =>
      match candidates word with
      | [(_, mention)] => .ok (.option mention)
      | [] =>
        if isNegativeNumber word ∨ ' ' ∈ word then .ok (.plain word) else .ok (.unknown word)
      | several => .error (.ambiguous word (several.map Prod.fst))
  | _ => .ok (.plain word)

def separatorText : Text := "--".toList

def ofTexts : List Text → Except Misuse (List Word)
  | [] => .ok []
  | text :: texts =>
    if text = separatorText then .ok (.separator :: texts.map .plain)
    else do return (← ofText text) :: (← ofTexts texts)

end Word

end RazorVash.CommandLine
