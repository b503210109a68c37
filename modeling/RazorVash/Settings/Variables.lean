import RazorVash.Failure
import RazorVash.Settings.Basic
import RazorVash.Text.Blank

namespace RazorVash

abbrev Variables := Entries Text

namespace Variables

def isLineBlank (c : Char) : Bool := isBlank c && c ≠ '\n'

def skipBlanks (text : Text) : Text := text.dropWhile isLineBlank

def endsLine (text : Text) : Bool :=
  match skipBlanks text with
  | [] | '#' :: _ => true
  | _ => false

def escapedIn (quote c : Char) : Option Char :=
  if c = quote ∨ c = '\\' then some c
  else if quote = '\'' then none
  else
    match c with
    | '\'' => some '\''
    | 'a' => some '\x07'
    | 'b' => some '\x08'
    | 'f' => some '\x0c'
    | 'n' => some '\n'
    | 'r' => some '\r'
    | 't' => some '\t'
    | 'v' => some '\x0b'
    | _ => none

def readQuoted (quote : Char) : Text → Option (Text × Text)
  | [] => none
  | '\\' :: c :: text =>
    match escapedIn quote c with
    | some escaped => (readQuoted quote text).map fun (value, rest) => (escaped :: value, rest)
    | none => (readQuoted quote (c :: text)).map fun (value, rest) => ('\\' :: value, rest)
  | c :: text =>
    if c = quote then some ([], text)
    else (readQuoted quote text).map fun (value, rest) => (c :: value, rest)

/-- A comment begins with a number sign after a blank. -/
def beforeComment : Text → Text
  | [] => []
  | c :: text =>
    if isBlank c ∧ (text.dropWhile isBlank).head? = some '#' then []
    else c :: beforeComment text

def readValue (text : Text) : Option Text :=
  let quotedBy (quote : Char) (text : Text) : Option Text :=
    match readQuoted quote text with
    | some (value, rest) => if endsLine rest then some value else none
    | none => none
  match skipBlanks text with
  | '"' :: rest => quotedBy '"' rest
  | '\'' :: rest => quotedBy '\'' rest
  | rest => some (beforeComment rest).trimEnd

/-- The variable that a line assigns. Empty lines, comments and lines of another form assign
none. -/
def ofLine (line : Text) : Option (Text × Text) :=
  let line := skipBlanks line
  let line := match Text.after? "export ".toList line with
    | some rest => skipBlanks rest
    | none => line
  let name := line.takeWhile fun c => c ≠ '=' && c ≠ '#' && !isBlank c
  match name, skipBlanks (line.drop name.length) with
  | [], _ => none
  | name, '=' :: rest => (readValue rest).map (name, ·)
  | _, _ => none

def ofFile (text : Text) : Variables :=
  Entries.putAll [] ((List.splitOn '\n' text).filterMap ofLine)

def nameOf (field : String) : Text := "VASHSTATIC_".toList ++ field.toList

/-- The value of one setting as a variable gives it. The list of directory types is written in JSON,
where `null` leaves it unset. -/
def setting? (values : Variables) (source : SettingSource) (field : String) :
    Except Failure (Option Json) :=
  match values.find? (nameOf field) with
  | none => .ok none
  | some value =>
    if field = "DIR_TYPES" then
      match Json.read value with
      | .error _ => .error (.unreadableSetting field.toList source)
      | .ok .null => .ok none
      | .ok value => .ok (some value)
    else .ok (some (.string value))

def settings (values : Variables) (source : SettingSource) :
    Except Failure Json.Members := do
  let fields ← Settings.fieldNames.mapM fun field => do
    return (field.toList, ← values.setting? source field)
  return fields.filterMap fun (field, value) => value.map (field, ·)

end Variables

/-- Settings from all sources, the strongest first. -/
def Settings.ofSources (arguments : Json.Members) (environment file : Variables) :
    Except Failure Settings := do
  let fromEnvironment ← environment.settings .environment
  let fromFile ← file.settings .file
  let fields := (Entries.putAll fromFile fromEnvironment).putAll arguments
  (Settings.ofFields fields).mapError .invalid

end RazorVash
