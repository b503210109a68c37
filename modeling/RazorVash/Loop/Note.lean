import RazorVash.Block.Brace
import RazorVash.Log.Record
import RazorVash.Loop.Header

namespace RazorVash

inductive Note
  /-- A loop without a declaration of its variable, with the text from the loop on. -/
  | undeclared (name source : Text)
  | rewroteLoop (header : LoopHeader)
deriving DecidableEq, Repr

inductive RewriteError
  | block (error : MalformedBlock)
  | header (fault : HeaderFault) (source : Text)
deriving DecidableEq, Repr

namespace RewriteError

def source : RewriteError → Text
  | block error => error.source
  | header _ source => source

def excerpt (e : RewriteError) : Text := e.source.excerpt

def headerMessage (reason excerpt : Text) : Text :=
  "Invalid @foreach header (".toList ++ reason ++ ") near: ".toList ++ excerpt.quoted

def message : RewriteError → Text
  | block error => error.message
  | header fault source => headerMessage fault.reason source.excerpt

end RewriteError

namespace Note

def undeclaredMessage (name source : Text) : Text :=
  "@foreach header has no variable declaration, using '".toList ++ name ++ "': ".toList ++
    source.excerpt.quoted

def warning? : Note → Option Text
  | undeclared name source => some (undeclaredMessage name source)
  | rewroteLoop _ => none

def warningRecord (message category : Text) : Log.Record where
  level := .warning
  logger := Log.loggerNamed "translator.error_handler"
  message
  data := [("category".toList, .string category)]

def record : Note → Log.Record
  | undeclared name source =>
    warningRecord (undeclaredMessage name source) "MissingVariableWarning".toList
  | rewroteLoop header => {
      level := .debug
      logger := Log.loggerNamed "translator.foreach_converter"
      message := "Rewrote @foreach loop".toList
      data := [("name".toList, .string header.name), ("iterable".toList, .string header.iterable)] }

/-- The record of a note that nobody keeps a list of warnings for. -/
def untrackedRecord : Note → Log.Record
  | undeclared name source => {
      level := .warning
      logger := Log.loggerNamed "translator.foreach_converter"
      message := undeclaredMessage name source }
  | note => note.record

end Note

/-- The outcome of a pass with its notes in order. -/
structure Noted (α : Type) where
  notes : List Note
  result : Except RewriteError α

namespace Noted
variable {α β : Type}

def ok (value : α) : Noted α := ⟨[], .ok value⟩

def fail (error : RewriteError) : Noted α := ⟨[], .error error⟩

def ofExcept (result : Except RewriteError α) : Noted α := ⟨[], result⟩

def noting (note : Note) (outcome : Noted α) : Noted α := ⟨note :: outcome.notes, outcome.result⟩

def map (f : α → β) (outcome : Noted α) : Noted β := ⟨outcome.notes, outcome.result.map f⟩

def bind (outcome : Noted α) (next : α → Noted β) : Noted β :=
  match outcome.result with
  | .error e => ⟨outcome.notes, .error e⟩
  | .ok value => ⟨outcome.notes ++ (next value).notes, (next value).result⟩

def warnings (outcome : Noted α) : List Text := outcome.notes.filterMap Note.warning?

end Noted

/-- A header read for a loop; `source` is the text from the loop on, for diagnostics. -/
def LoopHeader.read (header source : Text) : Noted LoopHeader :=
  let ((name, declared), iterable) := LoopHeader.parse header
  let outcome : Noted LoopHeader := Noted.ofExcept <|
    match iterable with
    | .error fault => .error (.header fault source)
    | .ok iterable => .ok ⟨name, iterable, declared⟩
  if declared then outcome else outcome.noting (.undeclared name source)

/-- A header read with the loop that it belongs to, or on its own when the loop is empty. -/
def LoopHeader.readIn (header loop : Text) : Noted LoopHeader :=
  LoopHeader.read header (if loop = [] then header else loop)

end RazorVash
