import RazorVash.Json.Value
import RazorVash.Text.Quoted

namespace RazorVash.Log

abbrev Level := Int

namespace Level

def debug : Level := 10
def info : Level := 20
def warning : Level := 30
def error : Level := 40
def critical : Level := 50

def name (level : Level) : Text :=
  if level = critical then "CRITICAL".toList
  else if level = error then "ERROR".toList
  else if level = warning then "WARNING".toList
  else if level = info then "INFO".toList
  else if level = debug then "DEBUG".toList
  else if level = 0 then "NOTSET".toList
  else "Level ".toList ++ Text.ofInt level

/-- The level that a setting names; what names none is `info`. -/
def ofSetting (setting : Text) : Level :=
  let named : Entries Level := [("CRITICAL".toList, critical), ("FATAL".toList, critical),
    ("ERROR".toList, error), ("WARNING".toList, warning), ("WARN".toList, warning),
    ("INFO".toList, info), ("DEBUG".toList, debug), ("NOTSET".toList, 0)]
  (named.find? setting.upperAscii).getD info

end Level

structure Origin where
  file : Text
  function : Option Text
  line : Int

namespace Origin

/-- A file name without its last extension; points at its beginning begin no extension. -/
def withoutExtension (name : Text) : Text :=
  let points := name.takeWhile (· = '.')
  match Text.cutLast? ['.'] (name.drop points.length) with
  | none => name
  | some (stem, _) => points ++ stem

def moduleName (origin : Origin) : Text :=
  withoutExtension (Text.afterLast '/' origin.file)

end Origin

structure Cause where
  kind : Text
  text : Text

namespace Cause

/-- The kind whose text is a name that was looked up in vain, shown in quotes. -/
def lookupKind : Text := "KeyError".toList

def shown (cause : Cause) : Text :=
  match if cause.kind = lookupKind then cause.text.quoted else cause.text with
  | [] => cause.kind
  | text => cause.kind ++ ": ".toList ++ text

end Cause

structure Record where
  level : Level
  logger : Text
  message : Text
  data : Json.Members := []
  origin : Option Origin := none
  cause : Option Cause := none

def loggerNamed (part : String) : Text := "vashstatic.".toList ++ part.toList

def isOwn (logger : Text) : Bool :=
  logger = "vashstatic".toList || (Text.after? "vashstatic.".toList logger).isSome

end RazorVash.Log
