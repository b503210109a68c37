import RazorVash.Json.Writer
import RazorVash.Log.Clock
import RazorVash.Log.Record

namespace RazorVash.Log

inductive Layout
  | plain
  | structured
deriving DecidableEq, Repr

namespace Layout

def ofSetting (setting : Text) : Layout :=
  if setting = "json".toList then structured else plain

def stamp (layout : Layout) (microseconds : Int) : Text :=
  match layout with
  | plain => Clock.plain (microseconds / 1000000)
  | structured => Clock.precise microseconds

def plainLine (stamp : Text) (record : Record) : Text :=
  let line := stamp ++ " - ".toList ++ record.logger ++ " - ".toList ++ record.level.name ++
    " - ".toList ++ record.message
  match record.cause with
  | none => line
  | some cause =>
    line ++ (if line.getLast? = some '\n' then [] else ['\n']) ++ cause.shown

def originMembers : Option Origin → Json.Members
  | none => []
  | some origin =>
    [("module".toList, .string origin.moduleName),
      ("function".toList, match origin.function with
        | none => .null
        | some name => .string name),
      ("line".toList, .whole origin.line)]

def causeMembers : Option Cause → Json.Members
  | none => []
  | some cause => [("exception".toList, .string cause.shown)]

def members (stamp : Text) (record : Record) : Json.Members :=
  [("timestamp".toList, .string stamp), ("level".toList, .string record.level.name),
    ("logger".toList, .string record.logger), ("message".toList, .string record.message)] ++
    originMembers record.origin ++ causeMembers record.cause

def line (layout : Layout) (stamp : Text) (record : Record) : Text :=
  match layout with
  | plain => plainLine stamp record
  | structured => (Json.object ((members stamp record).putAll record.data)).render

end Layout

end RazorVash.Log
