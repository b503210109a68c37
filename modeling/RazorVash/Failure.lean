import RazorVash.Json.Reader
import RazorVash.Loop.Note
import RazorVash.Pattern.Fill
import RazorVash.Settings.Validation
import RazorVash.Storage.Encoding

namespace RazorVash

inductive CacheFault
  | misread (error : Json.Misread) (text : Text)
  | notObject
  | notJsonFile

namespace CacheFault

def reason : CacheFault → Text
  | misread error text => error.message text
  | notObject => "top-level value is not an object".toList
  | notJsonFile => "not a '.json' file".toList

end CacheFault

inductive SettingSource
  | environment
  | file
deriving DecidableEq, Repr

def SettingSource.name : SettingSource → Text
  | environment => "EnvSettingsSource".toList
  | file => "DotEnvSettingsSource".toList

inductive Failure
  | rewrite (error : RewriteError)
  | unusableCache (path : Path) (fault : CacheFault)
  /-- A value of a cache that is beyond what can be read, though it is no fault of the file. -/
  | unreadableValue (error : Json.Misread)
  | nothingToNormalize
  | file (error : FileError)
  | missingTemplate (path : Path)
  | outputExists (path : Path)
  | codec (error : CodecError)
  | invalid (error : Invalid)
  | unreadableSetting (field : Text) (source : SettingSource)
  | engine (message : Text)
  | pattern (fault : Pattern.FillFault)

namespace Failure

def message : Failure → Text
  | rewrite error => error.message
  | unusableCache path fault =>
    "Template cache '".toList ++ path.render ++ "' is unusable: ".toList ++ fault.reason
  | unreadableValue error => error.message []
  | nothingToNormalize => "Either a template path or contents must be given".toList
  | file error => error.message
  | missingTemplate path => "Template file not found: ".toList ++ path.render
  | outputExists path => "Refusing to overwrite existing file: ".toList ++ path.render
  | codec error => error.message
  | invalid error => error.message
  | unreadableSetting field source =>
    "error parsing value for field \"".toList ++ field ++ "\" from source \"".toList ++
      source.name ++ "\"".toList
  | engine message => message
  | pattern fault => fault.message

/-- The failures that the command line reports in one line. It ends on all others: unknown encodings,
and paths on which a file cannot stand. -/
def isReported : Failure → Bool
  | rewrite _ | missingTemplate _ | outputExists _ | invalid _ => true
  | file error => error.fault ∈ [.missing, .occupied, .badName]
  | codec (.unknownEncoding _) => false
  | codec _ => true
  | unreadableValue error =>
    match error.fault with
    | .tooManyDigits _ => true
    | _ => false
  | _ => false

end Failure

end RazorVash
