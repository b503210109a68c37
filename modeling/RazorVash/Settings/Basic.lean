import RazorVash.Template.Options

namespace RazorVash

structure Settings where
  ignoreStart : Text := defaultIgnoreStart
  ignoreEnd : Text := defaultIgnoreEnd
  pageDirType : Text := "pg".toList
  dirTypes : List Text := ["pg".toList]
  modelName : Text := "Model".toList
  helpersName : Text := defaultHelpersName
  debug : Bool := false
  logLevel : Text := "INFO".toList
  logFormat : Text := "text".toList
  logFile : Option Text := none
deriving DecidableEq, Repr, Inhabited

namespace Settings

def fieldNames : List String :=
  ["IGNORE_START", "IGNORE_END", "PAGE_DIR_TYPE", "DIR_TYPES", "MODEL_NAME", "HELPERS_NAME",
    "DEBUG", "LOG_LEVEL", "LOG_FORMAT", "LOG_FILE"]

def ofFields (fields : Json.Members) : Except Invalid Settings :=
  let text (name : String) (default : Text) :=
    Checked.check name default Checked.readString (fields.find? name.toList)
  let defaults : Settings := {}
  let ignoreStart := text "IGNORE_START" defaults.ignoreStart
  let ignoreEnd := text "IGNORE_END" defaults.ignoreEnd
  let pageDirType := text "PAGE_DIR_TYPE" defaults.pageDirType
  let dirTypes :=
    Checked.checkStrings "DIR_TYPES" defaults.dirTypes (fields.find? "DIR_TYPES".toList)
  let modelName := text "MODEL_NAME" defaults.modelName
  let helpersName := text "HELPERS_NAME" defaults.helpersName
  let debug :=
    Checked.check "DEBUG" defaults.debug Checked.readBool (fields.find? "DEBUG".toList)
  let logLevel := text "LOG_LEVEL" defaults.logLevel
  let logFormat := text "LOG_FORMAT" defaults.logFormat
  let logFile := Checked.check "LOG_FILE" defaults.logFile Checked.readOptionalString
    (fields.find? "LOG_FILE".toList)
  match ignoreStart.errors ++ ignoreEnd.errors ++ pageDirType.errors ++ dirTypes.errors ++
      modelName.errors ++ helpersName.errors ++ debug.errors ++ logLevel.errors ++
      logFormat.errors ++ logFile.errors with
  | [] => .ok {
      ignoreStart := ignoreStart.value, ignoreEnd := ignoreEnd.value
      pageDirType := pageDirType.value, dirTypes := dirTypes.value
      modelName := modelName.value, helpersName := helpersName.value
      debug := debug.value, logLevel := logLevel.value
      logFormat := logFormat.value, logFile := logFile.value }
  | errors => .error ⟨"Settings".toList, errors⟩

def fields (settings : Settings) : Json.Members :=
  [("IGNORE_START".toList, .string settings.ignoreStart),
    ("IGNORE_END".toList, .string settings.ignoreEnd),
    ("PAGE_DIR_TYPE".toList, .string settings.pageDirType),
    ("DIR_TYPES".toList, .list (settings.dirTypes.map .string)),
    ("MODEL_NAME".toList, .string settings.modelName),
    ("HELPERS_NAME".toList, .string settings.helpersName),
    ("DEBUG".toList, .bool settings.debug),
    ("LOG_LEVEL".toList, .string settings.logLevel),
    ("LOG_FORMAT".toList, .string settings.logFormat),
    ("LOG_FILE".toList, match settings.logFile with
      | none => .null
      | some path => .string path)]

def normalizerOptions (settings : Settings) : Except Invalid NormalizerOptions :=
  NormalizerOptions.ofTexts settings.ignoreStart settings.ignoreEnd settings.helpersName

end Settings

end RazorVash
