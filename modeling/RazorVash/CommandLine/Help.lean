import RazorVash.CommandLine.Words
import RazorVash.Pattern.Fill
import RazorVash.Settings.Basic
import RazorVash.Text.Wrap

namespace RazorVash.CommandLine

def programName : Text := "vashstatic".toList

def usage : Text :=
  ("usage: vashstatic [-h] [--overwrite] [--ignore-start IGNORE_START]\n" ++
    "                  [--ignore-end IGNORE_END] [--encoding ENCODING] [-q]\n" ++
    "                  source [output]\n").toList

namespace Help

def column : Nat := 24

def width : Nat := 54

def isSqueezed (c : Char) : Bool := c = ' ' || (9 ≤ c.toNat && c.toNat ≤ 13)

/-- Rows of blanks become single ones, at the ends none. -/
def squeeze (text : Text) : Text :=
  Text.trim (Text.join [' '] ((List.splitOnP isSqueezed text).filter (· ≠ [])))

def indent : Text := List.replicate column ' '

def entry (subject text : Text) : Text :=
  let lines := Text.wrap width (squeeze text)
  let lead :=
    if subject.length ≤ column - 4 then
      "  ".toList ++ subject ++ List.replicate (column - 2 - subject.length) ' '
    else "  ".toList ++ subject ++ '\n' :: indent
  lead ++ Text.join ('\n' :: indent) lines ++ ['\n']

/-- What the help text of an option for a mark may refer to. -/
def parameters (spelling field : String) (mark text : Text) : Json.Members :=
  [("option_strings".toList, .list [.ofString spelling]), ("dest".toList, .ofString field),
    ("nargs".toList, .null), ("const".toList, .null), ("default".toList, .string mark),
    ("type".toList, .null), ("choices".toList, .null), ("required".toList, .bool false),
    ("help".toList, .string text), ("metavar".toList, .null),
    ("prog".toList, .string programName)]

def markEntry (spelling field : String) (subject role mark : Text) :
    Except Pattern.FillFault Text :=
  let text := "Marker ".toList ++ role ++ " a span to delete (default: ".toList ++ mark ++
    ").".toList
  (Pattern.fillNamed text (parameters spelling field mark text)).map (entry subject)

def plainEntry (subject text : String) : Text := entry subject.toList text.toList

def head : Text :=
  usage ++ "\nRewrite a C# Razor template into Vash-friendly syntax.\n\n".toList

def positionals : Text :=
  "positional arguments:\n".toList ++
    plainEntry "source" "Path to the template to normalize." ++
    plainEntry "output" ("Optional destination for the normalized template (defaults to a .vash " ++
      "file alongside the source).")

def options (settings : Settings) : Except Pattern.FillFault Text := do
  let start ← markEntry "--ignore-start" "ignore_start" "--ignore-start IGNORE_START".toList
    "opening".toList settings.ignoreStart
  let stop ← markEntry "--ignore-end" "ignore_end" "--ignore-end IGNORE_END".toList
    "closing".toList settings.ignoreEnd
  return "options:\n".toList ++
    plainEntry "-h, --help" "show this help message and exit" ++
    plainEntry "--overwrite" "Allow overwriting an existing output file." ++
    start ++ stop ++
    plainEntry "--encoding ENCODING"
      "Encoding to use when reading and writing files (default: utf-8)." ++
    plainEntry "-q, --quiet" "Suppress informational output."

def text (settings : Settings) : Except Pattern.FillFault Text := do
  return head ++ positionals ++ '\n' :: (← options settings)

end Help

end RazorVash.CommandLine
