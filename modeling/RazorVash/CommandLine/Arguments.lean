import RazorVash.CommandLine.Words

namespace RazorVash.CommandLine

structure Arguments where
  source : Text
  output : Option Text := none
  overwrite : Bool := false
  ignoreStart : Option Text := none
  ignoreEnd : Option Text := none
  encoding : Text := "utf-8".toList
  quiet : Bool := false
deriving DecidableEq, Repr

inductive Reading
  | run (arguments : Arguments)
  | help
  | misuse (reason : Misuse)
deriving DecidableEq, Repr

namespace Reading

inductive Expected
  | source
  | output
  /-- Only the separator that may follow the output. -/
  | separator
  | nothing
deriving DecidableEq, Repr

structure Draft where
  arguments : Arguments := { source := [] }
  expected : Expected := .source
  extras : List Text := []

def Draft.addExtra (draft : Draft) (text : Text) : Draft :=
  { draft with extras := draft.extras ++ [text] }

def Draft.atOption (draft : Draft) : Draft :=
  { draft with expected := if draft.expected = .source then .source else .nothing }

def Draft.takePlain (draft : Draft) (text : Text) : Draft :=
  match draft.expected with
  | .source => { draft with arguments.source := text, expected := .output }
  | .output =>
    -- a second separator in the place of the output stands for no output
    { draft with
      arguments.output := if text = Word.separatorText then none else some text
      expected := .separator }
  | .separator | .nothing => { draft.addExtra text with expected := .nothing }

def Draft.takeSeparator (draft : Draft) : Draft :=
  match draft.expected with
  | .nothing => draft.addExtra Word.separatorText
  | .separator => { draft with expected := .nothing }
  | _ => draft

def Draft.setValue (draft : Draft) (switch : Switch) (value : Text) : Draft :=
  match switch with
  | .ignoreStart => { draft with arguments.ignoreStart := some value }
  | .ignoreEnd => { draft with arguments.ignoreEnd := some value }
  | .encoding => { draft with arguments.encoding := value }
  | _ => draft

def Draft.turnOn (draft : Draft) (switch : Switch) : Draft :=
  match switch with
  | .overwrite => { draft with arguments.overwrite := true }
  | .quiet => { draft with arguments.quiet := true }
  | _ => draft

def joined (switch : Switch) (short afterEquals : Bool) (text : Text) :
    Except Misuse (List Switch × Option Text) :=
  match text with
  | [] => .error (.needlessValue switch [])
  | c :: rest =>
    if !short || afterEquals || c = '-' then .error (.needlessValue switch text)
    else
      match Switch.ofSpelling? ['-', c] with
      | none => .ok ([switch], some ('-' :: text))
      | some next =>
        match rest with
        | [] => .ok ([switch, next], none)
        | '=' :: value =>
          (joined next true true value).map fun (switches, extra) => (switch :: switches, extra)
        | rest =>
          (joined next true false rest).map fun (switches, extra) => (switch :: switches, extra)

def switchesOf (mention : Mention) : Except Misuse (List Switch × Option Text) :=
  match mention.attached with
  | none => .ok ([mention.switch], none)
  | some attached => joined mention.switch mention.short attached.afterEquals attached.text

def finish (draft : Draft) : Reading :=
  if draft.expected = .source then .misuse .missingSource
  -- refused only here, so any other fault and the help come first
  else if draft.extras ≠ [] then .misuse (.unrecognized draft.extras)
  else .run draft.arguments

def follow (draft : Draft) : List Word → Reading
  | [] => finish draft
  | .plain text :: words => follow (draft.takePlain text) words
  | .separator :: words => follow draft.takeSeparator words
  | .unknown text :: words => follow (draft.atOption.addExtra text) words
  | .option mention :: words =>
    let draft := draft.atOption
    if mention.switch.takesValue then
      match mention.attached, words with
      | some attached, words => follow (draft.setValue mention.switch attached.text) words
      | none, .plain value :: words => follow (draft.setValue mention.switch value) words
      | none, _ => .misuse (.missingValue mention.switch)
    else
      match switchesOf mention with
      | .error reason => .misuse reason
      | .ok (switches, extra) =>
        if .help ∈ switches then .help
        else
          let draft := switches.foldl Draft.turnOn draft
          follow (match extra with
            | none => draft
            | some extra => draft.addExtra extra) words

def ofTexts (texts : List Text) : Reading :=
  match Word.ofTexts texts with
  | .error reason => .misuse reason
  | .ok words => follow {} words

end Reading

end RazorVash.CommandLine
