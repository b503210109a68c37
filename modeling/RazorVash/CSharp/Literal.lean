import RazorVash.CSharp.Identifier

namespace RazorVash.CSharp

def runLength (p : Char → Bool) (text : Text) : Nat := (text.takeWhile p).length

def beginsWithAny (chars : List Char) (text : Text) : Bool :=
  match text with
  | [] => false
  | c :: _ => c ∈ chars

def digitsLength (text : Text) : Nat := runLength Char.isDigit text

def exponentLength (text : Text) : Nat :=
  if beginsWithAny ['e', 'E'] text then
    let sign := if beginsWithAny ['+', '-'] (text.drop 1) then 1 else 0
    let digits := digitsLength (text.drop (1 + sign))
    if digits = 0 then 0 else 1 + sign + digits
  else 0

def realSuffixLength (text : Text) : Nat :=
  if beginsWithAny ['f', 'F', 'd', 'D', 'm', 'M'] text then 1 else 0

def integerSuffixLength (text : Text) : Nat :=
  if beginsWithAny ['u', 'U'] text then
    if beginsWithAny ['l', 'L'] (text.drop 1) then 2 else 1
  else if beginsWithAny ['l', 'L'] text then
    if beginsWithAny ['u', 'U'] (text.drop 1) then 2 else 1
  else 0

def tailLength (text : Text) : Nat :=
  let exponent := exponentLength text
  exponent + realSuffixLength (text.drop exponent)

def fractionLength? (text : Text) : Option Nat :=
  if beginsWithAny ['.'] text then
    let digits := digitsLength (text.drop 1)
    if digits = 0 then none else some (1 + digits + tailLength (text.drop (1 + digits)))
  else none

def realLength? (text : Text) : Option Nat :=
  let digits := digitsLength text
  let rest := text.drop digits
  if digits = 0 then fractionLength? text
  else
    match fractionLength? rest with
    | some n => some (digits + n)
    | none => if tailLength rest = 0 then none else some (digits + tailLength rest)

def basedLength? (letters : List Char) (isDigit : Char → Bool) (text : Text) : Option Nat :=
  if beginsWithAny ['0'] text && beginsWithAny letters (text.drop 1) then
    let digits := runLength isDigit (text.drop 2)
    if digits = 0 then none
    else some (2 + digits + integerSuffixLength (text.drop (2 + digits)))
  else none

def isHexDigit (c : Char) : Bool :=
  c.isDigit || ('a' ≤ c && c ≤ 'f') || ('A' ≤ c && c ≤ 'F')

def decimalLength? (text : Text) : Option Nat :=
  let digits := digitsLength text
  if digits = 0 then none else some (digits + integerSuffixLength (text.drop digits))

def numberLength? (text : Text) : Option Nat :=
  realLength? text <|> basedLength? ['x', 'X'] isHexDigit text <|>
    basedLength? ['b', 'B'] (fun c => c = '0' || c = '1') text <|> decimalLength? text

/-- A raw string: at least three quotes, then everything through the next run of at least three.
Without a closing run, six quotes or more stand for themselves. -/
def rawStringLength? (text : Text) : Option Nat :=
  let dollars := runLength (· = '$') text
  let quotes := runLength (· = '"') (text.drop dollars)
  if quotes < 3 then none
  else
    match Text.cut? ['"', '"', '"'] (text.drop (dollars + quotes)) with
    | some (body, rest) => some (dollars + quotes + body.length + 3 + runLength (· = '"') rest)
    | none => if quotes < 6 then none else some (dollars + quotes)

/-- The length of a verbatim string after its opening quote. A doubled quote stands for itself;
in a string that is never closed the last doubled quote closes it. -/
def verbatimLength? (read : Nat) (lastDoubled : Option Nat) : Text → Option Nat
  | '"' :: '"' :: text => verbatimLength? (read + 2) (some (read + 1)) text
  | '"' :: _ => some (read + 1)
  | _ :: text => verbatimLength? (read + 1) lastDoubled text
  | [] => lastDoubled

/-- The length of a string after its opening quote. A backslash takes the next character with it;
a quote or the end of the line closes the string. -/
def stringLength? (read : Nat) : Text → Option Nat
  | '\\' :: _ :: text => stringLength? (read + 2) text
  | ['\\'] => none
  | '"' :: _ => some (read + 1)
  | '\n' :: _ => some (read + 1)
  | _ :: text => stringLength? (read + 1) text
  | [] => none

def quotedLength? (text : Text) : Option Nat :=
  match text with
  | '$' :: '@' :: '"' :: body => verbatimLength? 3 none body
  | '@' :: '$' :: '"' :: body => verbatimLength? 3 none body
  | '@' :: '"' :: body => verbatimLength? 2 none body
  | '$' :: '"' :: body => stringLength? 2 body
  | '"' :: body => stringLength? 1 body
  | _ => none

def characterLength? : Text → Option Nat
  | '\'' :: '\\' :: _ :: '\'' :: _ => some 4
  | '\'' :: c :: '\'' :: _ => if c = '\\' then none else some 3
  | _ => none

/-- A comment to the end of its line, which it takes with it. -/
def lineCommentLength? : Text → Option Nat
  | '/' :: '/' :: text => (Text.cut? ['\n'] text).map fun (body, _) => 2 + body.length + 1
  | _ => none

def blockCommentLength? : Text → Option Nat
  | '/' :: '*' :: text => (Text.cut? ['*', '/'] text).map fun (body, _) => 2 + body.length + 2
  | _ => none

end RazorVash.CSharp
