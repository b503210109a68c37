import RazorVash.Json.Value

/-!
Reading JSON text. A reader takes the text that is left and gives a value with the rest, or what is
wrong and the text from that place on; lines, columns and offsets are counted only when the fault
is shown. Nesting is bounded by `deepest`, which also makes the reading structural.
-/
namespace RazorVash.Json

inductive Fault
  | expectingValue
  | expectingName
  | expectingColon
  | expectingComma
  | unterminatedString
  | controlCharacter
  | invalidEscape
  | invalidUnicodeEscape
  | extraData
  | byteOrderMark
  | tooManyDigits (count : Nat)
  | listTooDeep
  | objectTooDeep
deriving DecidableEq, Repr

structure Misread where
  fault : Fault
  rest : Text
deriving Repr

abbrev Reading (α : Type) := Except Misread (α × Text)

/-- Levels of lists and objects inside each other. -/
def deepest : Nat := 990

/-- Digits that a whole number may have. -/
def mostDigits : Nat := 4300

def isSpace (c : Char) : Bool := c = ' ' || c = '\t' || c = '\n' || c = '\r'

def skipSpace (text : Text) : Text := text.dropWhile isSpace

def fail {α : Type} (fault : Fault) (rest : Text) : Except Misread α := .error ⟨fault, rest⟩

/-! ### Strings -/

def hexDigit? (c : Char) : Option Nat :=
  if c.isDigit then some (c.toNat - '0'.toNat)
  else if 'a' ≤ c ∧ c ≤ 'f' then some (c.toNat - 'a'.toNat + 10)
  else if 'A' ≤ c ∧ c ≤ 'F' then some (c.toNat - 'A'.toNat + 10)
  else none

/-- Four hexadecimal digits; something has to follow them. -/
def unit? : Text → Option (Nat × Text)
  | a :: b :: c :: d :: e :: rest => do
    let a ← hexDigit? a
    let b ← hexDigit? b
    let c ← hexDigit? c
    let d ← hexDigit? d
    return (((a * 16 + b) * 16 + c) * 16 + d, e :: rest)
  | _ => none

def isHighUnit (n : Nat) : Bool := 0xD800 ≤ n && n < 0xDC00

def isLowUnit (n : Nat) : Bool := 0xDC00 ≤ n && n < 0xE000

/-- A unit that belongs to no pair stands for no character and is replaced. -/
def charOfUnit (n : Nat) : Char := if isHighUnit n || isLowUnit n then '\ufffd' else Char.ofNat n

/-- The character of an escape, given the text after its `\u`; two units that make a pair are read
together. -/
def escapedChar (afterMark : Text) : Reading Char :=
  match unit? afterMark with
  | none => fail .invalidUnicodeEscape ('u' :: afterMark)
  | some (high, rest) =>
    if isHighUnit high then
      match rest with
      | '\\' :: 'u' :: low =>
        if low.length < 5 then .ok (charOfUnit high, rest)
        else
          match unit? low with
          | none => fail .invalidUnicodeEscape ('u' :: low)
          | some (second, rest') =>
            if isLowUnit second then
              .ok (Char.ofNat (0x10000 + (high - 0xD800) * 0x400 + (second - 0xDC00)), rest')
            else .ok (charOfUnit high, rest)
      | _ => .ok (charOfUnit high, rest)
    else .ok (charOfUnit high, rest)

def simpleEscape? : Char → Option Char
  | '"' => some '"'
  | '\\' => some '\\'
  | '/' => some '/'
  | 'b' => some '\x08'
  | 'f' => some '\x0c'
  | 'n' => some '\n'
  | 'r' => some '\r'
  | 't' => some '\t'
  | _ => none

/-- The characters of a string after its opening quote. `opening` is the text from that quote on,
where an unterminated string is reported. -/
def readString (opening : Text) (text : Text) : Reading Text :=
  match text with
  | [] => fail .unterminatedString opening
  | '"' :: rest => .ok ([], rest)
  | ['\\'] => fail .unterminatedString opening
  | '\\' :: 'u' :: rest =>
    match escapedChar rest with
    | .error e => .error e
    | .ok (c, rest') =>
      if _ : rest'.length < rest.length then
        (readString opening rest').map fun (cs, left) => (c :: cs, left)
      else fail .invalidUnicodeEscape ('u' :: rest)
  | '\\' :: c :: rest =>
    match simpleEscape? c with
    | none => fail .invalidEscape ('\\' :: c :: rest)
    | some c => (readString opening rest).map fun (cs, left) => (c :: cs, left)
  | c :: rest =>
    if c.toNat < 32 then fail .controlCharacter (c :: rest)
    else (readString opening rest).map fun (cs, left) => (c :: cs, left)
termination_by text.length
decreasing_by all_goals simp only [List.length_cons]; omega

/-! ### Numbers -/

def digits (text : Text) : Text := text.takeWhile Char.isDigit

def natOf (digits : Text) : Nat :=
  digits.foldl (fun n c => n * 10 + (c.toNat - '0'.toNat)) 0

/-- The digits of a whole number: a zero stands alone. -/
def wholeDigits : Text → Text
  | '0' :: _ => ['0']
  | text => digits text

def fractionDigits : Text → Text
  | '.' :: rest => digits rest
  | _ => []

def exponent? (text : Text) : Option (Int × Nat) :=
  match text with
  | e :: rest =>
    if e = 'e' ∨ e = 'E' then
      match rest with
      | '-' :: rest =>
        let ds := digits rest
        if ds = [] then none else some (-(natOf ds), 2 + ds.length)
      | '+' :: rest =>
        let ds := digits rest
        if ds = [] then none else some (natOf ds, 2 + ds.length)
      | rest =>
        let ds := digits rest
        if ds = [] then none else some (natOf ds, 1 + ds.length)
    else none
  | [] => none

def readUnsigned (negative : Bool) (start text : Text) : Reading Json :=
  let whole := wholeDigits text
  if whole = [] then fail .expectingValue start
  else
    let afterWhole := text.drop whole.length
    let fraction := fractionDigits afterWhole
    let afterFraction := if fraction = [] then afterWhole else afterWhole.drop (1 + fraction.length)
    match exponent? afterFraction with
    | some (exponent, length) =>
      .ok (.real (Binary64.ofDecimal negative (natOf (whole ++ fraction))
        (exponent - fraction.length)), afterFraction.drop length)
    | none =>
      if fraction = [] then
        if whole.length > mostDigits then fail (.tooManyDigits whole.length) start
        else .ok (.whole (if negative then -(natOf whole) else natOf whole), afterFraction)
      else
        .ok (.real (Binary64.ofDecimal negative (natOf (whole ++ fraction)) (-fraction.length)),
          afterFraction)

def readNumber (text : Text) : Reading Json :=
  match text with
  | '-' :: rest => readUnsigned true text rest
  | _ => readUnsigned false text text

/-! ### Values -/

def literals : List (Text × Json) :=
  [("null".toList, .null), ("true".toList, .bool true), ("false".toList, .bool false),
    ("NaN".toList, .real .nan), ("Infinity".toList, .real (.infinite false)),
    ("-Infinity".toList, .real (.infinite true))]

def literal? (text : Text) : Option (Json × Text) :=
  literals.findSome? fun (name, value) => (Text.after? name text).map (value, ·)

def readItems (value : Text → Reading Json) (text : Text) : Reading (List Json) :=
  match value text with
  | .error e => .error e
  | .ok (item, rest) =>
    match skipSpace rest with
    | ']' :: rest => .ok ([item], rest)
    | ',' :: rest =>
      if _ : (skipSpace rest).length < text.length then
        (readItems value (skipSpace rest)).map fun (items, left) => (item :: items, left)
      else fail .expectingValue text
    | rest => fail .expectingComma rest
termination_by text.length

def readMembers (value : Text → Reading Json) (text : Text) : Reading (List (Text × Json)) :=
  match text with
  | '"' :: afterQuote =>
    match readString text afterQuote with
    | .error e => .error e
    | .ok (name, rest) =>
      match skipSpace rest with
      | ':' :: rest =>
        match value (skipSpace rest) with
        | .error e => .error e
        | .ok (item, rest) =>
          match skipSpace rest with
          | '}' :: rest => .ok ([(name, item)], rest)
          | ',' :: rest =>
            if _ : (skipSpace rest).length < afterQuote.length then
              (readMembers value (skipSpace rest)).map fun (members, left) =>
                ((name, item) :: members, left)
            else fail .expectingName text
          | rest => fail .expectingComma rest
      | rest => fail .expectingColon rest
  | _ => fail .expectingName text
termination_by text.length
decreasing_by simp only [List.length_cons]; omega

/-- A value, with lists and objects nested at most `depth` deep. -/
def readValue : (depth : Nat) → Text → Reading Json
  | depth, text =>
    match text with
    | '"' :: rest => (readString text rest).map fun (s, rest) => (.string s, rest)
    | '[' :: rest =>
      match depth with
      | 0 => fail .listTooDeep text
      | depth + 1 =>
        match skipSpace rest with
        | ']' :: rest => .ok (.list [], rest)
        | rest => (readItems (readValue depth) rest).map fun (items, rest) => (.list items, rest)
    | '{' :: rest =>
      match depth with
      | 0 => fail .objectTooDeep text
      | depth + 1 =>
        match skipSpace rest with
        | '}' :: rest => .ok (.object [], rest)
        | rest =>
          (readMembers (readValue depth) rest).map fun (members, rest) =>
            (.object (Entries.putAll [] members), rest)
    | _ =>
      match literal? text with
      | some (value, rest) => .ok (value, rest)
      | none => readNumber text

def read (text : Text) : Except Misread Json :=
  match text with
  | '\ufeff' :: _ => fail .byteOrderMark text
  | _ =>
    match readValue deepest (skipSpace text) with
    | .error e => .error e
    | .ok (value, rest) =>
      match skipSpace rest with
      | [] => .ok value
      | rest => fail .extraData rest

/-! ### Showing a fault -/

def Fault.message : Fault → Text
  | expectingValue => "Expecting value".toList
  | expectingName => "Expecting property name enclosed in double quotes".toList
  | expectingColon => "Expecting ':' delimiter".toList
  | expectingComma => "Expecting ',' delimiter".toList
  | unterminatedString => "Unterminated string starting at".toList
  | controlCharacter => "Invalid control character at".toList
  | invalidEscape => "Invalid \\escape".toList
  | invalidUnicodeEscape => "Invalid \\uXXXX escape".toList
  | extraData => "Extra data".toList
  | byteOrderMark => "Unexpected UTF-8 BOM (decode using utf-8-sig)".toList
  | tooManyDigits count =>
    "Exceeds the limit (4300 digits) for integer string conversion: value has ".toList ++
      Text.ofNat count ++
      " digits; use sys.set_int_max_str_digits() to increase the limit".toList
  | listTooDeep =>
    "maximum recursion depth exceeded while decoding a JSON array from a unicode string".toList
  | objectTooDeep =>
    "maximum recursion depth exceeded while decoding a JSON object from a unicode string".toList

/-- What is wrong, with the line and column from one and the offset from zero. -/
def Misread.message (e : Misread) (text : Text) : Text :=
  match e.fault with
  | .tooManyDigits _ | .listTooDeep | .objectTooDeep => e.fault.message
  | fault =>
    let offset := text.length - e.rest.length
    let before := text.take offset
    let line := before.count '\n' + 1
    let column := (Text.afterLast '\n' before).length + 1
    fault.message ++ ": line ".toList ++ Text.ofNat line ++ " column ".toList ++
      Text.ofNat column ++ " (char ".toList ++ Text.ofNat offset ++ ")".toList

end RazorVash.Json
