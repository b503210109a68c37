import RazorVash.Json.Spelling
import RazorVash.Number.Places
import RazorVash.Pattern.Piece

namespace RazorVash.Pattern

inductive FillFault
  | tooFewValues
  | tooManyValues
  | needsNames
  | unknownName (name : Text)
  | unclosedName
  | incomplete
  | unknownKind (kind : Char) (index : Nat)
  | notNumber (kind : Char) (value : Text)
  | notWhole (kind : Char) (value : Text)
  | notReal (value : Text)
  | notCharacter
  | noSuchCharacter
  | wholeFromNan
  | wholeFromInfinity
  | wholeTooLarge
  | extentNotWhole
  | widthTooLarge
  | precisionTooLarge
deriving DecidableEq, Repr

namespace FillFault

def message : FillFault → Text
  | tooFewValues => "not enough arguments for format string".toList
  | tooManyValues => "not all arguments converted during string formatting".toList
  | needsNames => "format requires a mapping".toList
  | unknownName name => name.quoted
  | unclosedName => "incomplete format key".toList
  | incomplete => "incomplete format".toList
  | unknownKind kind index =>
    let shown := if 31 ≤ kind.toNat ∧ kind.toNat ≤ 126 then kind else '?'
    "unsupported format character '".toList ++ shown :: "' (0x".toList ++ Text.hex 1 kind.toNat ++
      ") at index ".toList ++ Text.ofNat index
  | notNumber kind value =>
    '%' :: kind :: " format: a real number is required, not ".toList ++ value
  | notWhole kind value => '%' :: kind :: " format: an integer is required, not ".toList ++ value
  | notReal value => "must be real number, not ".toList ++ value
  | notCharacter => "%c requires int or char".toList
  | noSuchCharacter => "%c arg not in range(0x110000)".toList
  | wholeFromNan => "cannot convert float NaN to integer".toList
  | wholeFromInfinity => "cannot convert float infinity to integer".toList
  | wholeTooLarge => "int too large to convert to float".toList
  | extentNotWhole => "* wants int".toList
  | widthTooLarge => "width too big".toList
  | precisionTooLarge => "precision too big".toList

end FillFault

structure Values where
  names : Option Json.Members
  left : List Json

def Values.next (values : Values) : Except FillFault (Json × Values) :=
  match values.left with
  | [] => .error .tooFewValues
  | value :: left => .ok (value, { values with left })

def Values.select (values : Values) : Option Text → Except FillFault Values
  | none => .ok values
  | some name =>
    match values.names with
    | none => .error .needsNames
    | some members =>
      match members.find? name with
      | none => .error (.unknownName name)
      | some value => .ok { values with left := [value] }

/-! ### What stands in a place -/

/-- A filling: sign, mark of the base and body are put together when the width is known. -/
structure Filling where
  sign : Text := []
  base : Text := []
  body : Text
  numeric : Bool := true

/-- A whole number as such or as a truth value. -/
def wholeOf? : Json → Option Int
  | .whole n => some n
  | .bool value => some (if value then 1 else 0)
  | _ => none

def truncate : Binary64 → Except FillFault Int
  | .nan => .error .wholeFromNan
  | .infinite _ => .error .wholeFromInfinity
  | .finite negative significand exponent =>
    let (n, d) := Binary64.quotient significand exponent
    .ok (if negative then -(n / d : Nat) else (n / d : Nat))

def signOf (flags : Text) (negative : Bool) : Text :=
  if negative then ['-'] else if '+' ∈ flags then ['+'] else if ' ' ∈ flags then [' '] else []

def fillWhole (flags : Text) (precision : Option Nat) (base : Nat) (mark : Text) (n : Int) :
    Filling :=
  let digits := Nat.toDigits base n.natAbs
  { sign := signOf flags (n < 0)
    base := if '#' ∈ flags then mark else []
    body := List.replicate (precision.getD 0 - digits.length) '0' ++ digits }

def fillReal (flags : Text) (precision : Option Nat) (kind : Char) : Binary64 → Filling
  | .nan => { sign := signOf flags false, body := "nan".toList }
  | .infinite negative => { sign := signOf flags negative, body := "inf".toList }
  | .finite negative significand exponent =>
    let value := Binary64.quotient significand exponent
    let places := precision.getD 6
    let pointed : Bool := '#' ∈ flags
    { sign := signOf flags negative
      body :=
        if kind = 'f' then Binary64.showFixed pointed places value
        else if kind = 'e' then Binary64.showScientific pointed places value
        else Binary64.showGeneral pointed places value }

def toUpper (filling : Filling) : Filling :=
  { filling with base := filling.base.map Char.toUpper, body := filling.body.map Char.toUpper }

def realOf (value : Json) : Except FillFault Binary64 :=
  match value with
  | .real x => .ok x
  | value =>
    match wholeOf? value with
    | none => .error (.notReal value.kindName)
    | some n =>
      match Binary64.ofDecimal (n < 0) n.natAbs 0 with
      | .infinite _ => .error .wholeTooLarge
      | x => .ok x

def cutTo (precision : Option Nat) (text : Text) : Filling where
  body := match precision with
    | none => text
    | some n => text.take n
  numeric := false

def asciiOnly (text : Text) : Text :=
  text.flatMap fun c => if c.toNat < 128 then [c] else Text.escapePoint c.toNat

def fillDecimal (flags : Text) (precision : Option Nat) (kind : Char) (value : Json) :
    Except FillFault Filling :=
  let fill := fillWhole flags precision 10 []
  match value with
  | .real x => (truncate x).map fill
  | value =>
    match wholeOf? value with
    | none => .error (.notNumber kind value.kindName)
    | some n => .ok (fill n)

def fillBased (flags : Text) (precision : Option Nat) (kind : Char) (base : Nat) (mark : Text)
    (value : Json) : Except FillFault Filling :=
  match wholeOf? value with
  | none => .error (.notWhole kind value.kindName)
  | some n => .ok (fillWhole flags precision base mark n)

def fillCharacter (value : Json) : Except FillFault Filling :=
  match value with
  | .string [c] => .ok { body := [c], numeric := false }
  | value =>
    match wholeOf? value with
    | none => .error .notCharacter
    | some n =>
      if 0 ≤ n ∧ n < 0x110000 then .ok { body := [Char.ofNat n.toNat], numeric := false }
      else .error .noSuchCharacter

def fillKind (place : Place) (precision : Option Nat) (kind : Char) (value : Json) :
    Except FillFault Filling :=
  let flags := place.flags
  match kind with
  | 's' => .ok (cutTo precision value.plain)
  | 'r' => .ok (cutTo precision value.spelled)
  | 'a' => .ok (cutTo precision (asciiOnly value.spelled))
  | 'c' => fillCharacter value
  | 'd' | 'i' | 'u' => fillDecimal flags precision kind value
  | 'o' => fillBased flags precision kind 8 "0o".toList value
  | 'x' => fillBased flags precision kind 16 "0x".toList value
  | 'X' => (fillBased flags precision kind 16 "0x".toList value).map toUpper
  | 'e' | 'f' | 'g' => (realOf value).map (fillReal flags precision kind)
  | 'E' | 'F' | 'G' => (realOf value).map fun x => toUpper (fillReal flags precision kind.toLower x)
  | kind => .error (.unknownKind kind place.index)

/-- A filling brought to a width: zeros stand inside, after the sign, blanks outside. -/
def pad (left zeros : Bool) (width : Nat) (filling : Filling) : Text :=
  let lead := filling.sign ++ filling.base
  let missing := width - (lead.length + filling.body.length)
  if left then lead ++ filling.body ++ List.replicate missing ' '
  else if zeros ∧ filling.numeric then lead ++ List.replicate missing '0' ++ filling.body
  else List.replicate missing ' ' ++ lead ++ filling.body

/-! ### Pieces -/

def mostWidth : Nat := 0x7fffffffffffffff

def mostPrecision : Nat := 0x7fffffff

/-- A number from the pattern or from the next value. -/
def takeExtent (values : Values) (most : Nat) (tooLarge : FillFault) :
    Option Extent → Except FillFault (Option Int × Values)
  | none => .ok (none, values)
  | some (.given n) => if n ≤ most then .ok (some n, values) else .error tooLarge
  | some .taken =>
    match values.next with
    | .error fault => .error fault
    | .ok (value, values) =>
      match wholeOf? value with
      | none => .error .extentNotWhole
      | some n => if n ≤ most then .ok (some n, values) else .error tooLarge

def fillPlace (place : Place) (values : Values) : Except FillFault (Text × Values) := do
  let values ← values.select place.name
  let (width, values) ← takeExtent values mostWidth .widthTooLarge place.width
  let (precision, values) ← takeExtent values mostPrecision .precisionTooLarge place.precision
  match place.kind with
  | none => .error .incomplete
  | some kind =>
    let (value, values) ← values.next
    let filling ← fillKind place (precision.map Int.toNat) kind value
    let width := width.getD 0
    .ok (pad ('-' ∈ place.flags || width < 0) ('0' ∈ place.flags) width.natAbs filling, values)

def fillPieces (values : Values) : List Piece → Except FillFault Text
  | [] => if values.names.isNone ∧ values.left ≠ [] then .error .tooManyValues else .ok []
  | .literal text :: pieces => (fillPieces values pieces).map (text ++ ·)
  | .unclosedName :: _ =>
    .error (if values.names.isNone then .needsNames else .unclosedName)
  | .place place :: pieces =>
    match fillPlace place values with
    | .error fault => .error fault
    | .ok (text, values) => (fillPieces values pieces).map (text ++ ·)

def fillNamed (pattern : Text) (members : Json.Members) : Except FillFault Text :=
  fillPieces ⟨some members, [.object members]⟩ (pieces pattern)

/-- A pattern filled by values in order. Without any values it stands as it is; a single object that
is not empty gives its members by name. -/
def fill (pattern : Text) (values : List Json) : Except FillFault Text :=
  match values with
  | [] => .ok pattern
  | [.object (member :: members)] => fillNamed pattern (member :: members)
  | values => fillPieces ⟨none, values⟩ (pieces pattern)

end RazorVash.Pattern
