import RazorVash.CSharp.Lexeme
import RazorVash.Text.Excerpt
import RazorVash.Text.Quoted

namespace RazorVash

structure LoopHeader where
  name : Text
  iterable : Text
  declared : Bool
deriving DecidableEq, Repr

inductive HeaderFault
  | missingIn
  | missingParenthesis
  | missingIterable
deriving DecidableEq, Repr

def HeaderFault.reason : HeaderFault → Text
  | missingIn => "missing 'in' keyword".toList
  | missingParenthesis => "missing closing parenthesis".toList
  | missingIterable => "missing iterable expression".toList

namespace LoopHeader

def inKeyword : Text := "in".toList

def defaultVariable : Text := "item".toList

/-- An optional `@`, an ASCII letter or underscore, and word characters. -/
def isVariableName : Text → Bool
  | '@' :: c :: rest => (c.isAlpha || c = '_') && rest.all isWord
  | c :: rest => (c.isAlpha || c = '_') && rest.all isWord
  | [] => false

def splitAtIn (lexemes : List Text) : List Text × Option (List Text) :=
  match lexemes with
  | [] => ([], none)
  | lexeme :: rest =>
    if lexeme = inKeyword then ([], some rest)
    else
      let (before, after) := splitAtIn rest
      (lexeme :: before, after)

/-- What the lexemes before `in` say, without blanks and closing parentheses. -/
def declaration (lexemes : List Text) : List Text :=
  lexemes.filter fun lexeme => !lexeme.allBlank && lexeme ≠ [')']

/-- The loop variable and whether it was declared: a name after something else is declared, and a
name alone is used all the same. -/
def variableOf (declaration : List Text) : Text × Bool :=
  match declaration with
  | [] => (defaultVariable, false)
  | [name] => (if isVariableName name then name else defaultVariable, false)
  | _ :: next :: more =>
    let last := (next :: more).getLast (List.cons_ne_nil next more)
    if isVariableName last then (last, true) else (defaultVariable, false)

def iterableOf (afterIn : Option Text) : Except HeaderFault Text :=
  match afterIn with
  | none => .error .missingIn
  | some text =>
    match Text.cutLast? [')'] text with
    | none => .error .missingParenthesis
    | some (expression, _) =>
      if expression.allBlank then .error .missingIterable else .ok expression.trim

def parse (header : Text) : (Text × Bool) × Except HeaderFault Text :=
  let (before, after) := splitAtIn (CSharp.lexemes header)
  (variableOf (declaration before), iterableOf (after.map List.flatten))

end LoopHeader

end RazorVash
