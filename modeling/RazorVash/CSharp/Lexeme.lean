import RazorVash.CSharp.Literal
import RazorVash.Text.Blank
import RazorVash.Text.Word

/-!
The lexemes of C# text. A reading of the beginning of a text only tells lengths, and the lexemes are
cut out of the text by them, so that the lexemes of a text put together are the text again,
whatever the text is (`flatten_lexemes`).
-/
namespace RazorVash.CSharp

/-- What the reader expects: after `class`, `struct` and `union` the name of a type, after
`namespace` and `using` the name of a namespace. -/
inductive Mode
  | root
  | typeName
  | namespaceName
deriving DecidableEq, Repr

/-- The beginning of a text by the lengths of its parts. The types in front of a declared name are
read on their own, as a text that begins a line. -/
inductive Reading
  | lexemes (lengths : List Nat) (next : Mode)
  | declaration (indent types name gap : Nat)
deriving DecidableEq, Repr

def operators : List Text := [">>>=", ">>=", "<<=", "<=", ">=", "+=", "-=", "*=", "/=", "%=", "&=",
  "|=", "^=", "??=", "=>", "??", "?.", "!=", "==", "&&", "||", ">>>", ">>", "<<", "++", "--", "+",
  "-", "*", "/", "%", "&", "|", "^", "<", ">", "?", "!", "~", "="].map String.toList

def keywords : List Text := ["abstract", "as", "async", "await", "base", "break", "by", "case",
  "catch", "checked", "const", "continue", "default", "delegate", "do", "else", "enum", "event",
  "explicit", "extern", "false", "finally", "fixed", "for", "foreach", "goto", "if", "implicit",
  "in", "interface", "internal", "is", "let", "lock", "new", "null", "on", "operator", "out",
  "override", "params", "private", "protected", "public", "readonly", "ref", "return", "sealed",
  "sizeof", "stackalloc", "static", "switch", "this", "throw", "true", "try", "typeof",
  "unchecked", "unsafe", "virtual", "void", "while", "get", "set", "partial", "yield", "add",
  "remove", "value", "alias", "ascending", "descending", "from", "group", "into", "orderby",
  "select", "thenby", "where", "join", "equals", "record", "allows", "and", "init", "managed",
  "nameof", "nint", "not", "notnull", "nuint", "or", "scoped", "unmanaged", "when",
  "with"].map String.toList

def typeNames : List Text := ["bool", "byte", "char", "decimal", "double", "dynamic", "float",
  "int", "long", "object", "sbyte", "short", "string", "uint", "ulong", "ushort",
  "var"].map String.toList

def directives : List Text := ["if", "endif", "else", "elif", "define", "undef", "line", "error",
  "warning", "region", "endregion", "pragma"].map String.toList

def fileScoped : List Text := ["record", "class", "abstract", "enum", "new", "sealed",
  "static"].map String.toList

def wordAt (text : Text) : Text := text.takeWhile isWord

def blankLength (text : Text) : Nat := runLength isBlank text

/-- An identifier, brackets of an array type perhaps, and blanks. -/
def typeLength? (text : Text) : Option Nat :=
  match identifierLength? text with
  | none => none
  | some n =>
    let brackets := if (Text.after? ['[', ']'] (text.drop n)).isSome then 2 else 0
    let blanks := blankLength (text.drop (n + brackets))
    if blanks = 0 then none else some (n + brackets + blanks)

def methodName? (text : Text) : Option (Nat × Nat) :=
  match identifierLength? text with
  | none => none
  | some n =>
    let gap := blankLength (text.drop n)
    if beginsWithAny ['('] (text.drop (n + gap)) then some (n, gap) else none

/-- Types and then the name of a method: the lengths of the types, the name and the gap. -/
def methodHead? (text : Text) : Option (Nat × Nat × Nat) :=
  match typeLength? text with
  | none => none
  | some n =>
    match methodName? (text.drop n) with
    | some (name, gap) => some (n, name, gap)
    | none =>
      if _ : (text.drop n).length < text.length then
        (methodHead? (text.drop n)).map fun (types, rest) => (n + types, rest)
      else none
termination_by text.length
decreasing_by assumption

def declaration? (text : Text) : Option Reading :=
  let indent := runLength (fun c => c = ' ' || c = '\t') text
  (methodHead? (text.drop indent)).map fun (types, name, gap) =>
    .declaration indent types name gap

/-- An attribute in brackets at the beginning of a line, blanks before it. -/
def attribute? (text : Text) : Option (List Nat) :=
  let blanks := blankLength text
  if beginsWithAny ['['] (text.drop blanks) then
    (Text.cut? [']'] (text.drop (blanks + 1))).map fun (body, _) => [blanks, body.length + 2]
  else none

def operatorLength? (text : Text) : Option Nat :=
  (operators.find? fun op => (Text.after? op text).isSome).map List.length

def directive? (text : Text) : Option (List Nat) :=
  if beginsWithAny ['#'] text then
    let gap := runLength (fun c => c = ' ' || c = '\t') (text.drop 1)
    let word := wordAt (text.drop (1 + gap))
    if Text.isOneOf directives word then
      (Text.cut? ['\n'] (text.drop (1 + gap + word.length))).map fun (body, _) =>
        [1, gap, word.length, body.length, 1]
    else none
  else none

/-- The word `first`, blanks and one of the words `second`. -/
def wordPair? (first : Text) (second : List Text) (text : Text) : Option (List Nat) :=
  if wordAt text = first then
    let gap := blankLength (text.drop first.length)
    let word := wordAt (text.drop (first.length + gap))
    if gap ≠ 0 ∧ Text.isOneOf second word then some [first.length, gap, word.length] else none
  else none

def announcement? (words : List Text) (text : Text) : Option (List Nat) :=
  let word := wordAt text
  let gap := blankLength (text.drop word.length)
  if Text.isOneOf words word ∧ gap ≠ 0 then some [word.length, gap] else none

def typeNameLength? (text : Text) : Option Nat :=
  let word := wordAt text
  if Text.isOneOf typeNames word then
    some (word.length + if beginsWithAny ['?'] (text.drop word.length) then 1 else 0)
  else none

/-- What stands for itself: blanks, comments, operators, punctuation, strings, characters. -/
def symbolLength? (text : Text) : Option Nat :=
  let blanks := runLength (fun c => isBlank c && c ≠ '\n') text
  if blanks ≠ 0 then some blanks
  else if (Text.after? ['\\', '\n'] text).isSome then some 2
  else
    lineCommentLength? text <|> blockCommentLength? text <|>
    (if beginsWithAny ['\n'] text then some 1 else none) <|>
    operatorLength? text <|>
    (if beginsWithAny "()[];:,.\x7b\x7d".toList text then some 1 else none) <|>
    rawStringLength? text <|> quotedLength? text <|> characterLength? text

def isLineStart (before : Option Char) : Bool := before = none ∨ before = some '\n'

/-- Keywords and names; `extern alias` is only read as a pair at the beginning of a word. -/
def word? (before : Option Char) (text : Text) : Option Reading :=
  let whole (n : Nat) : Reading := .lexemes [n] .root
  (if (before.map isWord).getD false then none
    else (wordPair? "extern".toList ["alias".toList] text).map (Reading.lexemes · .root)) <|>
  (if Text.isOneOf keywords (wordAt text) then some (whole (wordAt text).length) else none) <|>
  (wordPair? "file".toList fileScoped text).map (Reading.lexemes · .root) <|>
  (if (Text.after? "global::".toList text).isSome then some (.lexemes [6, 2] .root) else none) <|>
  (typeNameLength? text).map whole <|>
  (announcement? ["class".toList, "struct".toList, "union".toList] text).map
    (Reading.lexemes · .typeName) <|>
  (announcement? ["namespace".toList, "using".toList] text).map (Reading.lexemes · .namespaceName) <|>
  (identifierLength? text).map whole

/-- A character that begins nothing is a lexeme of its own. -/
def rootReading (before : Option Char) (text : Text) : Reading :=
  let whole (n : Nat) : Reading := .lexemes [n] .root
  ((numberLength? text).map whole <|>
    (if isLineStart before then
      declaration? text <|> (attribute? text).map (Reading.lexemes · .root)
     else none) <|>
    (symbolLength? text).map whole <|>
    (directive? text).map (Reading.lexemes · .root) <|>
    word? before text).getD (whole 1)

def namespaceNameLength (text : Text) : Nat :=
  let n := if beginsWithAny ['.'] text then 1 else (identifierLength? text).getD 0
  if _ : (text.drop n).length < text.length then n + namespaceNameLength (text.drop n) else 0
termination_by text.length
decreasing_by assumption

def reading (mode : Mode) (before : Option Char) (text : Text) : Reading :=
  match mode with
  | .root => rootReading before text
  | .typeName =>
    match identifierLength? text with
    | some n => .lexemes [n] .root
    | none => rootReading before text
  | .namespaceName =>
    if beginsWithAny ['('] text then rootReading before text
    else
      match namespaceNameLength text with
      | 0 => .lexemes [1] (if beginsWithAny ['\n'] text then .root else .namespaceName)
      | n => .lexemes [n] .root

def total (lengths : List Nat) : Nat := lengths.foldr (fun n sum => n + sum) 0

def cutInto : List Nat → Text → List Text
  | [], _ => []
  | n :: lengths, text => text.take n :: cutInto lengths (text.drop n)

def lexemesFrom (mode : Mode) (before : Option Char) (text : Text) : List Text :=
  match text with
  | [] => []
  | c :: rest =>
    match reading mode before (c :: rest) with
    | .lexemes lengths next =>
      if total lengths = 0 then [c] :: lexemesFrom mode (some c) rest
      else
        cutInto lengths (c :: rest) ++
          lexemesFrom next ((c :: rest).take (total lengths)).getLast? ((c :: rest).drop (total lengths))
    | .declaration indent types name gap =>
      if types < (c :: rest).length then
        (c :: rest).take indent ::
          lexemesFrom .root none (((c :: rest).drop indent).take types) ++
          cutInto [name, gap, 1] ((c :: rest).drop (indent + types)) ++
          lexemesFrom .root (some '(') ((c :: rest).drop (indent + types + name + gap + 1))
      else [c] :: lexemesFrom mode (some c) rest
termination_by text.length
decreasing_by all_goals simp only [List.length_cons, List.length_drop, List.length_take] at *; omega

/-- The lexemes of a text; some may be empty. -/
def lexemes (text : Text) : List Text := lexemesFrom .root none text

theorem flatten_cutInto (lengths : List Nat) (text : Text) :
    (cutInto lengths text).flatten = text.take (total lengths) := by
  induction lengths generalizing text with
  | nil => rfl
  | cons n lengths ih =>
    rw [cutInto, List.flatten_cons, ih]
    exact List.take_add.symm

theorem flatten_lexemesFrom (mode : Mode) (before : Option Char) (text : Text) :
    (lexemesFrom mode before text).flatten = text := by
  fun_induction lexemesFrom mode before text with
  | case1 => rfl
  | case2 _ _ _ _ _ _ _ _ ih => simp [ih]
  | case3 _ _ _ _ _ _ _ _ ih => simp [ih, flatten_cutInto]
  | case4 _ _ c rest indent types name gap _ _ ih₁ ih₂ =>
    simp only [List.flatten_append, List.flatten_cons, ih₁, ih₂, flatten_cutInto]
    have h : ∀ t : Text, t = t.take indent ++ ((t.drop indent).take types ++
        ((t.drop (indent + types)).take (name + gap + 1) ++
          t.drop (indent + types + name + gap + 1))) := by
      intro t
      have h₁ : t.drop (indent + types + name + gap + 1) =
          (t.drop (indent + types)).drop (name + gap + 1) := by
        rw [List.drop_drop]; congr 1; omega
      rw [h₁, List.take_append_drop, ← List.drop_drop, List.take_append_drop,
        List.take_append_drop]
    have hTotal : total [name, gap, 1] = name + gap + 1 := by
      simp [total, Nat.add_assoc]
    rw [hTotal]
    simpa only [List.append_assoc, List.cons_append] using (h (c :: rest)).symm
  | case5 _ _ _ _ _ _ _ _ _ _ ih => simp [ih]

theorem flatten_lexemes (text : Text) : (lexemes text).flatten = text :=
  flatten_lexemesFrom .root none text

end RazorVash.CSharp
