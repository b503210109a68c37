import RazorVash.Text.Blank
import RazorVash.Text.Digit

namespace RazorVash.Text

inductive Chunk
  | space
  | dash
  | word
deriving DecidableEq, Repr

def touchesDash (c : Char) : Bool := isWord c || c ∈ "!\"'&.,?".toList

/-- Two hyphens or more with a word behind them. -/
def startsDash (text : Text) : Bool :=
  let hyphens := text.takeWhile (· = '-')
  2 ≤ hyphens.length &&
    match text.drop hyphens.length with
    | c :: _ => isWord c
    | [] => false

/-- Whether a dash between words begins, given the text before in reverse. -/
def meetsDash (before text : Text) : Bool :=
  match before with
  | c :: _ => touchesDash c && startsDash text
  | [] => false

/-- The kind of the chunk that begins with a text. -/
def chunkAt (before text : Text) : Chunk :=
  match text with
  | ' ' :: _ => .space
  | _ => if meetsDash before text then .dash else .word

def startsWithLetters : Text → Bool
  | a :: '-' :: b :: _ => isWordLetter a && isWordLetter b
  | a :: b :: _ => isWordLetter a && isWordLetter b
  | _ => false

def endsWithHyphen : Text → Bool
  | '-' :: a :: '-' :: b :: _ => isWordLetter a && isWordLetter b
  | '-' :: a :: b :: _ => isWordLetter a && isWordLetter b
  | _ => false

/-- Whether a chunk ends between a text, given in reverse, and the next one. -/
def chunkEnds (kind : Chunk) (length : Nat) (before text : Text) : Bool :=
  match kind with
  | .space => text.head? ≠ some ' '
  | .dash => text.head? ≠ some '-'
  | .word => text.head? = some ' ' || meetsDash before text ||
      (2 ≤ length && endsWithHyphen before && startsWithLetters text)

/-- The chunks of a text; the first one goes on from what is given in reverse. -/
def chunksFrom (before : Text) (kind : Chunk) (current : Text) : Text → List Text
  | [] => [current.reverse]
  | c :: text =>
    if chunkEnds kind current.length before (c :: text) then
      current.reverse :: chunksFrom (c :: before) (chunkAt before (c :: text)) [c] text
    else chunksFrom (c :: before) kind (c :: current) text

def chunks : Text → List Text
  | [] => []
  | c :: text => chunksFrom [c] (chunkAt [] (c :: text)) [c] text

def fitting (room : Nat) : List Text → List Text × List Text
  | [] => ([], [])
  | chunk :: chunks =>
    if chunk.length ≤ room then
      let (line, left) := fitting (room - chunk.length) chunks
      (chunk :: line, left)
    else ([], chunk :: chunks)

/-- Where a chunk that is too long for any line is cut: after its last hyphen in the room, if
something else than hyphens stands before it. -/
def cutWithin (room : Nat) (chunk : Text) : Nat :=
  match cutLast? ['-'] (chunk.take room) with
  | some (before, _) => if before.any (· ≠ '-') then before.length + 1 else room
  | none => room

def takeLine (width : Nat) (chunks : List Text) : List Text × List Text :=
  match fitting width chunks with
  | (line, chunk :: left) =>
    if chunk.length ≤ width then (line, chunk :: left)
    else
      let cut := cutWithin (width - line.flatten.length) chunk
      (line ++ [chunk.take cut], chunk.drop cut :: left)
  | (line, []) => (line, [])

def withoutLastBlank (line : List Text) : List Text :=
  match line.getLast? with
  | some chunk => if chunk.allBlank then line.dropLast else line
  | none => line

def withoutFirstBlank : List Text → List Text
  | chunk :: chunks => if chunk.allBlank then chunks else chunk :: chunks
  | [] => []

def linesFrom (width : Nat) : (count : Nat) → List Text → List Text
  | 0, _ | _ + 1, [] => []
  | count + 1, chunks =>
    let (line, left) := takeLine width chunks
    let rest := linesFrom width count (withoutFirstBlank left)
    match withoutLastBlank line with
    | [] => rest
    | line => line.flatten :: rest

/-- A paragraph in lines of a width that is not zero. Each line takes at least one character, so
there are no more lines than characters. -/
def wrap (width : Nat) (text : Text) : List Text :=
  linesFrom width text.length (chunks text)

end RazorVash.Text
