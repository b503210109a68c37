import RazorVash.Text.Basic

/-!
Patterns: text with places to be filled, each marked by a percent sign; two percent signs stand for
one. Reading a pattern never fails: places that are cut off stay among the pieces, and are refused
only when they are reached.
-/
namespace RazorVash.Pattern

inductive Extent
  | given (n : Nat)
  | taken
deriving DecidableEq, Repr

/-- A place to be filled. Its kind is missing where the pattern ends too early. -/
structure Place where
  name : Option Text
  flags : Text
  width : Option Extent
  precision : Option Extent
  kind : Option Char
  /-- Where the kind stands in the pattern. -/
  index : Nat
deriving DecidableEq, Repr

inductive Piece
  | literal (text : Text)
  | place (place : Place)
  | unclosedName
deriving DecidableEq, Repr

def isFlag (c : Char) : Bool := c = '-' || c = '+' || c = ' ' || c = '#' || c = '0'

/-- A name up to its closing bracket, given the brackets that are open inside it. -/
def readName (depth : Nat) : Text → Option (Text × Text)
  | [] => none
  | c :: text =>
    if c = ')' ∧ depth = 0 then some ([], text)
    else
      let depth := if c = '(' then depth + 1 else if c = ')' then depth - 1 else depth
      (readName depth text).map fun (name, rest) => (c :: name, rest)

def readExtent (text : Text) : Option Extent × Text :=
  match text with
  | '*' :: rest => (some .taken, rest)
  | _ =>
    let digits := text.takeWhile Char.isDigit
    if digits = [] then (none, text)
    else
      (some (.given (digits.foldl (fun n c => n * 10 + (c.toNat - '0'.toNat)) 0)),
        text.drop digits.length)

/-- A precision without a number is zero. -/
def readPrecision : Text → Option Extent × Text
  | '.' :: rest =>
    let (extent, rest) := readExtent rest
    (some (extent.getD (.given 0)), rest)
  | text => (none, text)

/-- Sizes of numbers may be told and mean nothing. -/
def skipSize : Text → Text
  | c :: text => if c = 'h' ∨ c = 'l' ∨ c = 'L' then text else c :: text
  | [] => []

def readPlace (length : Nat) (name : Option Text) (text : Text) : Place × Text :=
  let flags := text.takeWhile isFlag
  let (width, rest) := readExtent (text.drop flags.length)
  let (precision, rest) := readPrecision rest
  let rest := skipSize rest
  ({ name, flags, width, precision, kind := rest.head?, index := length - rest.length }, rest.tail)

theorem length_of_readName {depth : Nat} {text name rest : Text}
    (h : readName depth text = some (name, rest)) : rest.length ≤ text.length := by
  induction text generalizing depth name with
  | nil => simp [readName] at h
  | cons c text ih =>
    rw [readName] at h
    split at h
    · simp only [Option.some.injEq, Prod.mk.injEq] at h
      simp [← h.2]
    · simp only [Option.map_eq_some_iff] at h
      obtain ⟨⟨n, r⟩, hr, h⟩ := h
      simp only [Prod.mk.injEq] at h
      obtain ⟨rfl, rfl⟩ := h
      exact Nat.le_succ_of_le (ih hr)

theorem length_readExtent (text : Text) : (readExtent text).2.length ≤ text.length := by
  unfold readExtent
  split
  · simp
  · dsimp only
    split <;> simp

theorem length_readPrecision (text : Text) : (readPrecision text).2.length ≤ text.length := by
  unfold readPrecision
  split
  · next rest => exact Nat.le_succ_of_le (length_readExtent rest)
  · simp

theorem length_skipSize (text : Text) : (skipSize text).length ≤ text.length := by
  unfold skipSize
  split
  · split <;> simp
  · simp

theorem length_readPlace (length : Nat) (name : Option Text) (text : Text) :
    (readPlace length name text).2.length ≤ text.length := by
  have h₁ := length_readExtent (text.drop (text.takeWhile isFlag).length)
  have h₂ := length_readPrecision (readExtent (text.drop (text.takeWhile isFlag).length)).2
  have h₃ := length_skipSize
    (readPrecision (readExtent (text.drop (text.takeWhile isFlag).length)).2).2
  simp only [List.length_drop] at h₁
  simp only [readPlace, List.length_tail]
  omega

def piecesFrom (length : Nat) (text : Text) : List Piece :=
  match text with
  | [] => []
  | '%' :: '(' :: rest =>
    match _ : readName 0 rest with
    | none => [.unclosedName]
    | some (name, afterName) =>
      let read := readPlace length (some name) afterName
      .place read.1 :: piecesFrom length read.2
  | '%' :: '%' :: rest => .literal ['%'] :: piecesFrom length rest
  | '%' :: rest =>
    let read := readPlace length none rest
    .place read.1 :: piecesFrom length read.2
  | c :: rest =>
    .literal (c :: rest.takeWhile (· ≠ '%')) ::
      piecesFrom length (rest.drop (rest.takeWhile (· ≠ '%')).length)
termination_by text.length
decreasing_by
  · have h₁ := length_of_readName ‹_›
    have h₂ := length_readPlace length (some name) afterName
    simp only [List.length_cons]
    exact Nat.lt_of_le_of_lt (Nat.le_trans h₂ h₁) (by omega)
  · simp only [List.length_cons]
    omega
  · have h := length_readPlace length none rest
    simp only [List.length_cons]
    exact Nat.lt_succ_of_le h
  · simp only [List.length_cons, List.length_drop]
    omega

def pieces (pattern : Text) : List Piece := piecesFrom pattern.length pattern

end RazorVash.Pattern
