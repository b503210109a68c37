namespace RazorVash

/-- Every position and length counts code points. -/
abbrev Text := List Char

namespace Text

/-- What follows `start` in a text that begins with it. -/
def after? : (start text : Text) → Option Text
  | [], text => some text
  | _ :: _, [] => none
  | s :: start, c :: text => if s = c then after? start text else none

/-- The text before and the text after the first occurrence of `mark`. -/
def cut? (mark : Text) : Text → Option (Text × Text)
  | [] => (after? mark []).map ([], ·)
  | c :: text =>
    match after? mark (c :: text) with
    | some rest => some ([], rest)
    | none => (cut? mark text).map fun (before, rest) => (c :: before, rest)

/-- The text before and the text after the last occurrence of `mark`. -/
def cutLast? (mark : Text) : Text → Option (Text × Text)
  | [] => (after? mark []).map ([], ·)
  | c :: text =>
    match cutLast? mark text with
    | some (before, rest) => some (c :: before, rest)
    | none => (after? mark (c :: text)).map ([], ·)

def contains (mark text : Text) : Bool := (cut? mark text).isSome

theorem after?_eq_some {start text rest : Text} :
    after? start text = some rest ↔ text = start ++ rest := by
  induction start generalizing text with
  | nil => simp [after?, eq_comm]
  | cons s start ih =>
    cases text with
    | nil => simp [after?]
    | cons c text =>
      by_cases h : s = c
      · subst h; simp [after?, ih]
      · simp [after?, h, Ne.symm h]

theorem cut?_eq_some {mark text before rest : Text} (h : cut? mark text = some (before, rest)) :
    text = before ++ mark ++ rest := by
  induction text generalizing before with
  | nil =>
    simp only [cut?, Option.map_eq_some_iff] at h
    obtain ⟨r, hr, h⟩ := h
    simp only [Prod.mk.injEq] at h
    simpa [← h.1, ← h.2] using after?_eq_some.1 hr
  | cons c text ih =>
    rw [cut?] at h
    split at h
    · next r hr =>
      simp only [Option.some.injEq, Prod.mk.injEq] at h
      simpa [← h.1, ← h.2] using after?_eq_some.1 hr
    · simp only [Option.map_eq_some_iff] at h
      obtain ⟨⟨b, r⟩, hbr, h⟩ := h
      simp only [Prod.mk.injEq] at h
      obtain ⟨rfl, rfl⟩ := h
      simp [ih hbr]

theorem length_lt_of_cut? {mark text before rest : Text} (hm : mark ≠ [])
    (h : cut? mark text = some (before, rest)) : rest.length < text.length := by
  have hl := congrArg List.length (cut?_eq_some h)
  have := List.length_pos_iff.2 hm
  simp only [List.length_append] at hl
  omega

/-- Every occurrence of `old`, from the left and without overlap, becomes `new`. The empty text
occurs before every character and at the end. -/
def replaceAll (old new text : Text) : Text :=
  if _ : old = [] then new ++ text.flatMap (· :: new)
  else
    match _ : cut? old text with
    | none => text
    | some (before, rest) => before ++ new ++ replaceAll old new rest
termination_by text.length
decreasing_by exact length_lt_of_cut? ‹_› ‹_›

def replaceAllButLast (token replacement text : Text) : Text :=
  match cutLast? token text with
  | none => text
  | some (before, rest) => replaceAll token replacement before ++ token ++ rest

/-- The parts of a text between the occurrences of a mark; the empty mark separates nothing. -/
def splitAt (mark text : Text) : List Text :=
  if _ : mark = [] then [text]
  else
    match _ : cut? mark text with
    | none => [text]
    | some (before, rest) => before :: splitAt mark rest
termination_by text.length
decreasing_by exact length_lt_of_cut? ‹_› ‹_›

/-- The text after the last separator, or all of it. -/
def afterLast (separator : Char) (text : Text) : Text :=
  (text.reverse.takeWhile (· ≠ separator)).reverse

def isOneOf (words : List Text) (word : Text) : Bool := words.any (· = word)

def join (separator : Text) (parts : List Text) : Text := separator.intercalate parts

/-- The place that an index names: a negative one counts from the end, and every index is brought
into the text. -/
def place (text : Text) (index : Int) : Nat :=
  if index < 0 then (text.length + index).toNat else min index.toNat text.length

def slice (text : Text) (start stop : Int) : Text :=
  (text.take (text.place stop)).drop (text.place start)

def sliceFrom (text : Text) (start : Int) : Text := text.drop (text.place start)

def ofNat (n : Nat) : Text := Nat.toDigits 10 n

def ofInt (i : Int) : Text := if i < 0 then '-' :: ofNat i.natAbs else ofNat i.natAbs

def hex (width n : Nat) : Text :=
  let digits := Nat.toDigits 16 n
  List.replicate (width - digits.length) '0' ++ digits

def decimal (width n : Nat) : Text :=
  let digits := ofNat n
  List.replicate (width - digits.length) '0' ++ digits

/-- Upper case of the ASCII letters and of the two other letters whose upper case is an ASCII
letter. -/
def upperAscii (text : Text) : Text :=
  text.map fun c => if c = 'ı' then 'I' else if c = 'ſ' then 'S' else c.toUpper

def lowerAscii (text : Text) : Text := text.map Char.toLower

end Text

end RazorVash
