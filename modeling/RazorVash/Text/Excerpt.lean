import RazorVash.Text.Blank

namespace RazorVash.Text

def excerptLength : Nat := 60

/-- The words of a text on one line, cut off after `length` characters. A negative length leaves
that many characters out at the end. -/
def excerptWithin (length : Int) (text : Text) : Text :=
  let flat := join [' '] text.words
  if flat.length ≤ length then flat else (flat.slice 0 length).trimEnd ++ "...".toList

def excerpt (text : Text) : Text := text.excerptWithin excerptLength

end RazorVash.Text
