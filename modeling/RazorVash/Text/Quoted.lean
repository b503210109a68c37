import RazorVash.Text.Printable

namespace RazorVash.Text

/-- Single quotes, unless the text holds one and no double quote. -/
def quoteFor (text : Text) : Char := if '\'' ∈ text ∧ '"' ∉ text then '"' else '\''

def escapePoint (n : Nat) : Text :=
  if n < 0x100 then "\\x".toList ++ hex 2 n
  else if n < 0x10000 then "\\u".toList ++ hex 4 n
  else "\\U".toList ++ hex 8 n

def escapeFor (quote : Char) (c : Char) : Text :=
  if c = quote ∨ c = '\\' then ['\\', c]
  else if c = '\t' then "\\t".toList
  else if c = '\n' then "\\n".toList
  else if c = '\r' then "\\r".toList
  else if isPrintable c then [c]
  else escapePoint c.toNat

def quoted (text : Text) : Text :=
  let quote := text.quoteFor
  quote :: text.flatMap (escapeFor quote) ++ [quote]

end RazorVash.Text
