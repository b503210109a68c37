import RazorVash.Block.Brace

namespace RazorVash.LogicBlock

structure Placeholders where
  opener : Text
  closer : Text
deriving DecidableEq, Repr

def Placeholders.standard : Placeholders where
  opener := "++VASH_LOGIC_OPEN++".toList
  closer := "++VASH_LOGIC_CLOSE++".toList

def opener : Text := ['@', '{']

/-- Delimits at most `limit` blocks, in text order; gives nothing when blocks are left after that.
A block inside another one comes after it, because only the text after its opener has changed. -/
def protectWithin (marks : Placeholders) : (limit : Nat) → Text → Option (Except MalformedBlock Text)
  | limit, text =>
    match Text.cut? opener text with
    | none => some (.ok text)
    | some (before, body) =>
      match limit with
      | 0 => none
      | limit + 1 =>
        match Brace.markMatchingClose body 0 marks.closer with
        | .error e => some (.error e)
        | .ok (marked, _) =>
          (protectWithin marks limit marked).map (·.map (before ++ marks.opener ++ ·))

/-- Every inline-logic block delimited by placeholders. Each block takes one brace out of the text
after it unless the closing placeholder brings braces back, and a text keeps as it is when
placeholders bring back blocks without end. -/
def protect (marks : Placeholders) (text : Text) : Except MalformedBlock Text :=
  (protectWithin marks text.length text).getD (.ok text)

def restore (marks : Placeholders) (text : Text) : Text :=
  Text.replaceAll marks.closer ['}'] (Text.replaceAll marks.opener opener text)

end RazorVash.LogicBlock
