import RazorVash.Text.Count
import RazorVash.Text.Excerpt

namespace RazorVash

inductive BlockFault
  | noCloser
  | unclosed (missing : Nat)
  | noBody
  | startOutside
deriving DecidableEq, Repr

/-- A block that cannot be closed, with the text from its body on. -/
structure MalformedBlock where
  fault : BlockFault
  source : Text
deriving DecidableEq, Repr

def BlockFault.message : BlockFault → Text
  | noCloser => "Block has no closing brace".toList
  | unclosed missing =>
    "Block is missing ".toList ++ Text.ofNat missing ++ " closing brace(s)".toList
  | noBody => "@foreach has no opening brace".toList
  | startOutside => "string index out of range".toList

namespace MalformedBlock

def message (e : MalformedBlock) : Text := e.fault.message

def excerpt (e : MalformedBlock) : Text := e.source.excerpt

end MalformedBlock

namespace Brace

/-- The offset of the brace that closes the current block, `depth` further blocks being open inside
it; failing that, the number of closing braces missing at the end. -/
def closerOffset : (depth : Nat) → Text → Except Nat Nat
  | depth, [] => .error (depth + 1)
  | depth, c :: text =>
    if c = '{' then (closerOffset (depth + 1) text).map (· + 1)
    else if c = '}' then
      match depth with
      | 0 => .ok 0
      | depth + 1 => (closerOffset depth text).map (· + 1)
    else (closerOffset depth text).map (· + 1)

/-- The index of the brace that closes the block whose body begins at `start`. A negative start
counts from the end, and the search then goes on from the beginning of the text, with the indexes
-1 and 0 next to each other. -/
def findMatchingClose (text : Text) (start : Int) : Except MalformedBlock Int :=
  let body := text.sliceFrom start
  if '}' ∉ body then .error ⟨.noCloser, body⟩
  else if start < -text.length then .error ⟨.startOutside, body⟩
  else
    match closerOffset 0 (if start < 0 then body ++ text else body) with
    | .ok offset => .ok (start + offset)
    | .error missing => .error ⟨.unclosed missing, body⟩

/-- Every closing brace up to the one that closes the block becomes the placeholder. -/
def replaceClosers (text placeholder : Text) : Except MalformedBlock Text := do
  let close ← findMatchingClose text 0
  return Text.replaceAll ['}'] placeholder (text.slice 0 (close + 1)) ++ text.sliceFrom (close + 1)

/-- The brace that closes the block becomes the placeholder, unless it is the first closing brace of
the text. -/
def replaceOuterCloser (text placeholder : Text) : Except MalformedBlock Text := do
  let close ← findMatchingClose text 0
  if close = text.idxOf '}' then return text
  else return text.slice 0 close ++ placeholder ++ text.sliceFrom (close + 1)

/-- The text with the end of the block whose body begins at `start` marked, and the index of the
mark. All closing braces of the block are replaced first; then all placeholders but the last one
become closing braces. -/
def markMatchingClose (text : Text) (start : Int) (placeholder : Text) :
    Except MalformedBlock (Text × Int) := do
  let close ← findMatchingClose text start
  let replaced ← replaceClosers (text.slice start (close + 1)) placeholder
  let block := Text.replaceAllButLast placeholder ['}'] replaced
  return (text.slice 0 start ++ block ++ text.sliceFrom (close + 1),
    start + block.length - placeholder.length)

theorem count_replaceClosers_le {text placeholder replaced : Text} {c : Char}
    (hp : c ∉ placeholder) (h : replaceClosers text placeholder = .ok replaced) :
    replaced.count c ≤ text.count c := by
  unfold replaceClosers at h
  cases hf : findMatchingClose text 0 with
  | error e => simp [hf, bind, Except.bind] at h
  | ok close =>
    simp only [hf, bind, Except.bind, pure, Except.pure, Except.ok.injEq] at h
    rw [← h, List.count_append]
    have := Text.count_replaceAll_le hp ['}'] (text.slice 0 (close + 1))
    have := Text.count_slice_zero_add_sliceFrom text c (close + 1)
    omega

/-- Marking the end of a block that begins with the text adds no opening brace. -/
theorem count_openers_markMatchingClose {body placeholder marked : Text} {i : Int}
    (hp : '{' ∉ placeholder) (h : markMatchingClose body 0 placeholder = .ok (marked, i)) :
    marked.count '{' ≤ body.count '{' := by
  unfold markMatchingClose at h
  cases hf : findMatchingClose body 0 with
  | error e => simp [hf, bind, Except.bind] at h
  | ok close =>
    cases hr : replaceClosers (body.slice 0 (close + 1)) placeholder with
    | error e => simp [hf, hr, bind, Except.bind] at h
    | ok replaced =>
      simp only [hf, hr, bind, Except.bind, pure, Except.pure, Except.ok.injEq,
        Prod.mk.injEq] at h
      have h₀ : body.slice 0 0 = [] := by simp [Text.slice, Text.place]
      rw [← h.1, h₀, List.nil_append, List.count_append]
      have := Text.count_replaceAllButLast_le (show '{' ∉ ['}'] by decide) placeholder replaced
      have := count_replaceClosers_le hp hr
      have := Text.count_slice_zero_add_sliceFrom body '{' (close + 1)
      omega

end Brace

end RazorVash
