import RazorVash.Block.Logic
import RazorVash.Loop.Note

/-!
Loops `@foreach (…) { … }` rewritten as calls of the loop helper. Loops are taken in text order, an
outer loop before the loops in its body. A loop's header gives way to the opening of the call, its
own closing brace to a placeholder, and everything else stays. Each loop takes one opening brace
out of the text that is left (`count_openers_body`), so the rewriting ends on every text.
-/
namespace RazorVash

namespace Loop

def closePlaceholder : Text := "++VASH_LOOP_CLOSE++".toList

def callClose : Text := ['}', ')']

theorem opener_notMem_closePlaceholder : '{' ∉ closePlaceholder := by decide

def openerAt? (text : Text) : Option (Text × Text) :=
  match Text.after? "@foreach".toList text with
  | none => none
  | some rest =>
    match rest.dropWhile isBlank with
    | '(' :: after => some ("@foreach".toList ++ rest.takeWhile isBlank ++ ['('], after)
    | _ => none

/-- The text before the first loop, its opening, and the text after that. -/
def cutOpener? : Text → Option (Text × Text × Text)
  | [] => none
  | c :: text =>
    match openerAt? (c :: text) with
    | some (opener, rest) => some ([], opener, rest)
    | none => (cutOpener? text).map fun (before, rest) => (c :: before, rest)

def hasOpener (text : Text) : Bool := (cutOpener? text).isSome

/-- The header of a loop and the text from its body on. A header ends before the next loop. -/
def headerAndBody? (afterOpener : Text) : Option (Text × Text) :=
  match Text.cut? ['{'] afterOpener with
  | none => none
  | some (header, body) => if hasOpener header then none else some (header, body)

/-- The call that takes the place of a loop's header. -/
def callOpener (helpersName : Text) (header : LoopHeader) : Text :=
  '@' :: helpersName ++ ".foreach(".toList ++ header.iterable ++ ", function(".toList ++
    header.name ++ ") \x7b".toList

/-- A text under conversion as its author wrote it. -/
def asWritten (marks : LogicBlock.Placeholders) (text : Text) : Text :=
  LogicBlock.restore marks (Text.replaceAll closePlaceholder ['}'] text)

theorem openerAt?_eq_some {text opener rest : Text} (h : openerAt? text = some (opener, rest)) :
    text = opener ++ rest := by
  unfold openerAt? at h
  split at h
  · cases h
  · next after ha =>
    rw [Text.after?_eq_some.1 ha]
    split at h
    · next tail ht =>
      simp only [Option.some.injEq, Prod.mk.injEq] at h
      obtain ⟨rfl, rfl⟩ := h
      have := List.takeWhile_append_dropWhile (p := isBlank) (l := after)
      rw [ht] at this
      simpa using this.symm
    · cases h

theorem cutOpener?_eq_some {text before opener rest : Text}
    (h : cutOpener? text = some (before, opener, rest)) : text = before ++ opener ++ rest := by
  induction text generalizing before with
  | nil => simp [cutOpener?] at h
  | cons c text ih =>
    rw [cutOpener?] at h
    split at h
    · next o r ho =>
      simp only [Option.some.injEq, Prod.mk.injEq] at h
      obtain ⟨rfl, rfl, rfl⟩ := h
      simpa using openerAt?_eq_some ho
    · simp only [Option.map_eq_some_iff] at h
      obtain ⟨⟨b, o, r⟩, hb, h⟩ := h
      simp only [Prod.mk.injEq] at h
      obtain ⟨rfl, rfl, rfl⟩ := h
      simp [ih hb]

theorem count_openers_body {text before opener rest header body : Text}
    (h₁ : cutOpener? text = some (before, opener, rest))
    (h₂ : headerAndBody? rest = some (header, body)) : body.count '{' < text.count '{' := by
  unfold headerAndBody? at h₂
  split at h₂
  · cases h₂
  · next hd bd hc =>
    split at h₂
    · cases h₂
    · simp only [Option.some.injEq, Prod.mk.injEq] at h₂
      obtain ⟨rfl, rfl⟩ := h₂
      rw [cutOpener?_eq_some h₁, Text.cut?_eq_some hc]
      simp only [List.count_append, List.count_singleton_self]
      omega

/-- Every loop of a text whose logic blocks are protected, its end marked by a placeholder. -/
def rewrite (helpersName : Text) (marks : LogicBlock.Placeholders) (text : Text) : Noted Text :=
  match _ : cutOpener? text with
  | none => .ok text
  | some (before, opener, rest) =>
    let source := asWritten marks (opener ++ rest)
    match _ : headerAndBody? rest with
    | none => .fail (.block ⟨.noBody, source⟩)
    | some (headerText, body) =>
      (LoopHeader.read headerText source).bind fun header =>
        match _ : Brace.markMatchingClose body 0 closePlaceholder with
        | .error e => .fail (.block { e with source })
        | .ok (marked, _) =>
          ((rewrite helpersName marks marked).map (before ++ callOpener helpersName header ++ ·)).noting
            (.rewroteLoop header)
termination_by text.count '{'
decreasing_by
  exact Nat.lt_of_le_of_lt (Brace.count_openers_markMatchingClose opener_notMem_closePlaceholder ‹_›)
    (count_openers_body ‹_› ‹_›)

def convert (helpersName : Text) (marks : LogicBlock.Placeholders) (text : Text) : Noted Text :=
  if hasOpener text then
    (Noted.ofExcept ((LogicBlock.protect marks text).mapError .block)).bind fun guarded =>
      (rewrite helpersName marks guarded).map fun converted =>
        LogicBlock.restore marks (Text.replaceAll closePlaceholder callClose converted)
  else .ok text

end Loop

end RazorVash
