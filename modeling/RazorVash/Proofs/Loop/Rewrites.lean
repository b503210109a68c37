import RazorVash.Proofs.Brace.Closer
import RazorVash.Proofs.Loop.Header
import RazorVash.Proofs.Loop.Opener

namespace RazorVash.Loop

/-- The first loop of a text taken apart, with the text that the pass goes on with. -/
structure Turn (text : Text) where
  before : Text
  opener : Text
  rest : Text
  headerText : Text
  body : Text
  header : LoopHeader
  marked : Text
  cut : cutOpener? text = some (before, opener, rest)
  split : headerAndBody? rest = some (headerText, body)
  parsed : LoopHeader.parse headerText = ((header.name, header.declared), .ok header.iterable)
  closed : ∃ i, Brace.markMatchingClose body 0 closePlaceholder = .ok (marked, i)

/-- The parts of a call between characters that are neither in an opener nor in a placeholder. -/
theorem callOpener_eq (helpersName : Text) (header : LoopHeader) :
    callOpener helpersName header = ('@' :: helpersName) ++ '.' :: (("foreach(".toList ++
      header.iterable) ++ ',' :: ((" function(".toList ++ header.name) ++ ')' :: [' ', '{'])) := by
  simp only [callOpener, List.append_assoc, List.cons_append]
  rfl

/-- A loop that is rewritten takes its opening brace out of what is left. -/
theorem count_left_lt {text before opener rest headerText body marked : Text} {i : Int}
    (hCut : cutOpener? text = some (before, opener, rest))
    (hSplit : headerAndBody? rest = some (headerText, body))
    (hMark : Brace.markMatchingClose body 0 closePlaceholder = .ok (marked, i)) :
    marked.count '{' < text.count '{' :=
  Nat.lt_of_le_of_lt
    (Brace.count_openers_markMatchingClose opener_notMem_closePlaceholder hMark)
    (count_openers_body hCut hSplit)

namespace Turn

variable {text : Text}

def notes (marks : LogicBlock.Placeholders) (t : Turn text) : List Note :=
  (if t.header.declared then []
    else [.undeclared t.header.name (asWritten marks (t.opener ++ t.rest))]) ++
    [.rewroteLoop t.header]

theorem eq (t s : Turn text) : t = s := by
  obtain ⟨before, opener, rest, headerText, body, header, marked, hCut, hSplit, hParsed, i, hMark⟩ := t
  obtain ⟨_, _, _, _, _, header', _, hCut', hSplit', hParsed', j, hMark'⟩ := s
  rw [hCut] at hCut'
  cases hCut'
  rw [hSplit] at hSplit'
  cases hSplit'
  rw [hMark] at hMark'
  cases hMark'
  rw [hParsed] at hParsed'
  have hHeader : header = header' := by
    cases header
    cases header'
    cases hParsed'
    rfl
  cases hHeader
  rfl

theorem mem_notes_iff {marks : LogicBlock.Placeholders} (t : Turn text) {header : LoopHeader} :
    .rewroteLoop header ∈ t.notes marks ↔ header = t.header := by
  rw [notes, List.mem_append, List.mem_singleton, Note.rewroteLoop.injEq]
  refine or_iff_right fun hm => ?_
  split at hm
  · cases hm
  · simp at hm

theorem count_marked_lt (t : Turn text) : t.marked.count '{' < text.count '{' := by
  obtain ⟨i, hi⟩ := t.closed
  exact count_left_lt t.cut t.split hi

end Turn

/-- The pass succeeds on a text with this outcome. -/
inductive Rewrites (helpersName : Text) (marks : LogicBlock.Placeholders) :
    Text → Text → List Note → Prop
  | done {text : Text} (h : cutOpener? text = none) : Rewrites helpersName marks text text []
  | turn {text out : Text} {notes : List Note} (t : Turn text)
      (h : Rewrites helpersName marks t.marked out notes) :
      Rewrites helpersName marks text (t.before ++ callOpener helpersName t.header ++ out)
        (t.notes marks ++ notes)

variable {helpersName text before opener rest out : Text} {marks : LogicBlock.Placeholders}
  {notes : List Note}

theorem rewrite_of_cutOpener?_eq_none (h : cutOpener? text = none) :
    rewrite helpersName marks text = .ok text := by
  rw [rewrite]
  split
  · rfl
  · next hs =>
    rw [h] at hs
    cases hs

/-- The pass at the first loop of a text. -/
theorem rewrite_of_cutOpener? (hCut : cutOpener? text = some (before, opener, rest)) :
    rewrite helpersName marks text =
      match headerAndBody? rest with
      | none => .fail (.block ⟨.noBody, asWritten marks (opener ++ rest)⟩)
      | some (headerText, body) =>
        (LoopHeader.read headerText (asWritten marks (opener ++ rest))).bind fun header =>
          match Brace.markMatchingClose body 0 closePlaceholder with
          | .error e => .fail (.block { e with source := asWritten marks (opener ++ rest) })
          | .ok (marked, _) =>
            ((rewrite helpersName marks marked).map
              (before ++ callOpener helpersName header ++ ·)).noting (.rewroteLoop header) := by
  rw [rewrite]
  split
  · next hn =>
    rw [hCut] at hn
    cases hn
  · next hs =>
    rw [hCut] at hs
    cases hs
    split
    · next hn => rw [hn]
    · next headerText body hs =>
      rw [hs]
      dsimp only
      congr 1
      funext header
      split
      · next hm => rw [hm]
      · next hm => rw [hm]

theorem rewrite_of_turn (t : Turn text) :
    rewrite helpersName marks text =
      ⟨t.notes marks ++ (rewrite helpersName marks t.marked).notes,
        (rewrite helpersName marks t.marked).result.map
          (t.before ++ callOpener helpersName t.header ++ ·)⟩ := by
  obtain ⟨before, opener, rest, headerText, body, header, marked, hCut, hSplit, hParsed, i, hMark⟩ := t
  rw [rewrite_of_cutOpener? hCut, hSplit]
  dsimp only [Turn.notes]
  rw [LoopHeader.read_of_parse hParsed]
  dsimp only [Noted.bind]
  simp only [hMark]
  simp [Noted.noting, Noted.map]

theorem exists_turn (hOk : (rewrite helpersName marks text).result = .ok out) :
    cutOpener? text = none ∨ Nonempty (Turn text) := by
  rcases hCut : cutOpener? text with _ | ⟨before, opener, rest⟩
  · exact .inl rfl
  · right
    rw [rewrite_of_cutOpener? hCut] at hOk
    cases hSplit : headerAndBody? rest with
    | none =>
      rw [hSplit] at hOk
      cases hOk
    | some parts =>
      obtain ⟨headerText, body⟩ := parts
      rw [hSplit] at hOk
      dsimp only at hOk
      rw [Noted.bind] at hOk
      split at hOk
      · cases hOk
      · next header hRead =>
        split at hOk
        · cases hOk
        · next marked i hMark =>
          obtain ⟨hName, hIterable⟩ := LoopHeader.eq_of_read hRead
          exact ⟨⟨before, opener, rest, headerText, body, header, marked, hCut, hSplit,
            Prod.ext hName hIterable, i, hMark⟩⟩

theorem rewrites_of_rewrite (h : (rewrite helpersName marks text).result = .ok out) :
    Rewrites helpersName marks text out (rewrite helpersName marks text).notes := by
  induction hn : text.count '{' using Nat.strongRecOn generalizing text out with
  | ind n ih =>
    rcases exists_turn h with hNone | ⟨⟨t⟩⟩
    · rw [rewrite_of_cutOpener?_eq_none hNone] at h ⊢
      obtain rfl := Except.ok.inj h
      exact .done hNone
    · rw [rewrite_of_turn t] at h ⊢
      obtain ⟨out, hOut, rfl⟩ := Outcome.map_eq_ok h
      exact .turn t (ih _ (hn ▸ t.count_marked_lt) hOut rfl)

theorem rewrite_eq_iff :
    rewrite helpersName marks text = ⟨notes, .ok out⟩ ↔
      Rewrites helpersName marks text out notes := by
  constructor
  · intro h
    have hRun := rewrites_of_rewrite (congrArg Noted.result h)
    rwa [h] at hRun
  · intro h
    induction h with
    | done hNone => exact rewrite_of_cutOpener?_eq_none hNone
    | turn t _ ih =>
      rw [rewrite_of_turn t, ih]
      rfl

theorem convert_of_not_hasOpener (h : hasOpener text = false) :
    convert helpersName marks text = .ok text := by
  rw [convert, h]
  rfl

theorem convert_of_protect {guarded : Text} (hLoop : hasOpener text)
    (hGuarded : LogicBlock.protect marks text = .ok guarded) :
    convert helpersName marks text = (rewrite helpersName marks guarded).map fun converted =>
      LogicBlock.restore marks (Text.replaceAll closePlaceholder callClose converted) := by
  rw [convert, if_pos hLoop, hGuarded]
  rfl

/-- A conversion that succeeds is the logic blocks protected, a run of the pass, and the placeholders
replaced. -/
theorem exists_of_convert (hLoop : hasOpener text)
    (hOk : (convert helpersName marks text).result = .ok out) :
    ∃ guarded converted, LogicBlock.protect marks text = .ok guarded ∧
      Rewrites helpersName marks guarded converted (convert helpersName marks text).notes ∧
      out = LogicBlock.restore marks (Text.replaceAll closePlaceholder callClose converted) := by
  cases hGuarded : LogicBlock.protect marks text with
  | error e =>
    rw [convert, if_pos hLoop, hGuarded] at hOk
    cases hOk
  | ok guarded =>
    rw [convert_of_protect hLoop hGuarded] at hOk ⊢
    obtain ⟨converted, hConverted, rfl⟩ := Outcome.map_eq_ok hOk
    exact ⟨guarded, converted, rfl, rewrites_of_rewrite hConverted, rfl⟩

end RazorVash.Loop
