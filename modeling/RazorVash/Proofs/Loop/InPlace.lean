import RazorVash.Proofs.LogicBlock.InPlace
import RazorVash.Proofs.Loop.Rewrites

namespace RazorVash

namespace Noted
variable {α β : Type} {outcome : Noted α} {after : α → Noted β}

theorem bind_of_error {e : RewriteError} (h : outcome.result = .error e) :
    outcome.bind after = ⟨outcome.notes, .error e⟩ := by
  rw [bind, h]

theorem bind_of_ok {a : α} (h : outcome.result = .ok a) :
    outcome.bind after = ⟨outcome.notes ++ (after a).notes, (after a).result⟩ := by
  rw [bind, h]

end Noted

namespace Loop

/-- The loop over the loops of a text that changes in place, with what has been noted so far. -/
structure Pass extends Cursor where
  notes : List Note

variable {helpersName text before opener rest : Text} {marks : LogicBlock.Placeholders} {s : Pass}
  {turns : Nat}

def Pass.finish (s : Pass) (outcome : Noted Text) : Noted Text :=
  ⟨s.notes ++ outcome.notes, outcome.result.map (s.done ++ ·)⟩

/-- The header of the first loop that is left is read and the end of its body marked; then the call
takes the place of the header, and the search goes on after the call. -/
def next (helpersName : Text) (marks : LogicBlock.Placeholders) (s : Pass) :
    Next Pass (Noted Text) :=
  match cutOpener? s.left with
  | none => .stop ⟨s.notes, .ok s.text⟩
  | some (before, opener, rest) =>
    let start := s.done.length + before.length
    let source := asWritten marks (s.text.drop start)
    match headerAndBody? rest with
    | none => .last ⟨s.notes, .error (.block ⟨.noBody, source⟩)⟩
    | some (headerText, _) =>
      let read := LoopHeader.read headerText source
      match read.result with
      | .error e => .last ⟨s.notes ++ read.notes, .error e⟩
      | .ok header =>
        let body := start + opener.length + headerText.length + 1
        match Brace.markMatchingClose s.text body closePlaceholder with
        | .error e => .last ⟨s.notes ++ read.notes, .error (.block { e with source })⟩
        | .ok (marked, _) =>
          .turn ⟨⟨marked.take start ++ callOpener helpersName header, marked.drop body⟩,
            s.notes ++ read.notes ++ [.rewroteLoop header]⟩

def isRewrite : Note → Bool
  | .rewroteLoop _ => true
  | .undeclared _ _ => false

def rewritten (notes : List Note) : Nat := notes.countP isRewrite

theorem rewritten_append (notes more : List Note) :
    rewritten (notes ++ more) = rewritten notes + rewritten more :=
  List.countP_append

theorem rewritten_read (header source : Text) :
    rewritten (LoopHeader.read header source).notes = 0 := by
  rcases hParse : LoopHeader.parse header with ⟨⟨name, declared⟩, iterable⟩
  rw [LoopHeader.read, hParse]
  cases declared <;> rfl

/-- What is done with has no part in a turn. -/
theorem next_of_cutOpener? (hCut : cutOpener? s.left = some (before, opener, rest)) :
    next helpersName marks s =
      match headerAndBody? rest with
      | none => .last ⟨s.notes, .error (.block ⟨.noBody, asWritten marks (opener ++ rest)⟩)⟩
      | some (headerText, body) =>
        let read := LoopHeader.read headerText (asWritten marks (opener ++ rest))
        match read.result with
        | .error e => .last ⟨s.notes ++ read.notes, .error e⟩
        | .ok header =>
          match Brace.markMatchingClose body 0 closePlaceholder with
          | .error e =>
            .last ⟨s.notes ++ read.notes,
              .error (.block { e with source := asWritten marks (opener ++ rest) })⟩
          | .ok (marked, _) =>
            .turn ⟨⟨s.done ++ before ++ callOpener helpersName header, marked⟩,
              s.notes ++ read.notes ++ [.rewroteLoop header]⟩ := by
  have hStart : s.done.length + before.length = (s.done ++ before).length := by
    rw [List.length_append]
  have hText : s.text = (s.done ++ before) ++ (opener ++ rest) := by
    rw [Cursor.text, cutOpener?_eq_some hCut]
    simp only [List.append_assoc]
  rw [next, hCut]
  dsimp only
  rw [hStart, hText, List.drop_left]
  cases hSplit : headerAndBody? rest with
  | none => rfl
  | some parts =>
    obtain ⟨headerText, body⟩ := parts
    dsimp only
    cases (LoopHeader.read headerText (asWritten marks (opener ++ rest))).result with
    | error e => rfl
    | ok header =>
      -- everything up to the body, which marking is told to pass over
      have hWhole : (s.done ++ before) ++ (opener ++ rest) =
          (s.done ++ before ++ opener ++ headerText ++ ['{']) ++ body := by
        rw [(headerAndBody?_eq_some hSplit).1]
        simp only [List.append_assoc, List.singleton_append]
      have hBody : (s.done ++ before).length + opener.length + headerText.length + 1 =
          (s.done ++ before ++ opener ++ headerText ++ ['{']).length := by
        simp only [List.length_append, List.length_singleton]
      dsimp only
      rw [hWhole, hBody, Brace.markMatchingClose_append_left]
      cases Brace.markMatchingClose body 0 closePlaceholder with
      | error e => rfl
      | ok parts =>
        obtain ⟨marked, i⟩ := parts
        have hTake : ((s.done ++ before ++ opener ++ headerText ++ ['{']) ++ marked).take
            (s.done ++ before).length = s.done ++ before := by
          simp only [List.append_assoc]
          rw [← List.append_assoc, List.take_left]
        simp only [Except.map, hTake, List.drop_left]

/-- A turn at a loop that fails, or that rewrites the loop and leaves fewer opening braces, beside what
the pass says of the text that is left. -/
theorem next_cases (helpersName : Text) (marks : LogicBlock.Placeholders) (s : Pass) :
    (cutOpener? s.left = none ∧ next helpersName marks s = .stop ⟨s.notes, .ok s.text⟩) ∨
    (next helpersName marks s = .last (s.finish (rewrite helpersName marks s.left)) ∧
      rewritten (rewrite helpersName marks s.left).notes = 0) ∨
    ∃ before notes header marked,
      next helpersName marks s = .turn ⟨⟨s.done ++ before ++ callOpener helpersName header, marked⟩,
        s.notes ++ notes ++ [.rewroteLoop header]⟩ ∧
      rewrite helpersName marks s.left =
        ⟨notes ++ .rewroteLoop header :: (rewrite helpersName marks marked).notes,
          (rewrite helpersName marks marked).result.map
            (before ++ callOpener helpersName header ++ ·)⟩ ∧
      rewritten notes = 0 ∧ marked.count '{' < s.left.count '{' := by
  rcases hCut : cutOpener? s.left with _ | ⟨before, opener, rest⟩
  · exact .inl ⟨rfl, by rw [next, hCut]⟩
  · right
    rw [next_of_cutOpener? hCut, rewrite_of_cutOpener? hCut]
    cases hSplit : headerAndBody? rest with
    | none => exact .inl ⟨by simp [Pass.finish, Noted.fail, Except.map], rfl⟩
    | some parts =>
      obtain ⟨headerText, body⟩ := parts
      have hNone := rewritten_read headerText (asWritten marks (opener ++ rest))
      dsimp only
      generalize hRead : LoopHeader.read headerText (asWritten marks (opener ++ rest)) = read at *
      cases hResult : read.result with
      | error e =>
        rw [Noted.bind_of_error hResult]
        exact .inl ⟨rfl, hNone⟩
      | ok header =>
        rw [Noted.bind_of_ok hResult]
        cases hMark : Brace.markMatchingClose body 0 closePlaceholder with
        | error e =>
          refine .inl ⟨?_, ?_⟩
          · simp [Pass.finish, Noted.fail, Except.map]
          · simpa [Noted.fail] using hNone
        | ok parts =>
          obtain ⟨marked, i⟩ := parts
          have hFewer := count_left_lt hCut hSplit hMark
          exact .inr ⟨before, read.notes, header, marked, rfl, rfl, hNone, hFewer⟩

theorem descends_next (helpersName : Text) (marks : LogicBlock.Placeholders) (s : Pass) :
    (next helpersName marks s).Descends (·.left.count '{' + 1)
      (fun s => s.finish (rewrite helpersName marks s.left)) s := by
  obtain ⟨hCut, hNext⟩ | ⟨hNext, -⟩ | ⟨before, notes, header, marked, hNext, hRewrite, -, hFewer⟩ :=
    next_cases helpersName marks s <;> rw [hNext]
  · show s.finish (rewrite helpersName marks s.left) = ⟨s.notes, .ok s.text⟩
    rw [rewrite_of_cutOpener?_eq_none hCut]
    simp [Pass.finish, Noted.ok, Except.map, Cursor.text]
  · exact ⟨rfl, Nat.succ_pos _⟩
  · refine ⟨?_, Nat.succ_lt_succ hFewer⟩
    show s.finish (rewrite helpersName marks s.left) = _
    rw [hRewrite]
    cases hResult : (rewrite helpersName marks marked).result <;>
      simp [Pass.finish, hResult, Except.map]

theorem endsAfter_rewrite (helpersName : Text) (marks : LogicBlock.Placeholders) (text : Text) :
    ∃ turns ≤ text.count '{' + 1,
      EndsAfter (next helpersName marks) turns ⟨⟨[], text⟩, []⟩ (rewrite helpersName marks text) := by
  have hOutcome : Pass.finish ⟨⟨[], text⟩, []⟩ (rewrite helpersName marks text) =
      rewrite helpersName marks text :=
    congrArg (Noted.mk _) (congrFun Except.map_id (rewrite helpersName marks text).result)
  obtain ⟨turns, hTurns, hEnds⟩ :=
    exists_endsAfter (descends_next helpersName marks) ⟨⟨[], text⟩, []⟩
  exact ⟨turns, hTurns, hOutcome ▸ hEnds⟩

theorem rewritten_le_of_endsAfter {outcome : Noted Text}
    (h : EndsAfter (next helpersName marks) turns s outcome) :
    rewritten outcome.notes ≤ rewritten s.notes + s.left.count '{' := by
  -- loops that are rewritten and braces that are left never become more, taken together
  refine h.good (fun s' => rewritten s'.notes + s'.left.count '{' ≤
      rewritten s.notes + s.left.count '{')
    (fun outcome => rewritten outcome.notes ≤ rewritten s.notes + s.left.count '{')
    (fun s' hCount => ?_) (Nat.le_refl _)
  obtain ⟨-, hNext⟩ | ⟨hNext, hNone⟩ | ⟨before, notes, header, marked, hNext, -, hNone, hFewer⟩ :=
    next_cases helpersName marks s' <;> rw [hNext]
  · exact Nat.le_trans (Nat.le_add_right _ _) hCount
  · show rewritten (s'.notes ++ (rewrite helpersName marks s'.left).notes) ≤ _
    rw [rewritten_append, hNone]
    exact Nat.le_trans (Nat.le_add_right _ _) hCount
  · show rewritten (s'.notes ++ notes ++ [.rewroteLoop header]) + marked.count '{' ≤ _
    rw [rewritten_append, rewritten_append, hNone]
    have hOne : rewritten [.rewroteLoop header] = 1 := rfl
    omega

/-- A conversion that changes its text in place, with the turns that it takes at blocks and at
loops. -/
inductive ConvertsInPlace (helpersName text : Text) : Nat → Nat → Noted Text → Prop
  | loopless (hLoop : hasOpener text = false) : ConvertsInPlace helpersName text 0 0 (.ok text)
  | refused {blockTurns : Nat} {e : MalformedBlock} (hLoop : hasOpener text)
      (hBlocks : EndsAfter (LogicBlock.next .standard) blockTurns ⟨[], text⟩ (.error e)) :
      ConvertsInPlace helpersName text blockTurns 0 (.fail (.block e))
  | rewritten {blockTurns loopTurns : Nat} {guarded : Text} {outcome : Noted Text}
      (hLoop : hasOpener text)
      (hBlocks : EndsAfter (LogicBlock.next .standard) blockTurns ⟨[], text⟩ (.ok guarded))
      (hLoops : EndsAfter (next helpersName .standard) loopTurns ⟨⟨[], guarded⟩, []⟩ outcome) :
      ConvertsInPlace helpersName text blockTurns loopTurns (outcome.map fun converted =>
        LogicBlock.restore .standard (Text.replaceAll closePlaceholder callClose converted))

theorem exists_convertsInPlace (helpersName text : Text) : ∃ blockTurns loopTurns,
    ConvertsInPlace helpersName text blockTurns loopTurns (convert helpersName .standard text) ∧
      blockTurns ≤ text.count '{' ∧ loopTurns ≤ text.count '{' + 1 ∧
      rewritten (convert helpersName .standard text).notes ≤ text.count '{' := by
  cases hLoop : hasOpener text with
  | false =>
    rw [convert_of_not_hasOpener hLoop]
    exact ⟨0, 0, .loopless hLoop, Nat.zero_le _, Nat.zero_le _, Nat.zero_le _⟩
  | true =>
    have hCloser : '{' ∉ LogicBlock.Placeholders.standard.closer := by decide
    obtain ⟨blockTurns, hBlockTurns, hBlocks⟩ := LogicBlock.endsAfter_protect hCloser text
    cases hProtect : LogicBlock.protect .standard text with
    | error e =>
      rw [hProtect] at hBlocks
      rw [convert, if_pos hLoop, hProtect]
      exact ⟨blockTurns, 0, .refused hLoop hBlocks, hBlockTurns, Nat.zero_le _, Nat.zero_le _⟩
    | ok guarded =>
      rw [hProtect] at hBlocks
      have hGuarded : guarded.count '{' ≤ text.count '{' :=
        LogicBlock.count_of_endsAfter (by decide) hCloser hBlocks
      obtain ⟨loopTurns, hLoopTurns, hLoops⟩ := endsAfter_rewrite helpersName .standard guarded
      have hRewritten := rewritten_le_of_endsAfter hLoops
      rw [convert_of_protect hLoop hProtect]
      refine ⟨blockTurns, loopTurns, .rewritten hLoop hBlocks hLoops, hBlockTurns, ?_, ?_⟩
      · exact Nat.le_trans hLoopTurns (Nat.succ_le_succ hGuarded)
      · exact Nat.le_trans hRewritten (by simpa [rewritten] using hGuarded)

/-- Protecting ends with its result, or at a block that cannot be closed, after as many turns as the
text has opening braces, at most; only the placeholder for closers must not have any. Converting ends
whatever the helpers are called, and no more loops are rewritten than the template has opening
braces. -/
theorem ends_within_openers :
    (∀ (marks : LogicBlock.Placeholders) (text : Text), '{' ∉ marks.closer →
      (∃ turns ≤ text.count '{',
        EndsAfter (LogicBlock.next marks) turns ⟨[], text⟩ (LogicBlock.protect marks text)) ∧
      ∀ e, LogicBlock.protect marks text = .error e → e.fault ≠ .startOutside) ∧
    ∀ helpersName text : Text, ∃ blockTurns loopTurns,
      ConvertsInPlace helpersName text blockTurns loopTurns (convert helpersName .standard text) ∧
        blockTurns ≤ text.count '{' ∧ loopTurns ≤ text.count '{' + 1 ∧
        rewritten (convert helpersName .standard text).notes ≤ text.count '{' := by
  refine ⟨fun marks text hCloser => ?_, exists_convertsInPlace⟩
  obtain ⟨turns, hTurns, hEnds⟩ := LogicBlock.endsAfter_protect hCloser text
  refine ⟨⟨turns, hTurns, hEnds⟩, fun e hError => ?_⟩
  rw [hError] at hEnds
  exact LogicBlock.fault_of_endsAfter hEnds

/-- Placeholders that are openers themselves, and a name for the helpers that opens loops. -/
theorem ends_within_openers_hostile :
    let marks : LogicBlock.Placeholders := ⟨"@\x7b@\x7b".toList, "\x7d\x7d".toList⟩
    let text := "@\x7b \x7b@\x7ba\x7d\x7d \x7d@\x7b\x7d".toList
    let template := "@foreach(var x in xs) \x7b @foreach(var y in x) \x7b\x7d \x7d".toList
    let helpersName := "\x7b@foreach(".toList
    '{' ∉ marks.closer ∧
    (∃ turns ≤ text.count '{',
      EndsAfter (LogicBlock.next marks) turns ⟨[], text⟩ (LogicBlock.protect marks text)) ∧
    (∃ blockTurns loopTurns,
      ConvertsInPlace helpersName template blockTurns loopTurns
        (convert helpersName .standard template) ∧
      blockTurns ≤ template.count '{' ∧ loopTurns ≤ template.count '{' + 1 ∧
      rewritten (convert helpersName .standard template).notes ≤ template.count '{') ∧
    text.count '{' = 4 ∧ (LogicBlock.protect marks text).isOk ∧
    template.count '{' = 2 ∧ rewritten (convert helpersName .standard template).notes = 2 :=
  ⟨by decide +kernel, (ends_within_openers.1 _ _ (by decide +kernel)).1, ends_within_openers.2 _ _,
    by decide +kernel, by decide +kernel, by decide +kernel, by decide +kernel⟩

end Loop

end RazorVash
