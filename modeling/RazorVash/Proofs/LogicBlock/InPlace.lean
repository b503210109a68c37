import RazorVash.Proofs.LogicBlock.Append
import RazorVash.Proofs.Turns

namespace RazorVash.LogicBlock

variable {marks : Placeholders} {c : Cursor} {before rest guarded text : Text} {turns : Nat}

/-- The loop over the blocks of a text that changes in place: the end of the first block that is left
is marked, its opener replaced, and the search goes on after that. -/
def next (marks : Placeholders) (c : Cursor) : Next Cursor (Except MalformedBlock Text) :=
  match Text.cut? opener c.left with
  | none => .stop (.ok c.text)
  | some (before, _) =>
    let place := c.done.length + before.length
    let start := place + opener.length
    match Brace.markMatchingClose c.text start marks.closer with
    | .error e => .last (.error e)
    | .ok (marked, _) => .turn ⟨marked.take place ++ marks.opener, marked.drop start⟩

/-- What is done with has no part in a turn. -/
theorem next_of_cut? (hCut : Text.cut? opener c.left = some (before, rest)) :
    next marks c =
      match Brace.markMatchingClose rest 0 marks.closer with
      | .error e => .last (.error e)
      | .ok (marked, _) => .turn ⟨c.done ++ before ++ marks.opener, marked⟩ := by
  have hText : c.text = (c.done ++ before ++ opener) ++ rest := by
    rw [Cursor.text, Text.cut?_eq_some hCut]
    simp only [List.append_assoc]
  have hStart : c.done.length + before.length + opener.length =
      (c.done ++ before ++ opener).length := by simp only [List.length_append]
  rw [next, hCut]
  dsimp only
  rw [hText, hStart, Brace.markMatchingClose_append_left]
  cases Brace.markMatchingClose rest 0 marks.closer with
  | error e => rfl
  | ok parts =>
    obtain ⟨marked, i⟩ := parts
    have hTake : ((c.done ++ before ++ opener) ++ marked).take (c.done.length + before.length) =
        c.done ++ before := by
      rw [List.append_assoc]
      exact List.take_left' List.length_append
    simp only [Except.map, hTake, List.drop_left]

theorem next_cases (marks : Placeholders) (c : Cursor) :
    (Text.cut? opener c.left = none ∧ next marks c = .stop (.ok c.text)) ∨
    ∃ before rest, Text.cut? opener c.left = some (before, rest) ∧
      ((∃ e, Brace.markMatchingClose rest 0 marks.closer = .error e ∧
          next marks c = .last (.error e)) ∨
        ∃ marked i, Brace.markMatchingClose rest 0 marks.closer = .ok (marked, i) ∧
          next marks c = .turn ⟨c.done ++ before ++ marks.opener, marked⟩) := by
  rcases hCut : Text.cut? opener c.left with _ | ⟨before, rest⟩
  · exact .inl ⟨rfl, by rw [next, hCut]⟩
  · right
    refine ⟨before, rest, rfl, ?_⟩
    rw [next_of_cut? hCut]
    rcases hMark : Brace.markMatchingClose rest 0 marks.closer with e | ⟨marked, i⟩
    · exact .inl ⟨e, rfl, rfl⟩
    · exact .inr ⟨marked, i, rfl, rfl⟩

theorem descends_next (hCloser : '{' ∉ marks.closer) (c : Cursor) :
    (next marks c).Descends (·.left.count '{') (fun c => (protect marks c.left).map (c.done ++ ·))
      c := by
  obtain ⟨hCut, hNext⟩ | ⟨before, rest, hCut, ⟨e, hMark, hNext⟩ | ⟨marked, i, hMark, hNext⟩⟩ :=
    next_cases marks c <;> rw [hNext]
  · exact congrArg (Except.map _) (protect_of_cut?_eq_none hCut)
  · have hProtect := protect_of_cut? hCloser hCut
    rw [hMark] at hProtect
    refine ⟨congrArg (Except.map _) hProtect, List.count_pos_iff.2 ?_⟩
    rw [Text.cut?_eq_some hCut]
    simp [opener]
  · have hProtect := protect_of_cut? hCloser hCut
    rw [hMark] at hProtect
    refine ⟨(congrArg (Except.map _) hProtect).trans ?_, count_left_lt hCloser hCut hMark⟩
    dsimp only
    cases protect marks marked <;> simp [Except.map]

/-- Protecting ends after as many turns as there are opening braces, at most. -/
theorem endsAfter_protect (hCloser : '{' ∉ marks.closer) (text : Text) :
    ∃ turns ≤ text.count '{', EndsAfter (next marks) turns ⟨[], text⟩ (protect marks text) := by
  have hResult : (protect marks text).map ([] ++ ·) = protect marks text :=
    congrFun Except.map_id (protect marks text)
  obtain ⟨turns, hTurns, hEnds⟩ := exists_endsAfter (descends_next hCloser) ⟨[], text⟩
  exact ⟨turns, hTurns, hResult ▸ hEnds⟩

/-- A run fails at a block that cannot be closed, and nowhere else. -/
theorem fault_of_endsAfter {e : MalformedBlock} (h : EndsAfter (next marks) turns c (.error e)) :
    e.fault ≠ .startOutside := by
  refine h.good (fun _ => True) (fun r => ∀ e, r = .error e → e.fault ≠ .startOutside)
    (fun c _ => ?_) trivial e rfl
  obtain ⟨-, hNext⟩ | ⟨_, _, -, ⟨e, hMark, hNext⟩ | ⟨_, _, -, hNext⟩⟩ := next_cases marks c <;>
    rw [hNext]
  · intro e hError
    cases hError
  · rintro _ ⟨⟩
    exact Brace.fault_of_findMatchingClose (n := 0) (Brace.findMatchingClose_of_error hMark)
  · trivial

theorem count_of_endsAfter (hOpener : '{' ∉ marks.opener) (hCloser : '{' ∉ marks.closer)
    (h : EndsAfter (next marks) turns c (.ok guarded)) : guarded.count '{' ≤ c.text.count '{' := by
  refine h.good (fun c' => c'.text.count '{' ≤ c.text.count '{')
    (fun r => ∀ guarded, r = .ok guarded → guarded.count '{' ≤ c.text.count '{')
    (fun c' hCount => ?_) (Nat.le_refl _) guarded rfl
  obtain ⟨-, hNext⟩ | ⟨before, rest, hCut, ⟨e, -, hNext⟩ | ⟨marked, i, hMark, hNext⟩⟩ :=
    next_cases marks c' <;> rw [hNext]
  · rintro _ ⟨⟩
    exact hCount
  · intro guarded hOk
    cases hOk
  · -- the marks have no brace and take the place of an opener that has one
    have hMarked := Brace.count_openers_markMatchingClose hCloser hMark
    have hMarks : marks.opener.count '{' = 0 := List.count_eq_zero.2 hOpener
    rw [Cursor.text, Text.cut?_eq_some hCut] at hCount
    simp only [Next.Keeps, Cursor.text, List.count_append] at hCount ⊢
    omega

end RazorVash.LogicBlock
