import RazorVash.Proofs.Draft.Marking

namespace RazorVash.Draft

variable {f : Mark → Text} {d : Draft}

theorem settled_written (m : Mark) : Settled m.written := by
  cases m <;> exact ⟨List.cons_ne_nil _ _, by decide, by decide⟩

/-- The spelling with the delimiters of logic blocks as written. -/
def logicWritten (f : Mark → Text) : Mark → Text
  | .logicOpener => Mark.written .logicOpener
  | .logicCloser => Mark.written .logicCloser
  | .loopCloser => f .loopCloser

theorem restore_spell (ho : f .logicOpener = Mark.placeholder .logicOpener)
    (hc : f .logicCloser = Mark.placeholder .logicCloser) (hf : Legible f) (hd : Clean d) :
    LogicBlock.restore .standard (spell f d) = spell (logicWritten f) d := by
  let g : Mark → Text := fun m => if m = .logicOpener then Mark.written m else f m
  have hFirst : Text.replaceAll (Mark.placeholder .logicOpener) LogicBlock.opener (spell f d) =
      spell g d :=
    replaceAll_spell (g := g) hf ho (fun k hk => if_neg hk) hd
  have hg : Legible g := by
    intro m
    by_cases hm : m = .logicOpener
    · exact .inr (by rw [show g m = m.written from if_pos hm]; exact settled_written m)
    · rw [show g m = f m from if_neg hm]
      exact hf m
  have hSecond : Text.replaceAll (Mark.placeholder .logicCloser) ['}'] (spell g d) =
      spell (logicWritten f) d := by
    refine replaceAll_spell (g := logicWritten f) hg hc (fun k hk => ?_) hd
    cases k with
    | logicOpener => rfl
    | logicCloser => exact absurd rfl hk
    | loopCloser => rfl
  rw [LogicBlock.restore, ← Mark.placeholder_logicOpener, ← Mark.placeholder_logicCloser, hFirst,
    hSecond]

/-- The spelling with loop ends as `t` and placeholders otherwise. -/
def loopCloserAs (t : Text) : Mark → Text
  | .loopCloser => t
  | m => m.placeholder

theorem restore_replaceAll_spell {t : Text} (ht : Settled t) (hd : Clean d) :
    LogicBlock.restore .standard
        (Text.replaceAll Loop.closePlaceholder t (spell Mark.placeholder d)) =
      spell (logicWritten (loopCloserAs t)) d := by
  have hFirst : Text.replaceAll (Mark.placeholder .loopCloser) t (spell Mark.placeholder d) =
      spell (loopCloserAs t) d := by
    refine replaceAll_spell (g := loopCloserAs t) legible_placeholder rfl (fun k hk => ?_) hd
    cases k with
    | logicOpener => rfl
    | logicCloser => rfl
    | loopCloser => exact absurd rfl hk
  rw [← Mark.placeholder_loopCloser, hFirst]
  refine restore_spell rfl rfl (fun k => ?_) hd
  cases k with
  | logicOpener => exact .inl rfl
  | logicCloser => exact .inl rfl
  | loopCloser => exact .inr ht

theorem asWritten_spell (hd : Clean d) :
    Loop.asWritten .standard (spell Mark.placeholder d) = spell Mark.written d := by
  have ht : Settled ['}'] := settled_written .loopCloser
  rw [Loop.asWritten, restore_replaceAll_spell ht hd]
  refine spell_congr fun m _ => ?_
  cases m <;> rfl

theorem converted_spell (hd : Clean d) :
    LogicBlock.restore .standard
        (Text.replaceAll Loop.closePlaceholder Loop.callClose (spell Mark.placeholder d)) =
      spell Mark.converted d := by
  have ht : Settled Loop.callClose := ⟨List.cons_ne_nil _ _, by decide, by decide⟩
  rw [restore_replaceAll_spell ht hd]
  refine spell_congr fun m _ => ?_
  cases m <;> rfl

end RazorVash.Draft
