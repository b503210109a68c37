import RazorVash.Proofs.Draft.Becomes
import RazorVash.Proofs.LogicBlock.Unclosed
import RazorVash.Proofs.Text.InOrder

namespace RazorVash.Loop
open Piece Draft

variable {helpersName name text out p : Text} {ps : List Text} {d o e₁ e₂ : Draft}

/-- The words of a call keep the occurrences of `p` apart, and no variable has one. -/
structure Neutral (helpersName p : Text) : Prop where
  call : Text.Separates (helpersName ++ ".foreach(".toList) p
  function : Text.Separates ", function(".toList p
  body : Text.Separates " \x7b".toList p
  close : Text.Separates callClose p
  strange : '.' ∈ p ∨ '*' ∈ p

theorem Neutral.not_infix_name (hn : Neutral helpersName p)
    (hName : name = LoopHeader.defaultVariable ∨ LoopHeader.isVariableName name) :
    ¬ p <:+: name ++ [')'] := by
  have hMem : '.' ∉ name ++ [')'] ∧ '*' ∉ name ++ [')'] := by
    rcases hName with rfl | hName
    · decide
    · have hPoint : '.' ∉ name := LoopHeader.notMem_of_isVariableName hName (by decide +kernel)
        (by decide) (by decide) (by decide)
      have hStar : '*' ∉ name := LoopHeader.notMem_of_isVariableName hName (by decide +kernel)
        (by decide) (by decide) (by decide)
      simp [hPoint, hStar]
  rcases hn.strange with h | h
  · exact Text.not_infix_of_notMem h hMem.1
  · exact Text.not_infix_of_notMem h hMem.2

theorem inOrder_spell_brace (hps : ∀ p ∈ ps, Neutral helpersName p)
    (h : Text.InOrder ps (spell Mark.converted (e₁ ++ .mark .loopCloser :: e₂))) :
    Text.InOrder ps (spell Mark.converted (e₁ ++ brace :: e₂)) := by
  have hSplit : spell Mark.converted (e₁ ++ .mark .loopCloser :: e₂) =
      spell Mark.converted e₁ ++ callClose ++ spell Mark.converted e₂ := by
    simp [Mark.converted]
  rw [hSplit] at h
  obtain ⟨ps₁, ps₂, rfl, h₁, h₂⟩ := h.exists_split fun p hp => (hps p hp).close
  rw [spell_append, brace, spell_char]
  exact h₁.append (h₂.append_left ['}'])

/-- The parts of a call are in the order of the parts of the loop, the variable apart. The induction is
on the loops that are taken. -/
theorem inOrder_of_becomes (hps : ∀ p ∈ ps, Neutral helpersName p) (h : Becomes helpersName d o)
    (ho : Text.InOrder ps (spell Mark.converted o)) : Text.InOrder ps (spell Mark.converted d) := by
  induction h generalizing ps with
  | done => exact ho
  | @turn before h it e₁ e₂ out opener name hOpener hp _ ih =>
    -- the `@` of the opener is the call's, so it is counted to what stands before
    have hCall : spell Mark.converted (before ++ (callDraft helpersName it name ++ out)) =
        (spell Mark.converted before ++ ['@']) ++ (helpersName ++ ".foreach(".toList) ++
          (spell Mark.converted it ++ ", function(".toList ++
            ((name ++ [')']) ++ " \x7b".toList ++ spell Mark.converted out)) := by
      simp [callDraft]
    rw [hCall] at ho
    obtain ⟨ps₁, qs, rfl, h₁, hRest⟩ := ho.exists_split fun p hp => (hps p hp).call
    have hps := fun p hp => hps p (List.mem_append_right ps₁ hp)
    obtain ⟨ps₂, rs, rfl, h₂, hRest⟩ := hRest.exists_split fun p hp => (hps p hp).function
    have hps := fun p hp => hps p (List.mem_append_right ps₂ hp)
    obtain ⟨ps₃, ps₄, rfl, h₃, h₄⟩ := hRest.exists_split fun p hp => (hps p hp).body
    have hName : ps₃ = [] := by
      refine List.eq_nil_iff_forall_not_mem.2 fun p hp' => ?_
      exact (hps p (List.mem_append_left _ hp')).not_infix_name (hp.name_eq.imp_right And.right)
        (h₃.infix_of_mem hp')
    subst hName
    have hBody := inOrder_spell_brace hps (ih hps h₄)
    have hHeader := h₂.of_infix (infix_spell hp.iterable)
    obtain ⟨t, rfl⟩ := hOpener.exists_cons
    have hLoop : spell Mark.converted
        (before ++ (('@' :: t).map .char ++ (h ++ .char '{' :: (e₁ ++ brace :: e₂)))) =
          (spell Mark.converted before ++ ['@']) ++ (t ++ (spell Mark.converted h ++
            (['{'] ++ spell Mark.converted (e₁ ++ brace :: e₂)))) := by
      simp
    rw [hLoop]
    exact h₁.append ((hHeader.append (hBody.append_left ['{'])).append_left t)

theorem inOrder_of_convert (hStem : ¬ placeholderStem <:+: text)
    (hName : ¬ placeholderStem <:+: helpersName)
    (hOk : (convert helpersName .standard text).result = .ok out)
    (hps : ∀ p ∈ ps, Neutral helpersName p) (h : Text.InOrder ps out) : Text.InOrder ps text := by
  by_cases hLoop : hasOpener text
  · obtain ⟨_, _, hProtect, -, -⟩ := exists_of_convert hLoop hOk
    obtain ⟨d, o, hConverts⟩ :=
      exists_converts hStem hName (LogicBlock.allClosed_of_protect hStem hProtect) hOk
    rw [← hConverts.converted] at h
    rw [← hConverts.unconverted]
    exact inOrder_of_becomes hps hConverts.becomes h
  · rw [convert_of_not_hasOpener (Bool.eq_false_iff.2 hLoop)] at hOk
    rwa [Except.ok.inj hOk]

end RazorVash.Loop
