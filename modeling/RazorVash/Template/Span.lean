import RazorVash.Text.Basic

namespace RazorVash.Template

theorem length_lt_of_span {start stop text before inside body rest : Text}
    (h : ¬(start = [] ∧ stop = [])) (h₁ : Text.cut? start text = some (before, inside))
    (h₂ : Text.cut? stop inside = some (body, rest)) : rest.length < text.length := by
  have e₁ := congrArg List.length (Text.cut?_eq_some h₁)
  have e₂ := congrArg List.length (Text.cut?_eq_some h₂)
  simp only [List.length_append] at e₁ e₂
  rcases Decidable.not_and_iff_or_not.1 h with h | h <;>
    have := List.length_pos_iff.2 h <;> omega

/-- Either mark may be empty. With both empty every character is a span of its own. -/
def deleteSpans (start stop text : Text) : Text :=
  if _ : start = [] ∧ stop = [] then []
  else
    match _ : Text.cut? start text with
    | none => text
    | some (before, inside) =>
      match _ : Text.cut? stop inside with
      | none => text
      | some (_, rest) => before ++ deleteSpans start stop rest
termination_by text.length
decreasing_by exact length_lt_of_span ‹_› ‹_› ‹_›

end RazorVash.Template
