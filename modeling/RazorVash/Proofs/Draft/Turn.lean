import RazorVash.Proofs.Draft.Closing
import RazorVash.Proofs.Draft.Opening

namespace RazorVash.Draft
open Piece Loop

variable {d d' : Draft} {u : Draft} {before opener rest headerText body marked : Text}
  {pending : List Piece} {i : Int}

theorem exists_of_cutOpener?_written
    (hCut : cutOpener? (spell Mark.written d) = some (before, opener, rest)) :
    ∃ d₀ d₂, d = d₀ ++ (opener.map .char ++ d₂) ∧ spell Mark.written d₀ = before ∧
      spell Mark.written d₂ = rest ∧
      cutOpener? (spell Mark.placeholder d) =
        some (spell Mark.placeholder d₀, opener, spell Mark.placeholder d₂) := by
  have ho := isOpener_of_cutOpener? hCut
  obtain ⟨d₀, d₂, rfl, rfl, rfl⟩ := exists_of_opener_written ho (cutOpener?_eq_some hCut)
  exact ⟨d₀, d₂, rfl, rfl, rfl, cutOpener?_spell ho hCut⟩

/-- A header and a body, and that the header opens no loop in the template either. -/
theorem exists_of_headerAndBody?
    (hSplit : headerAndBody? (spell Mark.placeholder d) = some (headerText, body)) :
    ∃ h d', d = h ++ .char '{' :: d' ∧ spell Mark.placeholder h = headerText ∧
      spell Mark.placeholder d' = body ∧ ∀ o, IsOpener o → ¬ o <:+: spell Mark.written h := by
  obtain ⟨hText, -, hNoOpener⟩ := headerAndBody?_eq_some hSplit
  have hBrace (m : Mark) : '{' ∉ m.placeholder := by cases m <;> decide
  obtain ⟨h, d', rfl, rfl, rfl⟩ := exists_of_spell_eq hBrace hText
  refine ⟨h, d', rfl, rfl, rfl, ?_⟩
  rintro o ho ⟨u, v, hu⟩
  obtain ⟨e₁, e₂, rfl, -, -⟩ := exists_of_opener_written ho hu.symm
  exact hasOpener_eq_false.1 hNoOpener o ho
    ⟨spell Mark.placeholder e₁, spell Mark.placeholder e₂, by simp⟩

theorem exists_of_marked_loop (hClean : Clean d) (hPaired : Paired pending d)
    (hd : d = u ++ .char '{' :: d')
    (hMark : Brace.markMatchingClose (spell Mark.placeholder d') 0 closePlaceholder =
      .ok (marked, i)) :
    ∃ e₁ e₂, d' = e₁ ++ brace :: e₂ ∧
      marked = spell Mark.placeholder (e₁ ++ .mark .loopCloser :: e₂) ∧
      Clean (e₁ ++ .mark .loopCloser :: e₂) ∧
      ∃ pending', Paired pending' (e₁ ++ .mark .loopCloser :: e₂) := by
  subst hd
  have hBody := (paired_append.1 hPaired).2
  rw [paired_cons_opener (q := brace) rfl] at hBody
  have hClean' := hClean.of_append_right.of_cons
  obtain ⟨e₁, e₂, rfl, rfl, hNext⟩ := exists_of_markMatchingClose (m := .loopCloser) hClean' hBody
    (by decide) (fun h => nomatch h) hMark
  exact ⟨e₁, e₂, rfl, rfl, hClean'.mark .loopCloser, _, hNext⟩

end RazorVash.Draft
