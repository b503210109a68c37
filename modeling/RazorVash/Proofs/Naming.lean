import RazorVash.Naming
import RazorVash.Proofs.Storage.Path

namespace RazorVash.Naming

variable {path other : Text}

theorem slash_of_notMem (h : '\\' ∉ path) : slash path = path := by
  refine (List.map_congr_left fun c hc => if_neg ?_).trans (List.map_id' path)
  rintro rfl
  exact h hc

theorem foldl_step_filter (rooted : Bool) (segments kept : List Text) :
    (segments.filter fun segment => segment ≠ [] ∧ segment ≠ ['.']).foldl
        (simplifySegments.step rooted) kept =
      segments.foldl (simplifySegments.step rooted) kept := by
  induction segments generalizing kept with
  | nil => rfl
  | cons segment segments ih =>
    rw [List.filter_cons]
    split
    · exact ih _
    · next hDropped =>
      have hEmpty : segment = [] ∨ segment = ['.'] := by
        by_cases h : segment = []
        · exact .inl h
        · exact .inr (by simpa [h] using hDropped)
      rw [ih, List.foldl_cons, simplifySegments.step.eq_def, if_pos hEmpty]

theorem simplify_eq (path : Text) :
    simplify path =
      match (Path.ofText path).root ++ Text.join ['/'] (simplifySegments
        ((Path.ofText path).root ≠ []) (Path.ofText path).segments) with
      | [] => ['.']
      | simplified => simplified := by
  simp only [simplify, Path.ofText, simplifySegments, foldl_step_filter]
  rfl

/-- The simplest spelling is that of the path, however it is written. -/
theorem simplify_congr (h : Path.ofText path = Path.ofText other) :
    simplify path = simplify other := by
  rw [simplify_eq, simplify_eq, h]

theorem templateName_render (dirType : Text) (h : '\\' ∉ path) :
    templateName dirType (slash (Path.ofText path).render) = templateName dirType (slash path) := by
  have hRender : '\\' ∉ (Path.ofText path).render := by
    intro hc
    rcases Path.mem_render_ofText hc with hc | hc | hc
    · exact h hc
    · cases hc
    · cases hc
  have hSimplest := simplify_congr (Path.ofText_render_ofText path)
  simp only [templateName, moduleName, slash_of_notMem h, slash_of_notMem hRender, hSimplest]

end RazorVash.Naming
