import RazorVash.Proofs.Builder.Stages
import RazorVash.Proofs.Helper.Packaged

namespace RazorVash

open Job Workspace

variable {Template : Type}

namespace Helper

theorem exists_normalizeText {normalizer : NormalizerOptions} {text : Text} (w : Workspace)
    (h : ∃ out, RazorVash.Template.normalize normalizer text none none = .ok out) :
    ∃ normalized, (RazorVash.Template.normalizeText normalizer text).outcome w =
      (.ok normalized, w) := by
  obtain ⟨out, h⟩ := h
  refine ⟨⟨out, []⟩, ?_⟩
  rw [RazorVash.Template.normalizeText, RazorVash.Template.normalizeMarked, h]
  rfl

theorem exists_load (options : CompileOptions) (normalizer : NormalizerOptions)
    {helper : PackagedHelper} (hHelper : helper ∈ PackagedHelper.all)
    (s : Site Template) (hCompiles : ∀ text, s.engine.compileHelper text options = .ok ()) :
    ∃ s', (load options normalizer (.packaged helper)).outcome s = (.ok (), s') ∧ s.Untouched s' := by
  obtain ⟨normalized, hNormalize⟩ := exists_normalizeText s.workspace
    (PackagedHelper.exists_normalize normalizer hHelper)
  have hText : (Site.inWorkspace (do
      RazorVash.Template.normalizeText normalizer (← (packaged helper).readText))).outcome s =
        (.ok normalized, s) := by
    rw [Site.inWorkspace, outcome_onPart, readText, pure_bind, hNormalize]
  have hCompile : (Site.compileHelper normalized.text options).outcome s =
      (.ok (), { s with requests := s.requests ++ [.compileHelper normalized.text options] }) := by
    rw [Site.compileHelper, Site.request, outcome_bind_of_ok (outcome_modify _ _),
      outcome_bind_of_ok (outcome_get _), Site.ofEngine, outcome_ofExcept, hCompiles]
    rfl
  unfold load
  rw [outcome_bind_of_ok hText, outcome_bind_of_ok hCompile]
  exact ⟨_, rfl, IsTrans.trans _ _ _ (Site.keeps_request _ s)
    (Site.keeps_inWorkspace (keeps_log _) _)⟩

theorem resolve_nil : resolve [] = PackagedHelper.all.map .packaged := rfl

end Helper

/-- The packaged helpers are loaded if the engine compiles them. -/
theorem Builder.exists_loadHelpers {b : Builder Template}
    (hCompiles : ∀ text options, b.site.engine.compileHelper text options = .ok ()) :
    ∃ b', (loadHelpers []).outcome b = (.ok PackagedHelper.all.length, b') ∧ b.Untouched b' := by
  have hEach : ∀ helper ∈ Helper.resolve [], ∀ s : Site Template, b.site.Untouched s →
      ∃ s', (Helper.load (.ofSettings b.settings false) b.normalizer helper).outcome s = (.ok (), s') ∧
        b.site.Untouched s' := by
    intro helper hHelper s hs
    rw [Helper.resolve_nil] at hHelper
    obtain ⟨packaged, hPackaged, rfl⟩ := List.mem_map.1 hHelper
    have hCompiles' (text : Text) :
        s.engine.compileHelper text (.ofSettings b.settings false) = .ok () := by
      rw [hs.engine]
      exact hCompiles _ _
    obtain ⟨s', hLoad, hs'⟩ := Helper.exists_load _ b.normalizer hPackaged s hCompiles'
    exact ⟨s', hLoad, IsTrans.trans _ _ _ hs hs'⟩
  obtain ⟨s, hLoad, hs⟩ := exists_forM hEach (Std.Refl.refl b.site)
  refine ⟨{ b with site := s }, ?_, hs, rfl, rfl⟩
  rw [loadHelpers, outcome_bind_of_ok (outcome_get b), onSite, outcome_onPart, Helper.loadAll,
    outcome_bind_of_ok hLoad]
  rfl

end RazorVash
