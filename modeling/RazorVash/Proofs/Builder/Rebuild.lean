import RazorVash.Proofs.Builder.BothCaches
import RazorVash.Proofs.Builder.Models
import RazorVash.Proofs.Naming
import RazorVash.Proofs.Workspace.Files

namespace RazorVash.Builder

open Job Workspace

variable {Template : Type} {b b' b₁ b₂ b₃ : Builder Template} {w : Workspace}
  {name path dirType text cachePath file modelsPath : Text} {models : Option Text} {debug : Bool}
  {normalized : Normalized} {template : Template}

def fresh (b : Builder Template) : Builder Template := { b with models := [] }

def normalizeFile (options : NormalizerOptions) (path : Path) : Job Workspace Normalized := do
  let text ← readText path standardEncoding
  RazorVash.Template.normalizeText options text

theorem outcome_normalize_file (path : Text) (b : Builder Template) :
    (normalize (some path) none none).outcome b =
      (inWorkspace (normalizeFile b.normalizer (Path.ofText path))).outcome b := by
  have hContents : (contentsOf (some path) none : Job (Builder Template) Text) =
      inWorkspace (readText (Path.ofText path) standardEncoding) := rfl
  rw [normalize, outcome_bind, hContents, outcome_inWorkspace, outcome_inWorkspace, outcome_readText,
    normalizeFile, outcome_bind, outcome_readText]
  rcases b.site.workspace.tree.textAt (Path.ofText path) standardEncoding with f | text
  · rfl
  · simp only
    rw [outcome_bind_of_ok (outcome_get _), outcome_bind, outcome_inWorkspace]
    simp only [withWorkspace]
    rcases (RazorVash.Template.normalizeText b.normalizer text).outcome b.site.workspace with
      ⟨_ | _, _⟩ <;> rfl

theorem pathExists_of_normalize
    (h : (normalize (some path) none none).outcome b = (.ok normalized, b')) :
    b.site.workspace.tree.pathExists (Path.ofText path) = true := by
  rw [outcome_normalize_file, outcome_inWorkspace, normalizeFile, outcome_bind, outcome_readText] at h
  rcases hText : b.site.workspace.tree.textAt (Path.ofText path) standardEncoding with f | text
  · rw [hText] at h
    cases (Prod.mk.inj h).1
  · obtain ⟨bytes, hBytes⟩ := TemplateCache.exists_readBytes_of_textAt hText
    obtain ⟨l, hl, hFile⟩ := Tree.readBytes_eq_ok.1 hBytes
    simp [Tree.pathExists, Tree.entryAt?, hl, hFile]

theorem prepare_file_eq_ok (hType : dirType ≠ [])
    (h : (prepare path (some dirType) none models debug).outcome b = (.ok (name, template), b')) :
    ∃ normalized text b₁ b₂, (normalize (some path) none none).outcome b = (.ok normalized, b₁) ∧
      (prependModels models dirType normalized.text true).outcome b₁ = (.ok text, b₂) ∧
      (compile text debug).outcome b₂ = (.ok template, b') ∧
      name = Naming.templateName dirType (Naming.slash path) := by
  obtain ⟨c, rest, rfl⟩ := List.exists_cons_of_ne_nil hType
  obtain ⟨type, b₀, hGiven, h⟩ := outcome_bind_eq_ok.1 h
  obtain ⟨rfl, rfl⟩ : c :: rest = type ∧ b = b₀ := by simpa [typeOrPage] using hGiven
  obtain ⟨normalized, b₁, hNormalize, h⟩ := outcome_bind_eq_ok.1 h
  obtain ⟨text, b₂, hPrepend, h⟩ := outcome_bind_eq_ok.1 h
  obtain ⟨template', b₃, hCompile, h⟩ := outcome_bind_eq_ok.1 h
  obtain ⟨⟨rfl, rfl⟩, rfl⟩ : (_ = name ∧ template' = template) ∧ b₃ = b' := by simpa using h
  exact ⟨normalized, text, b₁, b₂, hNormalize, hPrepend, hCompile, rfl⟩

theorem exists_precompileAs (name : Text)
    (hNormalize : (normalize (some path) none none).outcome b = (.ok normalized, b₁))
    (hPrepend : (prependModels models dirType normalized.text false).outcome b₁ = (.ok text, b₂))
    (hCompile : (compile text debug).outcome b₂ = (.ok template, b₃)) :
    ∃ b', (precompileAs name path models dirType debug).outcome b =
        (.ok ⟨name, b₃.site.engine.clientForm template, normalized.warnings⟩, b') ∧
      b'.site.requests.getLast? = some (.install name template) := by
  unfold precompileAs
  rw [outcome_bind_of_ok hNormalize, outcome_bind_of_ok hPrepend, outcome_bind_of_ok hCompile,
    outcome_bind_of_ok (outcome_install b₃ name template)]
  exact ⟨_, rfl, by simp [withInstalled]⟩

/-- What an update of a builder with the right models makes is what a fresh builder makes. -/
theorem exists_precompileAs_of_prepare (hMatch : ModelsMatch b) (hModels : modelsPath ≠ noPath)
    (hType : dirType ≠ [])
    (h : (prepare path (some dirType) none (some modelsPath) debug).outcome b =
      (.ok (name, template), b')) :
    ∃ warnings rebuilt, (precompileAs name path (some modelsPath) dirType debug).outcome b.fresh =
        (.ok ⟨name, b.site.engine.clientForm template, warnings⟩, rebuilt) ∧
      rebuilt.site.requests.getLast? = some (.install name template) := by
  obtain ⟨normalized, text, b₁, b₂, hNormalize, hPrepend, hCompile, -⟩ :=
    prepare_file_eq_ok hType h
  -- the fresh builder normalizes the same file in the same workspace
  rw [outcome_normalize_file, outcome_inWorkspace] at hNormalize
  obtain ⟨hResult, rfl⟩ := Prod.mk.inj hNormalize
  set w := ((normalizeFile b.normalizer (Path.ofText path)).outcome b.site.workspace).2
  have hNormalize' : (normalize (some path) none none).outcome b.fresh =
      (.ok normalized, b.fresh.withWorkspace w) := by
    rw [outcome_normalize_file, outcome_inWorkspace]
    exact Prod.ext hResult rfl
  -- its models are new ones of the same path, for the same type
  obtain ⟨hPath, hPageType⟩ := hMatch modelsPath hModels
  rw [outcome_prependModels] at hPrepend
  split at hPrepend
  · next text' after w₂ hPrepended =>
    obtain ⟨rfl, rfl⟩ : text' = text ∧ _ = b₂ := by simpa using hPrepend
    obtain ⟨after', hPrepended'⟩ := PageModels.prepend_refresh
      (PageModels.ofPath (some modelsPath) b.settings.pageDirType) hPath.symm rfl hPageType.symm
      hPrepended
    have hPrepend' := outcome_prependModels_of_ok (b.fresh.withWorkspace w) (some modelsPath)
      hPrepended'
    -- and so it compiles the same text
    rw [outcome_compile] at hCompile
    have hCompile' := outcome_compile text' debug
      (((b.fresh.withWorkspace w).withModels (some modelsPath) after').withWorkspace w₂)
    obtain ⟨rebuilt, hRun, hInstalled⟩ := exists_precompileAs name hNormalize' hPrepend'
      (hCompile'.trans (Prod.ext (Prod.mk.inj hCompile).1 rfl))
    exact ⟨normalized.warnings, rebuilt, hRun, hInstalled⟩
  · cases (Prod.mk.inj hPrepend).1

/-- A file is the same however its path is spelled. -/
theorem outcome_precompileAs_render (b : Builder Template) :
    (precompileAs name (Path.ofText file).render models dirType debug).outcome b =
      (precompileAs name file models dirType debug).outcome b := by
  have hFile : (normalize (some (Path.ofText file).render) none none).outcome b =
      (normalize (some file) none none).outcome b := by
    rw [outcome_normalize_file, outcome_normalize_file, Path.ofText_render_ofText]
  unfold precompileAs
  rw [outcome_bind, outcome_bind, hFile]

/-- An update of a page and its models gives the name, installs the template and stores the client form
that a fresh builder makes of the same files. -/
theorem exists_precompile_of_updateCache (hReachable : Reachable b) (hFile : '\\' ∉ file)
    (hModels : modelsPath ≠ noPath) (hType : typeOf b.settings file none ≠ [])
    (hForms : ∀ template, ∃ form, b.site.engine.clientForm template = .string form)
    (hUnlogged : Unlogged (Path.ofText cachePath) b.site.workspace)
    (h : (updateCache file cachePath (some (typeOf b.settings file none)) none (some modelsPath)
      debug).outcome b = (.ok name, b')) :
    ∃ precompiled rebuilt template,
      (precompile file (some modelsPath) none debug).outcome b.fresh = (.ok precompiled, rebuilt) ∧
        precompiled.name = name ∧
        precompiled.clientForm = b'.site.engine.clientForm template ∧
        rebuilt.site.requests.getLast? = some (.install name template) ∧
        Kept cachePath name template b' := by
  rw [updateCache_eq] at h
  obtain ⟨⟨name', template⟩, b₁, hPrepare, hKeep⟩ := outcome_bind_eq_ok.1 h
  have hUntouched := Keeps.of_outcome (keeps_prepare _ _ _ _ _) hPrepare
  obtain ⟨rfl, hEngine, hKept⟩ := kept_of_keep (by rwa [hUntouched.site.engine])
    (hUntouched.site.workspace.unlogged hUnlogged) hKeep
  obtain ⟨warnings, rebuilt, hRun, hInstalled⟩ :=
    exists_precompileAs_of_prepare hReachable.modelsMatch hModels hType hPrepare
  obtain ⟨normalized, _, _, _, hNormalize, -, -, hName⟩ := prepare_file_eq_ok hType hPrepare
  have hExists : b.site.workspace.tree.pathExists (Path.ofText file) = true :=
    pathExists_of_normalize hNormalize
  have hSite : b.fresh.site = b.site := rfl
  have hSettings : b.fresh.settings = b.settings := rfl
  refine ⟨⟨name, b.site.engine.clientForm template, warnings⟩, rebuilt, template, ?_, rfl, ?_,
    hInstalled, hKept⟩
  · rw [outcome_precompile, hSite, if_pos hExists, outcome_precompileAs_render, hSettings,
      Naming.templateName_render _ hFile, ← hName, hRun]
  · rw [hEngine, hUntouched.site.engine]

def pageAndModels : Builder Text :=
  { verbatim with site := { verbatim.site with workspace := { Workspace.empty with
      tree := {
        entries := [
          (["app".toList], .directory), (["app".toList, "pg".toList], .directory),
          (["app".toList, "pg".toList, "Index.vash".toList],
            .file (Encoding.encodeUtf8 "<p>@a.Count</p>".toList)),
          (["models.js".toList], .file (Encoding.encodeUtf8 "var a = [];".toList))]
        current := [] } } } }

theorem exists_precompile_pageAndModels :
    let b := pageAndModels
    let file := "./app/pg//Index.vash".toList
    let update := (updateCache file "cache.json".toList (some (typeOf b.settings file none)) none
      (some "models.js".toList) false).outcome b
    ∃ precompiled rebuilt template,
      (precompile file (some "models.js".toList) none false).outcome b.fresh =
          (.ok precompiled, rebuilt) ∧
        precompiled.name = "pg_Index".toList ∧
        precompiled.clientForm = update.2.site.engine.clientForm template ∧
        rebuilt.site.requests.getLast? = some (.install "pg_Index".toList template) ∧
        Kept "cache.json".toList "pg_Index".toList template update.2 := by
  intro b file update
  have hOk : update.1 = .ok "pg_Index".toList := Outcome.eq_ok_of_toOption (by decide +kernel)
  exact exists_precompile_of_updateCache (.fresh rfl) (by decide) (by decide) (by decide)
    (fun text => ⟨text, rfl⟩) (fun _ _ _ hh => by cases hh) (Prod.ext hOk rfl)

end RazorVash.Builder
