import RazorVash.Builder.Templates
import RazorVash.Proofs.Workspace.Logs

namespace RazorVash

open Job

variable {Template α : Type}

/-! ### Sites -/

structure Site.Untouched (s s' : Site Template) : Prop where
  workspace : s.workspace.LogsOnly s'.workspace
  engine : s'.engine = s.engine
  installed : s'.installed = s.installed

namespace Site

instance : IsPreorder (Site Template) Untouched where
  refl _ := ⟨.refl _, rfl, rfl⟩
  trans _ _ _ h h' := ⟨h.workspace.trans h'.workspace, h'.engine.trans h.engine,
    h'.installed.trans h.installed⟩

theorem keeps_inWorkspace {job : Job Workspace α} (h : Keeps Workspace.LogsOnly job) :
    Keeps Untouched (inWorkspace job : Job (Site Template) α) :=
  fun s => ⟨h s.workspace, rfl, rfl⟩

theorem keeps_request (request : Request Template) : Keeps Untouched (Site.request request) :=
  fun _ => ⟨.refl _, rfl, rfl⟩

theorem keeps_compile (text : Text) (options : CompileOptions) :
    Keeps Untouched (compile text options : Job (Site Template) Template) :=
  (keeps_request _).bind fun _ => keeps_get.bind fun _ => keeps_ofExcept _ _

end Site

/-! ### Models -/

namespace PageModels

open Workspace

theorem keeps_warn (message : Text) (path : Option Path) : Keeps LogsOnly (warn message path) :=
  keeps_log _

theorem keeps_readModels (path : Path) : Keeps LogsOnly (readModels path) := by
  refine keeps_get.bind fun w => ?_
  split
  · exact (keeps_warn _ _).bind fun _ => keeps_pure _
  · exact (keeps_readText _ _).bind fun _ => keeps_pure _

theorem keeps_fetch (models : PageModels) (refresh : Bool) :
    Keeps LogsOnly (models.fetch refresh) := by
  unfold fetch
  split
  · exact (keeps_warn _ _).bind fun _ => keeps_pure _
  · split
    · exact keeps_pure _
    · refine keeps_get.bind fun w => ?_
      split
      · exact (keeps_readModels _).bind fun _ => keeps_pure _
      · exact (keeps_warn _ _).bind fun _ => keeps_pure _

theorem keeps_prepend (models : PageModels) (dirType template : Text) (refresh : Bool) :
    Keeps LogsOnly (models.prepend dirType template refresh) := by
  refine (keeps_fetch _ _).bind fun found => ?_
  split <;> exact keeps_pure _

end PageModels

/-! ### Builders -/

namespace Builder

open Workspace

variable {b b' : Builder Template}

def withInstalled (b : Builder Template) (name : Text) (template : Template) : Builder Template :=
  { b with site := { b.site with
      requests := b.site.requests ++ [.install name template]
      installed := b.site.installed.put name template } }

def withRequest (b : Builder Template) (request : Request Template) : Builder Template :=
  { b with site := { b.site with requests := b.site.requests ++ [request] } }

def withWorkspace (b : Builder Template) (workspace : Workspace) : Builder Template :=
  { b with site := { b.site with workspace } }

theorem outcome_install (b : Builder Template) (name : Text) (template : Template) :
    (onSite (Site.install name template)).outcome b = (.ok (), b.withInstalled name template) := rfl

theorem outcome_siteCompile (text : Text) (options : CompileOptions) (s : Site Template) :
    (Site.compile text options).outcome s = ((s.engine.compile text options).mapError .engine,
      { s with requests := s.requests ++ [.compile text options] }) := by
  unfold Site.compile Site.request
  rw [outcome_bind_of_ok (outcome_modify _ _), outcome_bind_of_ok (outcome_get _), Site.ofEngine,
    outcome_ofExcept]

theorem outcome_compile (text : Text) (debug : Bool) (b : Builder Template) :
    (compile text debug).outcome b =
      ((b.site.engine.compile text (.ofSettings b.settings debug)).mapError .engine,
        b.withRequest (.compile text (.ofSettings b.settings debug))) := by
  rw [compile, outcome_bind_of_ok (outcome_get b), onSite, outcome_onPart, outcome_siteCompile]
  rfl

theorem outcome_inWorkspace (job : Job Workspace α) (b : Builder Template) :
    (inWorkspace job).outcome b =
      ((job.outcome b.site.workspace).1, b.withWorkspace (job.outcome b.site.workspace).2) := rfl

structure Untouched (b b' : Builder Template) : Prop where
  site : b.site.Untouched b'.site
  settings : b'.settings = b.settings
  normalizer : b'.normalizer = b.normalizer

instance : IsPreorder (Builder Template) Untouched where
  refl b := ⟨Std.Refl.refl b.site, rfl, rfl⟩
  trans _ _ _ h h' := ⟨IsTrans.trans _ _ _ h.site h'.site, h'.settings.trans h.settings,
    h'.normalizer.trans h.normalizer⟩

structure Unasked (b b' : Builder Template) : Prop where
  untouched : b.Untouched b'
  requests : b'.site.requests = b.site.requests

instance : IsPreorder (Builder Template) Unasked where
  refl b := ⟨Std.Refl.refl b, rfl⟩
  trans _ _ _ h h' := ⟨IsTrans.trans _ _ _ h.untouched h'.untouched, h'.requests.trans h.requests⟩

theorem keeps_onSite {job : Job (Site Template) α} (h : Keeps Site.Untouched job) :
    Keeps Untouched (onSite job) :=
  fun b => ⟨h b.site, rfl, rfl⟩

theorem keeps_inWorkspace {job : Job Workspace α} (h : Keeps LogsOnly job) :
    Keeps Unasked (inWorkspace job : Job (Builder Template) α) :=
  fun b => ⟨keeps_onSite (Site.keeps_inWorkspace h) b, rfl⟩

theorem keeps_models (change : Builder Template → Entries PageModels) :
    Keeps Unasked (modify fun b => { b with models := change b } : Job (Builder Template) Unit) :=
  fun b => ⟨⟨Std.Refl.refl b.site, rfl, rfl⟩, rfl⟩

theorem keeps_contentsOf (path contents : Option Text) :
    Keeps Unasked (contentsOf path contents : Job (Builder Template) Text) := by
  unfold contentsOf
  split
  · exact keeps_pure _
  · exact keeps_inWorkspace (keeps_readText _ _)
  · exact keeps_throw _

theorem keeps_normalizeText (options : NormalizerOptions) (text : Text) :
    Keeps LogsOnly (RazorVash.Template.normalizeText options text) :=
  (keeps_noted _).bind fun _ => keeps_pure _

theorem keeps_normalize (path contents : Option Text) :
    Keeps Unasked (normalize path none contents : Job (Builder Template) Normalized) :=
  (keeps_contentsOf _ _).bind fun _ => keeps_get.bind fun _ =>
    (keeps_inWorkspace (keeps_normalizeText _ _)).bind fun _ =>
      (keeps_pure _).bind fun _ => keeps_pure _

theorem keeps_modelsFor (path : Option Text) :
    Keeps Unasked (modelsFor path : Job (Builder Template) PageModels) := by
  intro b
  unfold modelsFor
  rw [outcome_bind_of_ok (outcome_get b)]
  split
  · exact Std.Refl.refl b
  · exact ⟨⟨Std.Refl.refl b.site, rfl, rfl⟩, rfl⟩

theorem keeps_prependModels (path : Option Text) (dirType template : Text) (refresh : Bool) :
    Keeps Unasked (prependModels path dirType template refresh : Job (Builder Template) Text) :=
  (keeps_modelsFor _).bind fun models =>
    (keeps_inWorkspace (models.keeps_prepend _ _ _)).bind fun _ =>
      (keeps_models _).bind fun _ => keeps_pure _

theorem keeps_compile (text : Text) (debug : Bool) :
    Keeps Untouched (compile text debug : Job (Builder Template) Template) :=
  keeps_get.bind fun _ => keeps_onSite (Site.keeps_compile _ _)

def defaultType (path : Text) : Job (Builder Template) Text := do
  let type := (← get).settings.pageDirType
  inWorkspace <| log {
    level := .warning, logger, message := defaultTypeMessage type
    data := [("tmpl_path".toList, .string path)] }
  return type

theorem typeOrPage_cases (Template : Type) (path : Text) (type : Option Text) :
    (typeOrPage path type : Job (Builder Template) Text) = defaultType path ∨
      ∃ given, (typeOrPage path type : Job (Builder Template) Text) = pure given := by
  unfold typeOrPage
  split
  · exact .inl rfl
  · exact .inl rfl
  · next given _ => exact .inr ⟨given, rfl⟩

theorem keeps_typeOrPage (path : Text) (type : Option Text) :
    Keeps Unasked (typeOrPage path type : Job (Builder Template) Text) := by
  rcases typeOrPage_cases Template path type with h | ⟨given, h⟩ <;> rw [h]
  · exact keeps_get.bind fun _ => (keeps_inWorkspace (keeps_log _)).bind fun _ => keeps_pure _
  · exact keeps_pure _

/-! ### Compilations and updates in parts -/

def precompileAs (name path : Text) (models : Option Text) (dirType : Text) (debug : Bool) :
    Job (Builder Template) Precompiled := do
  let normalized ← normalize (some path) none none
  let text ← prependModels models dirType normalized.text false
  let template ← compile text debug
  onSite (Site.install name template)
  inWorkspace <| log {
    level := .info, logger, message := precompiledMessage
    data := [("template".toList, .string name)] }
  return {
    name, warnings := normalized.warnings
    clientForm := (← get).site.engine.clientForm template }

def typeOf (settings : Settings) (file : Text) (dirTypes : Option (List Text)) : Text :=
  Naming.dirType (Naming.slash (Path.ofText file).render) (candidateTypes settings dirTypes)
    settings.pageDirType

theorem outcome_precompile (file : Text) (models : Option Text) (dirTypes : Option (List Text))
    (debug : Bool) (b : Builder Template) :
    (precompile file models dirTypes debug).outcome b =
      if b.site.workspace.tree.pathExists (Path.ofText file) then
        (precompileAs (Naming.templateName (typeOf b.settings file dirTypes)
          (Naming.slash (Path.ofText file).render)) (Path.ofText file).render models
          (typeOf b.settings file dirTypes) debug).outcome b
      else (.error (.missingTemplate (Path.ofText file)), b) := by
  unfold precompile
  rw [outcome_bind_of_ok (outcome_get b)]
  simp only
  rw [outcome_bind_of_ok (outcome_get b)]
  split <;> rfl

/-- The name and the compiled template of an update. -/
def prepare (path : Text) (dirType contents models : Option Text) (debug : Bool) :
    Job (Builder Template) (Text × Template) := do
  let dirType ← typeOrPage path dirType
  let normalized ← normalize (some path) none contents
  let text ← prependModels models dirType normalized.text contents.isNone
  let template ← compile text debug
  return (Naming.templateName dirType (Naming.slash path), template)

/-- Installs a template and stores it in a cache. -/
def keep (cachePath name : Text) (template : Template) : Job (Builder Template) Text := do
  onSite (Site.install name template)
  let cache ← Job.ofExcept id (TemplateCache.ofPath (Path.ofText cachePath))
  let _ ← inWorkspace (cache.update name ((← get).site.engine.clientForm template))
  return name

theorem updateCache_eq (path cachePath : Text) (dirType contents models : Option Text)
    (debug : Bool) :
    (updateCache path cachePath dirType contents models debug : Job (Builder Template) Text) =
      prepare path dirType contents models debug >>= fun (name, template) =>
        keep cachePath name template := by
  simp only [updateCache, prepare, keep, bind_assoc, pure_bind]

theorem prepare_eq_ok {dirType contents models : Option Text} {debug : Bool} {path name : Text}
    {template : Template}
    (h : (prepare path dirType contents models debug).outcome b = (.ok (name, template), b')) :
    ∃ text b₁, b.Unasked b₁ ∧ (compile text debug).outcome b₁ = (.ok template, b') := by
  obtain ⟨type, b₁, hType, h⟩ := outcome_bind_eq_ok.1 h
  obtain ⟨normalized, b₂, hNormalize, h⟩ := outcome_bind_eq_ok.1 h
  obtain ⟨text, b₃, hPrepend, h⟩ := outcome_bind_eq_ok.1 h
  obtain ⟨template', b₄, hCompile, h⟩ := outcome_bind_eq_ok.1 h
  obtain ⟨⟨-, rfl⟩, rfl⟩ : (_ = name ∧ template' = template) ∧ b₄ = b' := by simpa using h
  have hTyped := Keeps.of_outcome (keeps_typeOrPage _ _) hType
  have hNormalized := Keeps.of_outcome (keeps_normalize _ _) hNormalize
  have hPrepended := Keeps.of_outcome (keeps_prependModels _ _ _ _) hPrepend
  exact ⟨text, b₃, IsTrans.trans _ _ _ hTyped (IsTrans.trans _ _ _ hNormalized hPrepended), hCompile⟩

theorem keeps_prepare (path : Text) (dirType contents models : Option Text) (debug : Bool) :
    Keeps Untouched (prepare path dirType contents models debug :
      Job (Builder Template) (Text × Template)) :=
  have hWeaker (b b' : Builder Template) (h : b.Unasked b') : b.Untouched b' := h.untouched
  ((keeps_typeOrPage _ _).mono hWeaker).bind fun _ => ((keeps_normalize _ _).mono hWeaker).bind fun _ =>
    ((keeps_prependModels _ _ _ _).mono hWeaker).bind fun _ => (keeps_compile _ _).bind fun _ =>
      keeps_pure _

end Builder

end RazorVash
