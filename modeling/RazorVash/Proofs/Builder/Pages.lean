import RazorVash.Builder.Pages
import RazorVash.Proofs.Builder.BothCaches
import RazorVash.Proofs.Helper.Loading

namespace RazorVash

open Job Workspace

variable {Template : Type} {engine : Engine Template} {s : Site Template} {b b' : Builder Template}
  {cachePath name : Text} {template : Template} {reload : Template → Template}
  {kept : Entries Template} {calls : Entries (List (Request Template))}

/-- An engine whose templates outlive their client forms. Nothing fails in it but the compilation of
templates. -/
structure Engine.Faithful (engine : Engine Template) : Prop where
  compileHelper : ∀ text options, engine.compileHelper text options = .ok ()
  clientForm : ∀ template, ∃ form, engine.clientForm template = .string form
  load : ∀ template, ∃ reloaded, engine.load (engine.clientForm template) = .ok reloaded ∧
    engine.render reloaded = engine.render template
  render : ∀ template model, ∃ contents, engine.render template model = .ok contents

namespace Builder

/-! ### Installing from a cache -/

def forms (engine : Engine Template) (kept : Entries Template) : Entries Json :=
  kept.map fun entry => (entry.1, engine.clientForm entry.2)

def reloaded (reload : Template → Template) (kept : Entries Template) : Entries Template :=
  kept.map fun entry => (entry.1, reload entry.2)

theorem outcome_installEntry (name : Text) {form : Json} (h : s.engine.load form = .ok template) :
    (installEntry (name, form)).outcome s = (.ok (name, template),
      { s with
        requests := s.requests ++ [.load form] ++ [.install name template]
        installed := s.installed.put name template }) := by
  have hLoad : (Site.load form).outcome s =
      (.ok template, { s with requests := s.requests ++ [.load form] }) := by
    rw [Site.load, Site.request, outcome_bind_of_ok (outcome_modify _ _),
      outcome_bind_of_ok (outcome_get _), Site.ofEngine, outcome_ofExcept, h]
    rfl
  rw [installEntry, outcome_bind_of_ok hLoad]
  rfl

theorem exists_installEntries (kept : Entries Template) (hEngine : s.engine = engine)
    (hLoad : ∀ template, engine.load (engine.clientForm template) = .ok (reload template)) :
    ∃ s', ((forms engine kept).mapM installEntry).outcome s = (.ok (reloaded reload kept), s') ∧
      s'.engine = engine ∧ s'.installed = s.installed.putAll (reloaded reload kept) := by
  induction kept generalizing s with
  | nil => exact ⟨s, rfl, hEngine, rfl⟩
  | cons entry kept ih =>
    obtain ⟨name, template⟩ := entry
    subst hEngine
    have hInstall := outcome_installEntry name (hLoad template)
    obtain ⟨s', hRest, hEngine, hInstalled⟩ := ih (s := { s with
      requests := s.requests ++ [.load (s.engine.clientForm template)] ++
        [.install name (reload template)]
      installed := s.installed.put name (reload template) }) rfl
    refine ⟨s', ?_, hEngine, hInstalled⟩
    rw [forms, List.map_cons, List.mapM_cons, outcome_bind_of_ok hInstall, ← forms,
      outcome_bind_of_ok hRest]
    rfl

theorem exists_installFrom_of_missing (name : Text)
    (h : b.site.workspace.tree.pathExists (Path.ofText cachePath) = false) :
    ∃ b', (installFrom cachePath name).outcome b = (.ok none, b') := by
  obtain ⟨w, hLoad, -⟩ := TemplateCache.exists_load?_of_missing h
  refine ⟨b.withWorkspace w, ?_⟩
  rw [installFrom, outcome_bind, outcome_inWorkspace, hLoad]
  rfl

theorem exists_installFrom (name : Text) (hEngine : b.site.engine = engine)
    (hJson : TemplateCache.isJsonFile (Path.ofText cachePath) = true)
    (hPresent : b.site.workspace.tree.pathExists (Path.ofText cachePath) = true)
    (hHeld : TemplateCache.held (Path.ofText cachePath) b.site.workspace.tree =
      .ok (forms engine kept))
    (hLoad : ∀ template, engine.load (engine.clientForm template) = .ok (reload template)) :
    ∃ b', (installFrom cachePath name).outcome b = (.ok ((kept.find? name).map reload), b') ∧
      b'.site.engine = engine ∧
      b'.site.installed = b.site.installed.putAll (reloaded reload kept) := by
  obtain ⟨s', hInstall, hEngine', hInstalled⟩ := exists_installEntries kept hEngine hLoad
  refine ⟨{ b with site := s' }, ?_, hEngine', hInstalled⟩
  have hFound : Entries.find? name (reloaded reload kept) = (kept.find? name).map reload :=
    Entries.find?_map kept reload name
  rw [installFrom, outcome_bind, outcome_inWorkspace,
    TemplateCache.outcome_load?_of_exists hJson hPresent, hHeld]
  simp only [Except.map]
  rw [outcome_bind, onSite, outcome_onPart, ← hFound]
  have hSame : (b.withWorkspace b.site.workspace).site = b.site := rfl
  rw [hSame, hInstall]
  rfl

/-! ### Histories of a cache -/

/-- Requests that compile a text to a template and install it under a name. -/
def Compiles (engine : Engine Template) (name : Text) (template : Template)
    (requests : List (Request Template)) : Prop :=
  ∃ text options, engine.compile text options = .ok template ∧
    requests = [.compile text options, .install name template]

/-- Updates of a cache file that was missing at first: the names that they gave, each with what the
engine was asked for. In between there may be another builder and anything may happen, but not to the
cache file. -/
inductive History (engine : Engine Template) (cachePath : Text) :
    Entries (List (Request Template)) → Builder Template → Prop
  | start {b : Builder Template} : b.site.engine = engine →
    b.site.workspace.tree.pathExists (Path.ofText cachePath) = false →
    Unlogged (Path.ofText cachePath) b.site.workspace → History engine cachePath [] b
  | update {b b' : Builder Template} {calls : Entries (List (Request Template))} {name : Text}
      (path : Text) (dirType contents models : Option Text) (debug : Bool) :
    History engine cachePath calls b →
    (updateCache path cachePath dirType contents models debug).outcome b = (.ok name, b') →
    History engine cachePath
      (calls ++ [(name, b'.site.requests.drop b.site.requests.length)]) b'
  | elsewhere {b b' : Builder Template} {calls : Entries (List (Request Template))} :
    History engine cachePath calls b → b'.site.engine = engine →
    b'.site.workspace.tree.pathExists (Path.ofText cachePath) =
      b.site.workspace.tree.pathExists (Path.ofText cachePath) →
    b'.site.workspace.tree.readBytes (Path.ofText cachePath) =
      b.site.workspace.tree.readBytes (Path.ofText cachePath) →
    Unlogged (Path.ofText cachePath) b'.site.workspace → History engine cachePath calls b'

/-- A successful update asks the engine to compile a text and to install the template under the name
that it gives, and the client form is stored under that name. -/
theorem updateCache_eq_ok {path : Text} {dirType contents models : Option Text} {debug : Bool}
    (hForms : ∀ template, ∃ form, b.site.engine.clientForm template = .string form)
    (hUnlogged : Unlogged (Path.ofText cachePath) b.site.workspace)
    (h : (updateCache path cachePath dirType contents models debug).outcome b = (.ok name, b')) :
    ∃ template entries l, b'.site.engine = b.site.engine ∧
      Compiles b.site.engine name template (b'.site.requests.drop b.site.requests.length) ∧
      TemplateCache.isJsonFile (Path.ofText cachePath) = true ∧
      TemplateCache.held (Path.ofText cachePath) b.site.workspace.tree = .ok entries ∧
      TemplateCache.Stored (Path.ofText cachePath)
        (Json.rereadMembers (entries.put name (b.site.engine.clientForm template))) l
        b'.site.workspace := by
  rw [updateCache_eq] at h
  obtain ⟨⟨name', template⟩, b₂, hPrepare, hKeep⟩ := outcome_bind_eq_ok.1 h
  obtain ⟨text, b₁, hUnasked, hCompile⟩ := prepare_eq_ok hPrepare
  have hUntouched := Keeps.of_outcome (keeps_prepare _ _ _ _ _) hPrepare
  have hEngine := hUntouched.site.engine
  obtain ⟨rfl, hJson, w, entries, l, rfl, hHeld, hStored⟩ := keep_eq_ok (by rwa [hEngine])
    (hUntouched.site.workspace.unlogged hUnlogged) hKeep
  rw [TemplateCache.held_of_logsOnly hUntouched.site.workspace hUnlogged] at hHeld
  rw [hEngine] at hStored
  refine ⟨template, entries, l, hEngine, ?_, hJson, hHeld, hStored⟩
  rw [outcome_compile, hUnasked.untouched.site.engine] at hCompile
  obtain ⟨hResult, rfl⟩ := Prod.mk.inj hCompile
  refine ⟨text, .ofSettings b₁.settings debug, ?_, ?_⟩
  · rcases hText : b.site.engine.compile text (.ofSettings b₁.settings debug) with f | template'
    · rw [hText] at hResult
      cases hResult
    · rw [hText] at hResult
      exact congrArg Except.ok (Except.ok.inj hResult)
  · simp [withWorkspace, withInstalled, withRequest, hUnasked.requests]

/-- What a cache file holds after its updates. -/
structure Cached (engine : Engine Template) (cachePath : Text)
    (calls : Entries (List (Request Template))) (b : Builder Template) : Prop where
  sameEngine : b.site.engine = engine
  unlogged : Unlogged (Path.ofText cachePath) b.site.workspace
  json : calls ≠ [] → TemplateCache.isJsonFile (Path.ofText cachePath) = true
  present : b.site.workspace.tree.pathExists (Path.ofText cachePath) = decide (calls ≠ [])
  held : ∃ kept : Entries Template,
    List.Forall₂ (fun call entry => entry.1 = call.1 ∧ Compiles engine call.1 entry.2 call.2)
      calls kept ∧
    TemplateCache.held (Path.ofText cachePath) b.site.workspace.tree =
      .ok (forms engine (Entries.putAll [] kept))

theorem Cached.update {path : Text} {dirType contents models : Option Text} {debug : Bool}
    (hForms : ∀ template, ∃ form, engine.clientForm template = .string form)
    (hCached : Cached engine cachePath calls b)
    (h : (updateCache path cachePath dirType contents models debug).outcome b = (.ok name, b')) :
    Cached engine cachePath
      (calls ++ [(name, b'.site.requests.drop b.site.requests.length)]) b' := by
  obtain ⟨kept, hKept, hHeld⟩ := hCached.held
  have hEngine := hCached.sameEngine
  obtain ⟨template, entries, l, hEngine', hCompiles, hJson, hEntries, hStored⟩ :=
    updateCache_eq_ok (by rwa [hEngine]) hCached.unlogged h
  rw [hEngine] at hEngine' hCompiles hStored
  obtain rfl : forms engine (Entries.putAll [] kept) = entries :=
    Except.ok.inj (hHeld.symm.trans hEntries)
  have hPut : (forms engine (Entries.putAll [] kept)).put name (engine.clientForm template) =
      forms engine (Entries.putAll [] (kept ++ [(name, template)])) := by
    rw [Entries.putAll_concat]
    exact Entries.put_map _ engine.clientForm name template
  have hExact : ∀ entry ∈ forms engine (Entries.putAll [] (kept ++ [(name, template)])),
      entry.2.Exact := by
    intro entry he
    obtain ⟨_, -, rfl⟩ := List.mem_map.1 he
    obtain ⟨form, hForm⟩ := hForms _
    rw [hForm]
    exact .string form
  -- client forms are strings, so they are read as they were written
  have hNext := hStored.held
  rw [hPut, Json.Exact.rereadMembers_eq_self hExact] at hNext
  exact {
    sameEngine := hEngine'
    unlogged := hStored.unlogged
    json := fun _ => hJson
    present := by simp [hStored.present]
    held := ⟨_, List.rel_append hKept (.cons ⟨rfl, hCompiles⟩ .nil), hNext⟩ }

theorem History.cached (hForms : ∀ template, ∃ form, engine.clientForm template = .string form)
    (h : History engine cachePath calls b) : Cached engine cachePath calls b := by
  induction h with
  | start hEngine hMissing hUnlogged =>
    refine ⟨hEngine, hUnlogged, fun h => absurd rfl h, by simpa using hMissing, [], .nil, ?_⟩
    rw [TemplateCache.held, if_neg (by simp [hMissing])]
    rfl
  | update path dirType contents models debug _ hUpdate ih => exact ih.update hForms hUpdate
  | elsewhere _ hEngine hPresent hBytes hUnlogged ih =>
    obtain ⟨kept, hKept, hHeld⟩ := ih.held
    refine ⟨hEngine, hUnlogged, ih.json, hPresent.trans ih.present, kept, hKept, ?_⟩
    -- all that is held depends on is whether the file is there and its bytes
    rw [← hHeld]
    unfold TemplateCache.held Tree.textAt
    rw [hPresent, hBytes]

/-! ### Rendering -/

/-- A page is rendered as the text that was compiled last under the name of its template, and not
without one. -/
structure RendersLast (engine : Engine Template) (calls : Entries (List (Request Template)))
    (name page : Text) (model : Json) (rendering : Rendering) : Prop where
  cached : ∀ requests, Entries.find? name calls.reverse = some requests →
    rendering.success = true ∧ ∃ template, Compiles engine name template requests ∧
      engine.render template model = .ok rendering.contents
  absent : Entries.find? name calls.reverse = none →
    rendering.success = false ∧ rendering.contents = .string [] ∧ page ∈ rendering.errors

/-- Under every name of a cache a template is installed that renders as the last one of that name. -/
def InstallsLast (engine : Engine Template) (calls : Entries (List (Request Template)))
    (installed : Entries Template) : Prop :=
  ∀ name requests, Entries.find? name calls.reverse = some requests →
    ∃ template reloaded, Compiles engine name template requests ∧
      installed.find? name = some reloaded ∧ engine.render reloaded = engine.render template

def renderFound (engine : Engine Template) (page : Text) (model : Json) :
    Option Template → Except Failure Rendering
  | none => .ok (.absent page)
  | some template => ((engine.render template model).mapError .engine).map .page

theorem outcome_renderPage {page : Text} {count : Nat} {found : Option Template}
    {helpers : List Path} {b₁ b₂ : Builder Template}
    (hHelpers : (loadHelpers helpers).outcome b = (.ok count, b₁))
    (hFound : (installFrom cachePath (pageTemplate b₁.settings page)).outcome b₁ = (.ok found, b₂))
    (model : Json) :
    (renderPage cachePath page helpers model).outcome b =
      (renderFound b₂.site.engine page model found, b₂) := by
  rw [renderPage, outcome_bind_of_ok hHelpers, outcome_bind_of_ok (outcome_get b₁),
    outcome_bind_of_ok hFound]
  rcases found with _ | template
  · rfl
  · simp only
    rw [outcome_bind, onSite, outcome_onPart, Site.render, outcome_bind_of_ok (outcome_get _),
      Site.ofEngine, outcome_ofExcept, renderFound]
    rcases b₂.site.engine.render template model with _ | _ <;> rfl

theorem rendersLast_absent {page : Text} {model : Json}
    (h : Entries.find? name calls.reverse = none) :
    RendersLast engine calls name page model (.absent page) where
  cached requests hCall := by
    rw [h] at hCall
    cases hCall
  absent _ := ⟨rfl, rfl, by simp [Rendering.errors]⟩

theorem rendersLast_page {page : Text} {model contents : Json} {requests : List (Request Template)}
    (h : Entries.find? name calls.reverse = some requests)
    (hCompiles : Compiles engine name template requests)
    (hRender : engine.render template model = .ok contents) :
    RendersLast engine calls name page model (.page contents) where
  cached requests' hCall := by
    obtain rfl : requests = requests' := Option.some.inj (h.symm.trans hCall)
    exact ⟨rfl, template, hCompiles, hRender⟩
  absent hCall := by
    rw [h] at hCall
    cases hCall

/-- A template that was found by its client form is rendered as the one that was kept. -/
theorem exists_renderFound {found : Option Template} (hFaithful : engine.Faithful)
    (hSame : ∀ template, engine.render (reload template) = engine.render template)
    (hLast : Option.Rel (fun requests template => Compiles engine name template requests)
      (Entries.find? name calls.reverse) found) (page : Text) (model : Json) :
    ∃ rendering, renderFound engine page model (found.map reload) = .ok rendering ∧
      RendersLast engine calls name page model rendering := by
  generalize hCall : Entries.find? name calls.reverse = call at hLast
  cases hLast with
  | none => exact ⟨_, rfl, rendersLast_absent hCall⟩
  | @some _ template hCompiles =>
    obtain ⟨contents, hRender⟩ := hFaithful.render template model
    refine ⟨.page contents, ?_, rendersLast_page hCall hCompiles hRender⟩
    rw [Option.map_some, renderFound, hSame, hRender]
    rfl

section Kept
variable (hKept : List.Forall₂
  (fun call entry => entry.1 = call.1 ∧ Compiles engine call.1 entry.2 call.2) calls kept)
include hKept

theorem rel_find?_kept (name : Text) :
    Option.Rel (fun requests template => Compiles engine name template requests)
      (Entries.find? name calls.reverse) (Entries.find? name (Entries.putAll [] kept)) := by
  have hNil : Entries.find? name ([] : Entries Template) = none := rfl
  rw [Entries.find?_putAll, hNil, Option.or_none]
  exact Entries.rel_find? (R := fun name requests template => Compiles engine name template requests)
    (List.rel_reverse hKept) name

theorem installsLast_reloaded
    (hSame : ∀ template, engine.render (reload template) = engine.render template)
    (installed : Entries Template) :
    InstallsLast engine calls (installed.putAll (reloaded reload (Entries.putAll [] kept))) := by
  intro name requests hCall
  have hNodup : (Entries.names (reloaded reload (Entries.putAll [] kept))).Nodup := by
    rw [reloaded, Entries.names_map]
    exact Entries.nodup_names_putAll List.nodup_nil
  have hLast := rel_find?_kept hKept name
  rw [hCall] at hLast
  generalize hFound : Entries.find? name (Entries.putAll [] kept) = found at hLast
  cases hLast with
  | @some _ template hCompiles =>
    refine ⟨template, reload template, hCompiles, ?_, hSame template⟩
    -- a name is kept once, so the first of its templates is the last
    rw [Entries.find?_putAll, Entries.find?_reverse hNodup, reloaded, Entries.find?_map, hFound]
    rfl

end Kept

/-- What was cached last is what renders, and what is installed. -/
theorem rendersLast_of_history (hFaithful : engine.Faithful)
    (h : History engine cachePath calls b) (page : Text) (model : Json) :
    ∃ rendering b', (renderPage cachePath page [] model).outcome b = (.ok rendering, b') ∧
      RendersLast engine calls (pageTemplate b.settings page) page model rendering ∧
      InstallsLast engine calls b'.site.installed := by
  have hCached := h.cached hFaithful.clientForm
  obtain ⟨kept, hKept, hHeld⟩ := hCached.held
  have hHelpersCompile := hFaithful.compileHelper
  rw [← hCached.sameEngine] at hHelpersCompile
  obtain ⟨b₁, hHelpers, hUntouched⟩ := exists_loadHelpers hHelpersCompile
  -- the helpers leave the cache as it was
  have hLogs := hUntouched.site.workspace
  have hPresent := hCached.present
  rw [← hLogs.shape.pathExists_eq] at hPresent
  rw [← TemplateCache.held_of_logsOnly hLogs hCached.unlogged] at hHeld
  rw [← hUntouched.settings]
  set name := pageTemplate b₁.settings page with hName
  by_cases hNone : calls = []
  · subst hNone
    obtain ⟨b₂, hFound⟩ := exists_installFrom_of_missing name (by simpa using hPresent)
    refine ⟨_, b₂, outcome_renderPage hHelpers hFound model, rendersLast_absent rfl, ?_⟩
    intro name requests hCall
    cases hCall
  · choose reload hLoad hSame using hFaithful.load
    obtain ⟨b₂, hFound, hEngine, hInstalled⟩ := exists_installFrom name
      (hUntouched.site.engine.trans hCached.sameEngine) (hCached.json hNone)
      (by simpa [hNone] using hPresent) hHeld hLoad
    obtain ⟨rendering, hRender, hRendersLast⟩ :=
      exists_renderFound hFaithful hSame (rel_find?_kept hKept name) page model
    have hRendered := outcome_renderPage hHelpers hFound model
    rw [hEngine, hRender] at hRendered
    refine ⟨rendering, b₂, hRendered, hRendersLast, ?_⟩
    rw [hInstalled]
    exact installsLast_reloaded hKept hSame b₁.site.installed

theorem faithful_verbatim : verbatim.site.engine.Faithful where
  compileHelper _ _ := rfl
  clientForm text := ⟨text, rfl⟩
  load text := ⟨text, rfl, rfl⟩
  render text _ := ⟨.string text, rfl⟩

/-- A page that is cached twice, under one name from two paths, with another template in between. -/
theorem rendersLast_home_twice :
    let update (path type contents : Text) (b : Builder Text) :=
      (updateCache path "cache.json".toList (some type) (some contents) none false).outcome b
    let b₁ := (update "app/pg/home/Index.vash".toList "pg".toList "<p>@a.Count</p>".toList verbatim).2
    let b₂ := (update "app/wg/nav.vash".toList "wg".toList "<nav></nav>".toList b₁).2
    let b₃ := (update "./pg//home/Index.vash".toList "pg".toList "<p></p>".toList b₂).2
    let calls := [
      ("pg_home/Index".toList, b₁.site.requests.drop verbatim.site.requests.length),
      ("wg_nav".toList, b₂.site.requests.drop b₁.site.requests.length),
      ("pg_home/Index".toList, b₃.site.requests.drop b₂.site.requests.length)]
    ∃ rendering b', (renderPage "cache.json".toList "home/Index".toList [] .null).outcome b₃ =
        (.ok rendering, b') ∧
      RendersLast verbatim.site.engine calls (pageTemplate b₃.settings "home/Index".toList)
        "home/Index".toList .null rendering ∧
      InstallsLast verbatim.site.engine calls b'.site.installed := by
  intro update b₁ b₂ b₃ calls
  have hFirst : (update "app/pg/home/Index.vash".toList "pg".toList "<p>@a.Count</p>".toList
      verbatim).1 = .ok "pg_home/Index".toList := Outcome.eq_ok_of_toOption (by decide +kernel)
  have hSecond : (update "app/wg/nav.vash".toList "wg".toList "<nav></nav>".toList b₁).1 =
      .ok "wg_nav".toList := Outcome.eq_ok_of_toOption (by decide +kernel)
  have hThird : (update "./pg//home/Index.vash".toList "pg".toList "<p></p>".toList b₂).1 =
      .ok "pg_home/Index".toList := Outcome.eq_ok_of_toOption (by decide +kernel)
  have hStart : History verbatim.site.engine "cache.json".toList [] verbatim :=
    .start rfl (by decide) fun _ _ _ hh => by cases hh
  have hHistory : History verbatim.site.engine "cache.json".toList calls b₃ :=
    ((hStart.update _ _ _ _ _ (Prod.ext hFirst rfl)).update _ _ _ _ _ (Prod.ext hSecond rfl)).update
      _ _ _ _ _ (Prod.ext hThird rfl)
  exact rendersLast_of_history faithful_verbatim hHistory _ _

end Builder

end RazorVash
