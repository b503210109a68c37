import RazorVash.Proofs.Builder.Stages
import RazorVash.Proofs.Cache.Held

namespace RazorVash

open Job Workspace

variable {Template : Type} {path : Path} {w w' : Workspace} {s : Site Template}
  {b b' b₁ : Builder Template} {name : Text} {template : Template}

structure TemplateCache.Storable (path : Path) (tree : Tree) : Prop where
  json : isJsonFile path = true
  held : ∃ entries, held path tree = .ok entries
  place : ∃ l, tree.filePlace? path = .ok l

theorem TemplateCache.storable_of_logsOnly (h : LogsOnly w w') (hu : Unlogged path w) :
    Storable path w'.tree ↔ Storable path w.tree := by
  constructor
  · rintro ⟨hJson, hHeld, hPlace⟩
    rw [held_of_logsOnly h hu] at hHeld
    rw [h.shape.filePlace?_eq] at hPlace
    exact ⟨hJson, hHeld, hPlace⟩
  · rintro ⟨hJson, hHeld, hPlace⟩
    rw [← held_of_logsOnly h hu] at hHeld
    rw [← h.shape.filePlace?_eq] at hPlace
    exact ⟨hJson, hHeld, hPlace⟩

namespace Builder

theorem outcome_keep_of_update {cachePath : Text} {result : Except Failure Bool}
    (hJson : TemplateCache.isJsonFile (Path.ofText cachePath) = true)
    (h : ((⟨Path.ofText cachePath⟩ : TemplateCache).update name
      (b.site.engine.clientForm template)).outcome b.site.workspace = (result, w)) :
    (keep cachePath name template).outcome b =
      (result.map fun _ => name, (b.withInstalled name template).withWorkspace w) := by
  unfold keep
  rw [outcome_bind_of_ok (outcome_install b name template), TemplateCache.ofPath, if_pos hJson,
    outcome_ofExcept_bind]
  simp only
  rw [outcome_bind_of_ok (outcome_get _), outcome_bind, outcome_inWorkspace]
  simp only [withInstalled]
  rw [h]
  rcases result with _ | _ <;> rfl

theorem outcome_keep_of_not_json {cachePath : Text}
    (hJson : TemplateCache.isJsonFile (Path.ofText cachePath) = false) :
    (keep cachePath name template).outcome b =
      (.error (.unusableCache (Path.ofText cachePath) .notJsonFile),
        b.withInstalled name template) := by
  unfold keep
  rw [outcome_bind_of_ok (outcome_install b name template), TemplateCache.ofPath,
    if_neg (Bool.eq_false_iff.1 hJson), outcome_ofExcept_bind]
  rfl

theorem exists_keep (name : Text) {cachePath form : Text}
    (hStorable : TemplateCache.Storable (Path.ofText cachePath) b.site.workspace.tree)
    (hUnlogged : Unlogged (Path.ofText cachePath) b.site.workspace)
    (hForm : b.site.engine.clientForm template = .string form) :
    ∃ w entries l, (keep cachePath name template).outcome b =
        (.ok name, (b.withInstalled name template).withWorkspace w) ∧
      TemplateCache.held (Path.ofText cachePath) b.site.workspace.tree = .ok entries ∧
      TemplateCache.Stored (Path.ofText cachePath)
        (Json.rereadMembers (entries.put name (.string form))) l w := by
  obtain ⟨hJson, ⟨entries, hHeld⟩, l, hPlace⟩ := hStorable
  obtain ⟨w, hUpdate, hStored⟩ := TemplateCache.exists_update ⟨Path.ofText cachePath⟩ name
    hUnlogged hHeld hPlace (.string form)
  rw [← hForm] at hUpdate
  exact ⟨w, entries, l, outcome_keep_of_update hJson hUpdate, hHeld, hStored⟩

/-- Where the cache cannot be stored, the template stays installed, and the file as it was. -/
theorem exists_keep_error (name : Text) (template : Template) {cachePath : Text}
    (hStorable : ¬ TemplateCache.Storable (Path.ofText cachePath) b.site.workspace.tree) :
    ∃ f b', (keep cachePath name template).outcome b = (.error f, b') ∧
      b'.site.installed = b.site.installed.put name template ∧
      b'.site.workspace.tree.content? (Path.ofText cachePath) =
        b.site.workspace.tree.content? (Path.ofText cachePath) := by
  by_cases hJson : TemplateCache.isJsonFile (Path.ofText cachePath) = true
  · rcases hHeld : TemplateCache.held (Path.ofText cachePath) b.site.workspace.tree with f | entries
    · have hUpdate := TemplateCache.outcome_update_of_error ⟨Path.ofText cachePath⟩ name
        (b.site.engine.clientForm template) hHeld
      exact ⟨f, _, outcome_keep_of_update hJson hUpdate, rfl, rfl⟩
    · rcases hPlace : b.site.workspace.tree.filePlace? (Path.ofText cachePath) with e | l
      · obtain ⟨w, hUpdate, hNone⟩ := TemplateCache.exists_update_error ⟨Path.ofText cachePath⟩
          name (b.site.engine.clientForm template) hJson hHeld hPlace
        obtain ⟨last, hLast, hName⟩ := TemplateCache.exists_name_of_isJsonFile hJson
        refine ⟨.file e, _, outcome_keep_of_update hJson hUpdate, rfl, ?_⟩
        exact hNone.trans (Tree.content?_of_filePlace?_error hLast hName hPlace).symm
      · exact absurd ⟨hJson, ⟨entries, hHeld⟩, l, hPlace⟩ hStorable
  · exact ⟨_, _, outcome_keep_of_not_json (Bool.eq_false_iff.2 hJson), rfl, rfl⟩

/-- A template was installed last, and it is the one of its name in the engine and in a cache. -/
structure Kept (cachePath name : Text) (template : Template) (b : Builder Template) : Prop where
  requested : b.site.requests.getLast? = some (.install name template)
  installed : b.site.installed.find? name = some template
  cached : ((TemplateCache.find? ⟨Path.ofText cachePath⟩ name).outcome b.site.workspace).1 =
    .ok (some (b.site.engine.clientForm template))

theorem keep_eq_ok {cachePath name' : Text}
    (hForms : ∀ template, ∃ form, b.site.engine.clientForm template = .string form)
    (hUnlogged : Unlogged (Path.ofText cachePath) b.site.workspace)
    (h : (keep cachePath name template).outcome b = (.ok name', b')) :
    name' = name ∧ TemplateCache.isJsonFile (Path.ofText cachePath) = true ∧
      ∃ w entries l, b' = (b.withInstalled name template).withWorkspace w ∧
        TemplateCache.held (Path.ofText cachePath) b.site.workspace.tree = .ok entries ∧
        TemplateCache.Stored (Path.ofText cachePath)
          (Json.rereadMembers (entries.put name (b.site.engine.clientForm template))) l w := by
  by_cases hStorable : TemplateCache.Storable (Path.ofText cachePath) b.site.workspace.tree
  · obtain ⟨form, hForm⟩ := hForms template
    obtain ⟨w, entries, l, hKeep, hHeld, hStored⟩ := exists_keep name hStorable hUnlogged hForm
    obtain ⟨rfl, rfl⟩ : name = name' ∧ _ = b' := by simpa [h] using hKeep.symm
    rw [← hForm] at hStored
    exact ⟨rfl, hStorable.json, w, entries, l, rfl, hHeld, hStored⟩
  · obtain ⟨f, b', hKeep, -⟩ := exists_keep_error name template hStorable
    rw [hKeep] at h
    cases (Prod.mk.inj h).1

theorem kept_of_keep {cachePath name' : Text}
    (hForms : ∀ template, ∃ form, b.site.engine.clientForm template = .string form)
    (hUnlogged : Unlogged (Path.ofText cachePath) b.site.workspace)
    (h : (keep cachePath name template).outcome b = (.ok name', b')) :
    name' = name ∧ b'.site.engine = b.site.engine ∧ Kept cachePath name template b' := by
  obtain ⟨rfl, -, w, entries, l, rfl, -, hStored⟩ := keep_eq_ok hForms hUnlogged h
  obtain ⟨form, hForm⟩ := hForms template
  refine ⟨rfl, by simp [withWorkspace, withInstalled], ?_, ?_, ?_⟩
  · simp [withWorkspace, withInstalled]
  · simp [withWorkspace, withInstalled, Entries.find?_put]
  · have hFound : Entries.find? name'
        (Json.rereadMembers (entries.put name' (b.site.engine.clientForm template))) =
          some (b.site.engine.clientForm template) := by
      rw [Json.find?_rereadMembers, Entries.find?_put, if_pos rfl, hForm]
      rfl
    simp only [TemplateCache.outcome_find?, withWorkspace, hStored.held, Except.map, hFound]
    rfl

/-- After a success a template is kept under the name that is given, after a failure what is installed
and the cache file are as they were. -/
def Consistent (cachePath : Text) (b : Builder Template) :
    Except Failure Text × Builder Template → Prop
  | (.ok name, b') => ∃ template, Kept cachePath name template b'
  | (.error _, b') => b'.site.installed = b.site.installed ∧
    b'.site.workspace.tree.content? (Path.ofText cachePath) =
      b.site.workspace.tree.content? (Path.ofText cachePath)

theorem consistent_keep_iff (name : Text) (template : Template) {cachePath : Text}
    (hForms : ∀ template, ∃ form, b.site.engine.clientForm template = .string form)
    (hUnlogged : Unlogged (Path.ofText cachePath) b.site.workspace) :
    Consistent cachePath b ((keep cachePath name template).outcome b) ↔
      TemplateCache.Storable (Path.ofText cachePath) b.site.workspace.tree ∨
        b.site.installed.put name template = b.site.installed := by
  by_cases hStorable : TemplateCache.Storable (Path.ofText cachePath) b.site.workspace.tree
  · obtain ⟨form, hForm⟩ := hForms template
    obtain ⟨w, entries, l, hKeep, -⟩ := exists_keep name hStorable hUnlogged hForm
    have hKept := (kept_of_keep hForms hUnlogged hKeep).2.2
    rw [hKeep]
    exact ⟨fun _ => .inl hStorable, fun _ => ⟨template, hKept⟩⟩
  · obtain ⟨f, b', hKeep, hInstalled, hContent⟩ := exists_keep_error name template hStorable
    rw [hKeep]
    constructor
    · exact fun h => .inr (hInstalled ▸ h.1)
    · intro h
      exact ⟨hInstalled.trans (h.resolve_left hStorable), hContent⟩

theorem Untouched.content?_eq {cachePath : Text} (h : Untouched b b')
    (hUnlogged : Unlogged (Path.ofText cachePath) b.site.workspace) :
    b'.site.workspace.tree.content? (Path.ofText cachePath) =
      b.site.workspace.tree.content? (Path.ofText cachePath) := by
  unfold Tree.content?
  rw [h.site.workspace.readBytes_eq hUnlogged]

theorem Untouched.consistent_iff {cachePath : Text} (h : Untouched b b')
    (hUnlogged : Unlogged (Path.ofText cachePath) b.site.workspace)
    (outcome : Except Failure Text × Builder Template) :
    Consistent cachePath b outcome ↔ Consistent cachePath b' outcome := by
  rcases outcome with ⟨f | name, after⟩
  · rw [Consistent, Consistent, h.content?_eq hUnlogged, h.site.installed]
  · rfl

/-- An update of a cache either installs a template and stores its client form, both under the name
that it gives, or leaves what is installed and the cache file as they were. -/
def BothOrNeither (path cachePath : Text) (dirType contents models : Option Text) (debug : Bool)
    (b : Builder Template) : Prop :=
  Consistent cachePath b ((updateCache path cachePath dirType contents models debug).outcome b)

/-- An update reaches both caches or neither exactly if no template gets as far as being installed, or
the cache can be stored, or the installation changes nothing. -/
theorem bothOrNeither_iff {path cachePath : Text} {dirType contents models : Option Text}
    {debug : Bool} (hForms : ∀ template, ∃ form, b.site.engine.clientForm template = .string form)
    (hUnlogged : Unlogged (Path.ofText cachePath) b.site.workspace) :
    BothOrNeither path cachePath dirType contents models debug b ↔
      ∀ name template b₁,
        (prepare path dirType contents models debug).outcome b = (.ok (name, template), b₁) →
          TemplateCache.Storable (Path.ofText cachePath) b.site.workspace.tree ∨
            b.site.installed.put name template = b.site.installed := by
  have hKeeps := keeps_prepare path dirType contents models debug b
  rw [BothOrNeither, updateCache_eq, outcome_bind]
  rcases hPrepare : (prepare path dirType contents models debug).outcome b with
    ⟨f | ⟨name, template⟩, b₁⟩ <;> rw [hPrepare] at hKeeps
  · simp only [Prod.mk.injEq, reduceCtorEq, false_and, false_implies, implies_true, iff_true]
    exact ⟨hKeeps.site.installed, hKeeps.content?_eq hUnlogged⟩
  -- the cache is the same before and after the preparation, and so is what is installed
  · have hKeep := consistent_keep_iff name template (b := b₁) (by rwa [hKeeps.site.engine])
      (hKeeps.site.workspace.unlogged hUnlogged)
    rw [TemplateCache.storable_of_logsOnly hKeeps.site.workspace hUnlogged,
      hKeeps.site.installed] at hKeep
    simp only [hKeeps.consistent_iff hUnlogged]
    refine hKeep.trans ⟨fun h name' template' b' hSame => ?_, fun h => h name template b₁ rfl⟩
    obtain ⟨⟨rfl, rfl⟩, -⟩ : (name = name' ∧ template = template') ∧ b₁ = b' := by
      simpa using hSame
    exact h

def verbatim : Builder Text where
  site := {
    workspace := .empty
    engine := {
      compile := fun text _ => .ok text
      compileHelper := fun _ _ => .ok ()
      load := fun form => (Checked.readString form).mapError fun _ => "load failed".toList
      clientForm := .string
      render := fun text _ => .ok (.string text) }
    installed := []
    requests := [] }
  settings := {}
  normalizer := default
  models := []

theorem bothOrNeither_new_cache :
    BothOrNeither "pg/home/Index.vash".toList "cache.json".toList (some "pg".toList)
      (some "<p></p>".toList) none false verbatim := by
  refine (bothOrNeither_iff (fun text => ⟨text, rfl⟩) (fun _ _ _ hh => by cases hh)).2
    fun _ _ _ _ => .inl ⟨by decide, ⟨[], rfl⟩, ["cache.json".toList], ?_⟩
  exact Tree.filePlace?_eq_ok.2
    ⟨_, Tree.makeDirectories_of_isDirectory rfl, rfl, rfl, rfl⟩

/-- A cache path with another suffix is refused, but the template is installed by then. -/
theorem not_bothOrNeither_other_suffix :
    let outcome := (updateCache "pg/home/Index.vash".toList "cache.txt".toList (some "pg".toList)
      (some "<p></p>".toList) none false).outcome verbatim
    outcome.1.toOption = none ∧
      outcome.2.site.installed = [("pg_home/Index".toList, "<p></p>".toList)] ∧
      ¬ BothOrNeither "pg/home/Index.vash".toList "cache.txt".toList (some "pg".toList)
        (some "<p></p>".toList) none false verbatim := by
  intro outcome
  have hFails : outcome.1.toOption = none := by decide +kernel
  have hInstalled : outcome.2.site.installed = [("pg_home/Index".toList, "<p></p>".toList)] := by
    decide +kernel
  refine ⟨hFails, hInstalled, fun h => ?_⟩
  have hConsistent : Consistent "cache.txt".toList verbatim outcome := h
  rcases outcome with ⟨f | name, after⟩
  · rw [hConsistent.1] at hInstalled
    cases hInstalled
  · cases hFails

end Builder

end RazorVash
