import RazorVash.Proofs.Builder.BothCaches
import RazorVash.Proofs.Builder.Models
import RazorVash.Proofs.Workspace.Files

/-!
Where the models before a template come from. The calls of a builder are taken together with what
each of them read (`Visited`), so that what is stored under a path can be said to have been read for
it (`Visited.sourced`). Models without a path share their key with one path, and exactly the calls
that find the models of that path there prepend what is not theirs (`keepsApart_iff`).
-/
namespace RazorVash

open Job Workspace

variable {Template α : Type}

/-! ### Reading models -/

/-- The file that is read before a template, with its text. Nothing is read while a text is stored
that may be used, and what cannot be read has none. -/
def PageModels.read? (models : PageModels) (refresh : Bool) (w : Workspace) :
    Option (Path × Text) :=
  match models.path, if refresh then none else models.stored with
  | some path, none => (w.tree.textAt path standardEncoding).toOption.map (path, ·)
  | _, _ => none

/-- A use of models: the path that was asked for, and what was read. -/
structure Visit where
  asked : Option Text
  read : Option (Path × Text)

/-- A prefix of templates is nothing, or models that were read from the file. -/
def WasRead (past : List Visit) (file : Path) (prefixed : Text) : Prop :=
  prefixed = [] ∨ ∃ t, prefixed = wrapModels t ∧ ∃ visit ∈ past, visit.read = some (file, t)

theorem WasRead.append {past : List Visit} {file : Path} {prefixed : Text}
    (h : WasRead past file prefixed) (more : List Visit) :
    WasRead (past ++ more) file prefixed := by
  rcases h with rfl | ⟨t, rfl, visit, hVisit, hRead⟩
  · exact .inl rfl
  · exact .inr ⟨t, rfl, visit, List.mem_append_left _ hVisit, hRead⟩

namespace PageModels

variable {models after : PageModels} {w w' : Workspace} {dirType template text prefixed : Text}
  {refresh : Bool} {past : List Visit} {made : Option Text} {pageType : Text}

theorem readModels_eq_ok {path : Path} (h : (readModels path).outcome w = (.ok text, w')) :
    text = [] ∨ ∃ t, text = wrapModels t ∧ w.tree.textAt path standardEncoding = .ok t := by
  unfold readModels at h
  rw [outcome_bind_of_ok (outcome_get w)] at h
  split at h
  · obtain ⟨_, w₁, -, h⟩ := outcome_bind_eq_ok.1 h
    exact .inl (Except.ok.inj (Prod.mk.inj h).1).symm
  · obtain ⟨t, w₁, hRead, h⟩ := outcome_bind_eq_ok.1 h
    rw [outcome_readText] at hRead
    exact .inr ⟨t, (Except.ok.inj (Prod.mk.inj h).1).symm, (Prod.mk.inj hRead).1⟩

/-- Models that were made for a path, with nothing stored but what was read from their file. -/
structure Sourced (past : List Visit) (made : Option Text) (pageType : Text)
    (models : PageModels) : Prop where
  path : models.path = (ofPath made pageType).path
  type : models.pageType = pageType
  stored : ∀ file prefixed, models.path = some file → models.stored = some prefixed →
    WasRead past file prefixed

theorem sourced_ofPath (past : List Visit) (made : Option Text) (pageType : Text) :
    Sourced past made pageType (ofPath made pageType) :=
  ⟨rfl, rfl, fun _ _ _ h => nomatch h⟩

theorem Sourced.append (h : Sourced past made pageType models) (more : List Visit) :
    Sourced (past ++ more) made pageType models :=
  ⟨h.path, h.type, fun file prefixed hPath hStored => (h.stored file prefixed hPath hStored).append _⟩

theorem Sourced.wasRead_of_fetch (h : Sourced past made pageType models) (asked : Option Text)
    (hFetch : (models.fetch refresh).outcome w = (.ok (some prefixed), w')) :
    ∃ file, models.path = some file ∧
      WasRead (past ++ [⟨asked, models.read? refresh w⟩]) file prefixed := by
  unfold fetch at hFetch
  rcases hPath : models.path with _ | file
  · rw [hPath] at hFetch
    obtain ⟨_, w₁, -, hFetch⟩ := outcome_bind_eq_ok.1 hFetch
    cases (Prod.mk.inj hFetch).1
  · refine ⟨file, rfl, ?_⟩
    rw [hPath] at hFetch
    simp only at hFetch
    split at hFetch
    · next kept hKept =>
      obtain ⟨rfl, -⟩ : kept = prefixed ∧ w = w' := by simpa using hFetch
      -- what is stored is used only where nothing is to be read anew
      have hStored : models.stored = some kept := by
        cases refresh with
        | true => cases hKept
        | false => exact hKept
      exact (h.stored file kept hPath hStored).append _
    · next hNone =>
      rw [outcome_bind_of_ok (outcome_get w)] at hFetch
      split at hFetch
      · obtain ⟨found, w₁, hRead, hFetch⟩ := outcome_bind_eq_ok.1 hFetch
        obtain ⟨rfl, -⟩ : found = prefixed ∧ w₁ = w' := by simpa using hFetch
        rcases readModels_eq_ok hRead with rfl | ⟨t, rfl, hText⟩
        · exact .inl rfl
        · refine .inr ⟨t, rfl, _, List.mem_append_right _ List.mem_cons_self, ?_⟩
          simp only [read?, hPath, hNone, hText]
          rfl
      · obtain ⟨_, w₁, -, hFetch⟩ := outcome_bind_eq_ok.1 hFetch
        cases (Prod.mk.inj hFetch).1

theorem Sourced.of_prepend (h : Sourced past made pageType models) (asked : Option Text)
    (hRun : (models.prepend dirType template refresh).outcome w = (.ok (text, after), w')) :
    Sourced (past ++ [⟨asked, models.read? refresh w⟩]) made pageType after ∧
      (text = template ∨ ∃ file t, models.path = some file ∧ text = wrapModels t ++ template ∧
        ∃ visit ∈ past ++ [⟨asked, models.read? refresh w⟩], visit.read = some (file, t)) := by
  obtain ⟨found, w₁, hFetch, hRun⟩ := outcome_bind_eq_ok.1 hRun
  split at hRun
  · obtain ⟨⟨rfl, rfl⟩, -⟩ : (template = text ∧ models = after) ∧ w₁ = w' := by simpa using hRun
    exact ⟨h.append _, .inl rfl⟩
  · next prefixed =>
    obtain ⟨⟨rfl, rfl⟩, -⟩ : ((if dirType = models.pageType then prefixed ++ template
        else template) = text ∧ { models with stored := some prefixed } = after) ∧ w₁ = w' := by
      simpa using hRun
    obtain ⟨file, hPath, hRead⟩ := h.wasRead_of_fetch asked hFetch
    refine ⟨⟨h.path, h.type, fun other kept hOther hKept => ?_⟩, ?_⟩
    · obtain rfl : file = other := Option.some.inj (hPath.symm.trans hOther)
      obtain rfl : prefixed = kept := Option.some.inj hKept
      exact hRead
    · rcases hRead with rfl | ⟨t, rfl, hVisit⟩
      · exact .inl (by simp)
      · split
        · exact .inr ⟨file, t, hPath, rfl, hVisit⟩
        · exact .inl rfl

/-- The models make a difference to a template: it is a page and they are not empty, or they cannot
be had. -/
def Adds (models : PageModels) (dirType : Text) (refresh : Bool) (w : Workspace) : Prop :=
  match ((models.fetch refresh).outcome w).1 with
  | .error _ => True
  | .ok none => False
  | .ok (some prefixed) => prefixed ≠ [] ∧ dirType = models.pageType

theorem prepend_eq_self_iff (models : PageModels) (dirType template : Text) (refresh : Bool)
    (w : Workspace) :
    (((models.prepend dirType template refresh).outcome w).1.map Prod.fst = .ok template) ↔
      ¬ models.Adds dirType refresh w := by
  unfold prepend Adds
  rw [outcome_bind]
  rcases (models.fetch refresh).outcome w with ⟨f | found, w₁⟩
  · simp [Except.map]
  · cases found with
    | none => simp [Except.map]
    | some prefixed =>
      simp only [outcome_pure, Except.map, Except.ok.injEq, ne_eq, not_and]
      split
      · next hType => simp [hType]
      · next hType => simp [hType]

theorem exists_path_of_adds (h : models.Adds dirType refresh w) :
    ∃ file, models.path = some file := by
  cases hPath : models.path with
  | some file => exact ⟨file, rfl⟩
  | none =>
    unfold Adds fetch at h
    rw [hPath] at h
    exact h.elim

end PageModels

/-! ### Calls -/

namespace Builder

inductive Call
  | precompile (file : Text) (models : Option Text) (dirTypes : Option (List Text)) (debug : Bool)
  | updateCache (path cachePath : Text) (dirType contents models : Option Text) (debug : Bool)

namespace Call

def models : Call → Option Text
  | precompile _ models _ _ => models
  | updateCache _ _ _ _ models _ => models

def debug : Call → Bool
  | precompile _ _ _ debug => debug
  | updateCache _ _ _ _ _ debug => debug

/-- Only an update without contents reads its models anew. -/
def refresh : Call → Bool
  | precompile .. => false
  | updateCache _ _ _ contents _ _ => contents.isNone

def run : Call → Job (Builder Template) Unit
  | precompile file models dirTypes debug => do
    let _ ← Builder.precompile file models dirTypes debug
    return ()
  | updateCache path cachePath dirType contents models debug => do
    let _ ← Builder.updateCache path cachePath dirType contents models debug
    return ()

/-- The first stages of a call: the type of its template, and the text that is left to compile. -/
def normalized : Call → Job (Builder Template) (Text × Normalized)
  | precompile file _ dirTypes _ => do
    let b ← get
    if b.site.workspace.tree.pathExists (Path.ofText file) then
      let normalized ← normalize (some (Path.ofText file).render) none none
      return (typeOf b.settings file dirTypes, normalized)
    else throw (.missingTemplate (Path.ofText file))
  | updateCache path _ dirType contents _ _ => do
    let type ← typeOrPage path dirType
    let normalized ← normalize (some path) none contents
    return (type, normalized)

def finish (dirType : Text) (template : Template) : Call → Job (Builder Template) Unit
  | precompile file _ _ _ => do
    let name := Naming.templateName dirType (Naming.slash (Path.ofText file).render)
    onSite (Site.install name template)
    inWorkspace <| log {
      level := .info, logger, message := precompiledMessage
      data := [("template".toList, .string name)] }
  | updateCache path cachePath _ _ _ _ => do
    let _ ← keep cachePath (Naming.templateName dirType (Naming.slash path)) template
    return ()

variable {b b' : Builder Template}

theorem outcome_run (call : Call) (b : Builder Template) :
    call.run.outcome b = (call.normalized >>= fun (dirType, normalized) =>
      prependModels call.models dirType normalized.text call.refresh >>= fun text =>
        compile text call.debug >>= fun template => call.finish dirType template).outcome b := by
  cases call with
  | precompile file models dirTypes debug =>
    rw [run, normalized, bind_assoc, outcome_bind_of_ok (outcome_get b)]
    by_cases hExists : b.site.workspace.tree.pathExists (Path.ofText file) = true
    · have hRun := outcome_precompile file models dirTypes debug b
      rw [if_pos hExists] at hRun
      rw [outcome_bind, hRun, ← outcome_bind, if_pos hExists]
      simp only [precompileAs, finish, bind_assoc, pure_bind]
      rfl
    · have hRun := outcome_precompile file models dirTypes debug b
      rw [if_neg hExists] at hRun
      rw [outcome_bind_of_error hRun, if_neg hExists]
      rfl
  | updateCache path cachePath dirType contents models debug =>
    simp only [run, updateCache_eq, prepare, normalized, finish, bind_assoc, pure_bind]
    rfl

theorem remembers_normalized (call : Call) :
    Keeps Remembers (call.normalized : Job (Builder Template) (Text × Normalized)) := by
  cases call with
  | precompile file models dirTypes debug =>
    refine keeps_get.bind fun b => ?_
    split
    · exact (remembers_normalize _ _ _).bind fun _ => keeps_pure _
    · exact keeps_throw _
  | updateCache path cachePath dirType contents models debug =>
    exact (remembers_typeOrPage _ _).bind fun _ => (remembers_normalize _ _ _).bind fun _ =>
      keeps_pure _

theorem unasked_normalized (call : Call) :
    Keeps Unasked (call.normalized : Job (Builder Template) (Text × Normalized)) := by
  cases call with
  | precompile file models dirTypes debug =>
    refine keeps_get.bind fun b => ?_
    split
    · exact (keeps_normalize _ _).bind fun _ => keeps_pure _
    · exact keeps_throw _
  | updateCache path cachePath dirType contents models debug =>
    exact (keeps_typeOrPage _ _).bind fun _ => (keeps_normalize _ _).bind fun _ => keeps_pure _

theorem remembers_finish (call : Call) (dirType : Text) (template : Template) :
    Keeps Remembers (call.finish dirType template) := by
  cases call with
  | precompile file models dirTypes debug =>
    exact (remembers_onSite _).bind fun _ => remembers_inWorkspace _
  | updateCache path cachePath dirType contents models debug =>
    exact (remembers_keep _ _ _).bind fun _ => keeps_pure _

end Call

/-! ### What a call compiles -/

def compiledText? : Request Template → Option Text
  | .compile text _ => some text
  | _ => none

def Asked (texts : List Text) (b b' : Builder Template) : Prop :=
  ∃ requests, b'.site.requests = b.site.requests ++ requests ∧
    requests.filterMap compiledText? = texts

theorem Asked.trans {b₁ b₂ b₃ : Builder Template} {texts more : List Text}
    (h : Asked texts b₁ b₂) (h' : Asked more b₂ b₃) : Asked (texts ++ more) b₁ b₃ := by
  obtain ⟨requests, hRequests, rfl⟩ := h
  obtain ⟨others, hOthers, rfl⟩ := h'
  exact ⟨requests ++ others, by rw [hOthers, hRequests, List.append_assoc], List.filterMap_append⟩

theorem asked_nil {b b' : Builder Template} (h : b'.site.requests = b.site.requests) :
    Asked [] b b' :=
  ⟨[], by rw [h, List.append_nil], rfl⟩

instance : IsPreorder (Builder Template) (Asked []) where
  refl _ := asked_nil rfl
  trans _ _ _ h h' := h.trans h'

theorem asked_inWorkspace (job : Job Workspace α) :
    Keeps (Asked []) (inWorkspace job : Job (Builder Template) α) :=
  fun _ => asked_nil rfl

theorem asked_install (name : Text) (template : Template) :
    Keeps (Asked []) (onSite (Site.install name template)) :=
  fun b => ⟨[.install name template], by rw [outcome_install]; rfl, rfl⟩

theorem asked_compile (text : Text) (debug : Bool) :
    Keeps (Asked [text]) (compile text debug : Job (Builder Template) Template) :=
  fun b => ⟨_, by rw [outcome_compile]; rfl, rfl⟩

theorem asked_finish (call : Call) (dirType : Text) (template : Template) :
    Keeps (Asked []) (call.finish dirType template) := by
  cases call with
  | precompile file models dirTypes debug =>
    exact (asked_install _ _).bind fun _ => asked_inWorkspace _
  | updateCache path cachePath dirType contents models debug =>
    have hKeep (name : Text) : Keeps (Asked []) (keep cachePath name template) :=
      (asked_install _ _).bind fun _ => (keeps_ofExcept _ _).bind fun _ => keeps_get.bind fun _ =>
        (asked_inWorkspace _).bind fun _ => keeps_pure _
    exact (hKeep _).bind fun _ => keeps_pure _

namespace Call

variable {b b₁ b₂ : Builder Template} {call : Call} {dirType text : Text} {normalized : Normalized}
  {f : Failure}

def compiled (call : Call) (b : Builder Template) : List Text :=
  ((call.run.outcome b).2.site.requests.drop b.site.requests.length).filterMap compiledText?

theorem compiled_eq {texts : List Text} (h : Asked texts b (call.run.outcome b).2) :
    call.compiled b = texts := by
  obtain ⟨requests, hRequests, rfl⟩ := h
  rw [compiled, hRequests, List.drop_left]

/-- A call that fails before it compiles leaves the models as its last stage has left them. -/
theorem run_of_normalized_error (h : call.normalized.outcome b = (.error f, b₁)) :
    b.Remembers (call.run.outcome b).2 ∧ call.compiled b = [] := by
  have hRemembers := Keeps.of_outcome (remembers_normalized call) h
  have hUnasked := Keeps.of_outcome (unasked_normalized call) h
  have hRun : call.run.outcome b = (.error f, b₁) := by
    rw [outcome_run, outcome_bind_of_error h]
  refine ⟨by rwa [hRun], compiled_eq ?_⟩
  rw [hRun]
  exact asked_nil hUnasked.requests

theorem run_of_prepend_error
    (h : call.normalized.outcome b = (.ok (dirType, normalized), b₁))
    (hPrepend : (prependModels call.models dirType normalized.text call.refresh).outcome b₁ =
      (.error f, b₂)) :
    b₂.Remembers (call.run.outcome b).2 ∧ call.compiled b = [] := by
  have hUnasked := Keeps.of_outcome (unasked_normalized call) h
  have hUnasked' := Keeps.of_outcome (keeps_prependModels _ _ _ _) hPrepend
  have hRun : call.run.outcome b = (.error f, b₂) := by
    rw [outcome_run, outcome_bind_of_ok h]
    exact outcome_bind_of_error hPrepend
  refine ⟨by rw [hRun]; exact ⟨rfl, rfl⟩, compiled_eq ?_⟩
  rw [hRun]
  exact asked_nil (hUnasked'.requests.trans hUnasked.requests)

theorem run_of_prepend
    (h : call.normalized.outcome b = (.ok (dirType, normalized), b₁))
    (hPrepend : (prependModels call.models dirType normalized.text call.refresh).outcome b₁ =
      (.ok text, b₂)) :
    b₂.Remembers (call.run.outcome b).2 ∧ call.compiled b = [text] := by
  have hUnasked := Keeps.of_outcome (unasked_normalized call) h
  have hUnasked' := Keeps.of_outcome (keeps_prependModels _ _ _ _) hPrepend
  have hRun : call.run.outcome b = (compile text call.debug >>= fun template =>
      call.finish dirType template).outcome b₂ := by
    rw [outcome_run, outcome_bind_of_ok h]
    exact outcome_bind_of_ok hPrepend
  constructor
  · rw [hRun]
    exact ((remembers_compile text call.debug).bind fun _ => remembers_finish call dirType _) b₂
  · apply compiled_eq
    have hStart : Asked [] b b₂ := asked_nil (hUnasked'.requests.trans hUnasked.requests)
    refine hStart.trans ?_
    rw [hRun, outcome_bind]
    rcases hCompile : (compile text call.debug).outcome b₂ with ⟨f | template, b₃⟩
    · exact Keeps.of_outcome (asked_compile _ _) hCompile
    · exact (Keeps.of_outcome (asked_compile _ _) hCompile).trans (asked_finish call dirType _ b₃)

def visits (call : Call) (b : Builder Template) : List Visit :=
  match call.normalized.outcome b with
  | (.error _, _) => []
  | (.ok _, b₁) =>
    [⟨call.models, (b₁.modelsOf call.models).read? call.refresh b₁.site.workspace⟩]

end Call

/-! ### Histories -/

/-- Calls of a builder that remembered nothing at first, with the uses that they made of models. In
between anything may happen to the files and to what is installed. -/
inductive Visited : List Visit → Builder Template → Prop
  | fresh {b : Builder Template} : b.models = [] → Visited [] b
  | call {past : List Visit} {b : Builder Template} (call : Call) :
    Visited past b → Visited (past ++ call.visits b) (call.run.outcome b).2
  | elsewhere {past : List Visit} {b : Builder Template} (site : Site Template) :
    Visited past b → Visited past { b with site }

/-- The path that the models of a path are made for: the first one of its key that was asked for. -/
def maker (past : List Visit) (path : Option Text) : Option Text :=
  ((past.find? fun visit => modelsKey visit.asked = modelsKey path).map (·.asked)).getD path

variable {past : List Visit} {b b' b₁ b₂ : Builder Template} {path : Option Text}
  {models : PageModels} {w : Workspace}

theorem maker_concat (past : List Visit) (visit : Visit) (path : Option Text) :
    maker (past ++ [visit]) path =
      if modelsKey visit.asked = modelsKey path then maker past visit.asked else maker past path := by
  unfold maker
  rw [List.find?_append]
  split
  · next hKey =>
    rw [hKey]
    cases past.find? fun visit => decide (modelsKey visit.asked = modelsKey path) with
    | some first => rfl
    | none => simp [hKey]
  · next hKey => simp [hKey]

theorem modelsKey_maker (past : List Visit) (path : Option Text) :
    modelsKey (maker past path) = modelsKey path := by
  unfold maker
  cases h : past.find? fun visit => decide (modelsKey visit.asked = modelsKey path) with
  | none => rfl
  | some first => simpa using List.find?_some h

/-- Only models without a path may have been made for another path, and then for this one. -/
theorem maker_none (past : List Visit) :
    maker past none = none ∨ maker past none = some noPath := by
  have hKey := modelsKey_maker past none
  cases hMade : maker past none with
  | none => exact .inl rfl
  | some path =>
    rw [hMade] at hKey
    exact .inr (congrArg some hKey)

theorem maker_some (past : List Visit) (path : Text) :
    maker past (some path) = some path ∨ maker past (some path) = none := by
  have hKey := modelsKey_maker past (some path)
  cases hMade : maker past (some path) with
  | none => exact .inr rfl
  | some made =>
    rw [hMade] at hKey
    exact .inl (congrArg some hKey)

/-- What a builder has under every path was read for the path that it was made for. -/
def AllSourced (past : List Visit) (b : Builder Template) : Prop :=
  ∀ path, (b.modelsOf path).Sourced past (maker past path) b.settings.pageDirType

theorem allSourced_nil (h : b.models = []) : AllSourced [] b := by
  intro path
  rw [modelsOf, h]
  exact PageModels.sourced_ofPath _ _ _

theorem AllSourced.remembers (h : AllSourced past b) (hb : b.Remembers b') :
    AllSourced past b' := by
  intro path
  rw [hb.modelsOf_eq, hb.settings]
  exact h path

theorem AllSourced.withModels (h : AllSourced past b) {visit : Visit}
    (hModels : models.Sourced (past ++ [visit]) (maker past visit.asked) b.settings.pageDirType) :
    AllSourced (past ++ [visit]) (b.withModels visit.asked models) := by
  intro path
  rw [maker_concat, modelsOf_withModels]
  split
  · exact hModels
  · exact (h path).append _

theorem AllSourced.call (h : AllSourced past b) (call : Call) :
    AllSourced (past ++ call.visits b) (call.run.outcome b).2 := by
  rw [Call.visits]
  rcases hNormalized : call.normalized.outcome b with ⟨f | ⟨dirType, normalized⟩, b₁⟩
  · rw [List.append_nil]
    exact h.remembers (Call.run_of_normalized_error hNormalized).1
  · have hSourced := h.remembers (Keeps.of_outcome (Call.remembers_normalized call) hNormalized)
    have hPrepend := outcome_prependModels call.models dirType normalized.text call.refresh b₁
    rcases hRun : ((b₁.modelsOf call.models).prepend dirType normalized.text call.refresh).outcome
      b₁.site.workspace with ⟨f | ⟨text, after⟩, w⟩
    · rw [hRun] at hPrepend
      refine AllSourced.remembers ?_ (Call.run_of_prepend_error hNormalized hPrepend).1
      exact hSourced.withModels ((hSourced call.models).append _)
    · rw [hRun] at hPrepend
      refine AllSourced.remembers ?_ (Call.run_of_prepend hNormalized hPrepend).1
      exact hSourced.withModels ((hSourced call.models).of_prepend call.models hRun).1

theorem Visited.sourced (h : Visited past b) : AllSourced past b := by
  induction h with
  | fresh hNone => exact allSourced_nil hNone
  | call call _ ih => exact ih.call call
  | elsewhere site _ ih => exact ih

/-! ### Keeping models apart -/

/-- A call without a path compiles its normalized template as it is. One with a path has nothing
before it but models that were read from the file of this path. -/
def Call.KeepsApart (call : Call) (past : List Visit) (b : Builder Template) : Prop :=
  match call.normalized.outcome b with
  | (.error _, _) => call.compiled b = []
  | (.ok (_, normalized), _) =>
    match call.models with
    | none => call.compiled b = [normalized.text]
    | some path => ∀ text ∈ call.compiled b, text = normalized.text ∨
      ∃ t, text = wrapModels t ++ normalized.text ∧
        ∃ visit ∈ past ++ call.visits b, visit.read = some (Path.ofText path, t)

/-- A call without a path finds models there that were made for the path of the same key, and they
make a difference to its template. -/
def Call.Borrows (call : Call) (past : List Visit) (b : Builder Template) : Prop :=
  call.models = none ∧ maker past none = some noPath ∧
    ∃ dirType normalized b₁, call.normalized.outcome b = (.ok (dirType, normalized), b₁) ∧
      (b₁.modelsOf none).Adds dirType call.refresh b₁.site.workspace

theorem exists_of_path_ofPath {made : Option Text} {pageType : Text} {file : Path}
    (h : (PageModels.ofPath made pageType).path = some file) :
    ∃ path, made = some path ∧ file = Path.ofText path := by
  match made with
  | none => cases h
  | some [] => cases h
  | some (c :: path) => exact ⟨c :: path, rfl, (Option.some.inj h).symm⟩

theorem keepsApart_of_path {call : Call} {own : Text} (h : AllSourced past b)
    (hPath : call.models = some own) : call.KeepsApart past b := by
  unfold Call.KeepsApart
  rcases hNormalized : call.normalized.outcome b with ⟨f | ⟨dirType, normalized⟩, b₁⟩
  · exact (Call.run_of_normalized_error hNormalized).2
  · simp only [hPath]
    have hSourced := h.remembers (Keeps.of_outcome (Call.remembers_normalized call) hNormalized)
    have hPrepend := outcome_prependModels call.models dirType normalized.text call.refresh b₁
    rcases hRun : ((b₁.modelsOf call.models).prepend dirType normalized.text call.refresh).outcome
      b₁.site.workspace with ⟨f | ⟨text, after⟩, w⟩
    · rw [hRun] at hPrepend
      rw [(Call.run_of_prepend_error hNormalized hPrepend).2]
      exact fun _ hText => nomatch hText
    · rw [hRun] at hPrepend
      rw [(Call.run_of_prepend hNormalized hPrepend).2]
      intro compiled hCompiled
      obtain rfl := List.mem_singleton.1 hCompiled
      have hOwn := hSourced call.models
      obtain ⟨-, hPlain | ⟨file, t, hFile, rfl, hVisit⟩⟩ := hOwn.of_prepend call.models hRun
      · exact .inl hPlain
      · refine .inr ⟨t, rfl, ?_⟩
        -- models of a path may have been made for no path, but then they have no file
        obtain ⟨made, hMade, rfl⟩ := exists_of_path_ofPath (hOwn.path.symm.trans hFile)
        rw [hPath] at hMade
        obtain rfl : own = made := by
          rcases maker_some past own with hSame | hNone
          · exact Option.some.inj (hSame.symm.trans hMade)
          · rw [hNone] at hMade
            cases hMade
        rw [Call.visits, hNormalized]
        exact hVisit

theorem keepsApart_none_iff {call : Call} (h : AllSourced past b) (hNone : call.models = none) :
    call.KeepsApart past b ↔ ¬ call.Borrows past b := by
  unfold Call.KeepsApart Call.Borrows
  rcases hNormalized : call.normalized.outcome b with ⟨f | ⟨dirType, normalized⟩, b₁⟩
  · simp only [(Call.run_of_normalized_error hNormalized).2, true_iff]
    rintro ⟨-, -, _, _, _, hOk, -⟩
    cases hOk
  · have hSourced := h.remembers (Keeps.of_outcome (Call.remembers_normalized call) hNormalized)
    have hPrepend := outcome_prependModels call.models dirType normalized.text call.refresh b₁
    have hCompiles : call.compiled b = [normalized.text] ↔
        ¬ (b₁.modelsOf none).Adds dirType call.refresh b₁.site.workspace := by
      rw [← PageModels.prepend_eq_self_iff _ _ normalized.text, ← hNone]
      rcases hRun : ((b₁.modelsOf call.models).prepend dirType normalized.text
        call.refresh).outcome b₁.site.workspace with ⟨f | ⟨text, after⟩, w⟩
      · rw [hRun] at hPrepend
        simp [(Call.run_of_prepend_error hNormalized hPrepend).2, Except.map]
      · rw [hRun] at hPrepend
        simp [(Call.run_of_prepend hNormalized hPrepend).2, Except.map]
    simp only [hNone, hCompiles, true_and]
    refine not_congr ⟨fun hAdds => ⟨?_, _, _, _, rfl, hAdds⟩, ?_⟩
    · obtain ⟨file, hFile⟩ := PageModels.exists_path_of_adds hAdds
      obtain ⟨path, hMade, -⟩ := exists_of_path_ofPath ((hSourced none).path.symm.trans hFile)
      rcases maker_none past with hNoPath | hSame
      · rw [hNoPath] at hMade
        cases hMade
      · exact hSame
    · rintro ⟨-, _, _, _, hOk, hAdds⟩
      obtain ⟨⟨rfl, rfl⟩, rfl⟩ : (dirType = _ ∧ normalized = _) ∧ b₁ = _ := by simpa using hOk
      exact hAdds

/-- After any calls, a call keeps to the models of its own path exactly if it does not find others
under the key of models without a path. -/
theorem keepsApart_iff (h : Visited past b) (call : Call) :
    call.KeepsApart past b ↔ ¬ call.Borrows past b := by
  cases hModels : call.models with
  | none => exact keepsApart_none_iff h.sourced hModels
  | some path =>
    refine iff_of_true (keepsApart_of_path h.sourced hModels) ?_
    rintro ⟨hNone, -⟩
    rw [hModels] at hNone
    cases hNone

def twoModels : Builder Text :=
  { verbatim with site := { verbatim.site with workspace := { Workspace.empty with
      tree := {
        entries := [
          (["models.js".toList], .file (Encoding.encodeUtf8 "var b = 2;".toList)),
          ([noPath], .file (Encoding.encodeUtf8 "var a = 1;".toList))]
        current := [] } } } }

def updateWith (models : Option Text) : Call :=
  .updateCache "pg/home/Index.vash".toList "cache.json".toList (some "pg".toList)
    (some "<p></p>".toList) models false

theorem keepsApart_after_models :
    let first := updateWith (some "models.js".toList)
    let b := (first.run.outcome twoModels).2
    Visited (first.visits twoModels) b ∧
      (updateWith none).KeepsApart (first.visits twoModels) b := by
  intro first b
  have hVisited : Visited (first.visits twoModels) b := .call first (.fresh rfl)
  have hMaker : maker (first.visits twoModels) none ≠ some noPath := by decide +kernel
  exact ⟨hVisited, (keepsApart_iff hVisited _).2 fun hBorrows => hMaker hBorrows.2.1⟩

/-- After models of the file `None`, those come before a template without models too. -/
theorem not_keepsApart_after_none :
    let first := updateWith (some noPath)
    let b := (first.run.outcome twoModels).2
    Visited (first.visits twoModels) b ∧
      (updateWith none).compiled b = [wrapModels "var a = 1;".toList ++ "<p></p>".toList] ∧
      ¬ (updateWith none).KeepsApart (first.visits twoModels) b := by
  intro first b
  have hCompiled : (updateWith none).compiled b =
      [wrapModels "var a = 1;".toList ++ "<p></p>".toList] := by decide +kernel
  have hText : ((updateWith none).normalized.outcome b).1.toOption.map (·.2.text) =
      some "<p></p>".toList := by decide +kernel
  refine ⟨.call first (.fresh rfl), hCompiled, fun h => ?_⟩
  unfold Call.KeepsApart at h
  rcases hNormalized : (updateWith none).normalized.outcome b with ⟨f | ⟨dirType, normalized⟩, b₁⟩
  · rw [hNormalized] at hText
    cases hText
  · rw [hNormalized] at h hText
    have hSame : (updateWith none).compiled b = [normalized.text] := h
    have hPlain : normalized.text = "<p></p>".toList := Option.some.inj hText
    rw [hCompiled, hPlain] at hSame
    exact absurd hSame (by decide)

end Builder

end RazorVash
