import RazorVash.Proofs.Builder.Stages
import RazorVash.Proofs.Entries

namespace RazorVash

open Job Workspace

variable {Template α : Type} {b b' : Builder Template} {w w' : Workspace}
  {models fresh : PageModels} {path : Option Text} {dirType template text : Text} {refresh : Bool}

/-! ### Models -/

namespace PageModels

theorem of_outcome_prepend {after : PageModels}
    (h : (models.prepend dirType template refresh).outcome w = (.ok (text, after), w')) :
    after.path = models.path ∧ after.pageType = models.pageType := by
  obtain ⟨found, w₁, -, h⟩ := outcome_bind_eq_ok.1 h
  split at h
  · obtain ⟨⟨-, rfl⟩, -⟩ : (template = text ∧ models = after) ∧ w₁ = w' := by simpa using h
    exact ⟨rfl, rfl⟩
  · next stored =>
    obtain ⟨⟨-, rfl⟩, -⟩ : (_ = text ∧ { models with stored := some stored } = after) ∧ w₁ = w' := by
      simpa using h
    exact ⟨rfl, rfl⟩

theorem fetch_refresh (hPath : fresh.path = models.path) (hStored : fresh.stored = none) :
    models.fetch true = fresh.fetch false := by
  unfold fetch
  rw [hPath, hStored]
  rfl

theorem prepend_refresh (fresh : PageModels) (hPath : fresh.path = models.path)
    (hStored : fresh.stored = none) (hType : fresh.pageType = models.pageType) {after : PageModels}
    (h : (models.prepend dirType template true).outcome w = (.ok (text, after), w')) :
    ∃ after', (fresh.prepend dirType template false).outcome w = (.ok (text, after'), w') := by
  obtain ⟨found, w₁, hFetch, h⟩ := outcome_bind_eq_ok.1 h
  rw [fetch_refresh hPath hStored] at hFetch
  unfold prepend
  rw [outcome_bind_of_ok hFetch]
  split at h
  · obtain ⟨⟨rfl, -⟩, rfl⟩ : (template = text ∧ models = after) ∧ w₁ = w' := by simpa using h
    exact ⟨fresh, rfl⟩
  · next stored =>
    obtain ⟨⟨rfl, -⟩, rfl⟩ : ((if dirType = models.pageType then stored ++ template else template) =
        text ∧ { models with stored := some stored } = after) ∧ w₁ = w' := by simpa using h
    exact ⟨{ fresh with stored := some stored }, by rw [hType]; rfl⟩

end PageModels

namespace Builder

def modelsOf (b : Builder Template) (path : Option Text) : PageModels :=
  (b.models.find? (modelsKey path)).getD (PageModels.ofPath path b.settings.pageDirType)

def withModels (b : Builder Template) (path : Option Text) (models : PageModels) :
    Builder Template :=
  { b with models := b.models.put (modelsKey path) models }

theorem modelsOf_withModels (b : Builder Template) (path other : Option Text) (models : PageModels) :
    (b.withModels path models).modelsOf other =
      if modelsKey path = modelsKey other then models else b.modelsOf other := by
  rw [modelsOf, withModels, Entries.find?_put]
  split <;> rfl

theorem outcome_modelsFor (path : Option Text) (b : Builder Template) :
    (modelsFor path).outcome b = (.ok (b.modelsOf path), b.withModels path (b.modelsOf path)) := by
  unfold modelsFor withModels modelsOf
  rw [outcome_bind_of_ok (outcome_get b)]
  rcases h : b.models.find? (modelsKey path) with _ | models
  · rfl
  · simp only [Option.getD_some]
    rw [Entries.put_of_find? h]
    rfl

theorem outcome_prependModels (path : Option Text) (dirType template : Text) (refresh : Bool)
    (b : Builder Template) :
    (prependModels path dirType template refresh).outcome b =
      match ((b.modelsOf path).prepend dirType template refresh).outcome b.site.workspace with
      | (.ok (text, models), w) => (.ok text, (b.withModels path models).withWorkspace w)
      | (.error f, w) => (.error f, (b.withModels path (b.modelsOf path)).withWorkspace w) := by
  unfold prependModels
  rw [outcome_bind_of_ok (outcome_modelsFor path b), outcome_bind, outcome_inWorkspace]
  have hSame : (b.withModels path (b.modelsOf path)).site.workspace = b.site.workspace := rfl
  rw [hSame]
  rcases ((b.modelsOf path).prepend dirType template refresh).outcome b.site.workspace with
    ⟨f | ⟨text, models⟩, w⟩
  · rfl
  · simp only
    rw [outcome_bind_of_ok (outcome_modify _ _), outcome_pure]
    simp only [withModels, withWorkspace, Entries.put_put]

theorem outcome_prependModels_of_ok (b : Builder Template) (path : Option Text)
    (h : ((b.modelsOf path).prepend dirType template refresh).outcome b.site.workspace =
      (.ok (text, models), w)) :
    (prependModels path dirType template refresh).outcome b =
      (.ok text, (b.withModels path models).withWorkspace w) := by
  rw [outcome_prependModels, h]

/-! ### What a builder remembers -/

/-- Under every path there are models of that path, for pages. Only models without a path share the
name of their key with a path. -/
def ModelsMatch (b : Builder Template) : Prop :=
  ∀ path ≠ noPath, (b.modelsOf (some path)).path = (PageModels.ofPath (some path) []).path ∧
    (b.modelsOf (some path)).pageType = b.settings.pageDirType

theorem modelsMatch_of_nil (h : b.models = []) : ModelsMatch b := by
  intro path _
  rw [modelsOf, h]
  exact ⟨rfl, rfl⟩

theorem modelsMatch_withModels (h : ModelsMatch b) (hPath : models.path = (b.modelsOf path).path)
    (hType : models.pageType = (b.modelsOf path).pageType) : ModelsMatch (b.withModels path models) := by
  intro other hOther
  rw [modelsOf_withModels]
  split
  -- the key is not `noPath`, so it is the key of a path
  · next hKey =>
    have hPath' : path = some other := by
      cases path with
      | none => exact absurd hKey.symm hOther
      | some own => exact congrArg some hKey
    rw [hPath, hType, hPath']
    exact h other hOther
  · exact h other hOther

structure Remembers (b b' : Builder Template) : Prop where
  models : b'.models = b.models
  settings : b'.settings = b.settings

instance : IsPreorder (Builder Template) Remembers where
  refl _ := ⟨rfl, rfl⟩
  trans _ _ _ h h' := ⟨h'.models.trans h.models, h'.settings.trans h.settings⟩

theorem Remembers.modelsOf_eq (h : b.Remembers b') (path : Option Text) :
    b'.modelsOf path = b.modelsOf path := by
  rw [modelsOf, modelsOf, h.models, h.settings]

theorem remembers_onSite (job : Job (Site Template) α) : Keeps Remembers (onSite job) :=
  fun _ => ⟨rfl, rfl⟩

theorem remembers_inWorkspace (job : Job Workspace α) :
    Keeps Remembers (inWorkspace job : Job (Builder Template) α) :=
  remembers_onSite _

theorem remembers_typeOrPage (path : Text) (type : Option Text) :
    Keeps Remembers (typeOrPage path type : Job (Builder Template) Text) := by
  obtain h | ⟨given, h⟩ := typeOrPage_cases Template path type <;> rw [h]
  · exact keeps_get.bind fun _ => (remembers_inWorkspace _).bind fun _ => keeps_pure _
  · exact keeps_pure _

theorem remembers_normalize (path destination contents : Option Text) :
    Keeps Remembers (normalize path destination contents : Job (Builder Template) Normalized) := by
  have hContents : Keeps Remembers (contentsOf path contents : Job (Builder Template) Text) := by
    unfold contentsOf
    split
    · exact keeps_pure _
    · exact remembers_inWorkspace _
    · exact keeps_throw _
  have hWrite (text : Text) : Keeps Remembers (writeTo destination text :
      Job (Builder Template) Unit) := by
    unfold writeTo
    split
    · exact keeps_pure _
    · exact keeps_pure _
    · exact remembers_inWorkspace _
  exact hContents.bind fun _ => keeps_get.bind fun _ => (remembers_inWorkspace _).bind fun _ =>
    (hWrite _).bind fun _ => keeps_pure _

theorem remembers_compile (text : Text) (debug : Bool) :
    Keeps Remembers (compile text debug : Job (Builder Template) Template) :=
  keeps_get.bind fun _ => remembers_onSite _

theorem remembers_keep (cachePath name : Text) (template : Template) :
    Keeps Remembers (keep cachePath name template : Job (Builder Template) Text) :=
  (remembers_onSite _).bind fun _ => (keeps_ofExcept _ _).bind fun _ => keeps_get.bind fun _ =>
    (remembers_inWorkspace _).bind fun _ => keeps_pure _

structure KeepsModels (b b' : Builder Template) : Prop where
  settings : b'.settings = b.settings
  kept : ModelsMatch b → ModelsMatch b'

instance : IsPreorder (Builder Template) KeepsModels where
  refl _ := ⟨rfl, id⟩
  trans _ _ _ h h' := ⟨h'.settings.trans h.settings, h'.kept ∘ h.kept⟩

theorem Remembers.keepsModels (h : b.Remembers b') : b.KeepsModels b' where
  settings := h.settings
  kept hMatch path hPath := by
    rw [h.modelsOf_eq, h.settings]
    exact hMatch path hPath

theorem keepsModels_of_remembers {job : Job (Builder Template) α} (h : Keeps Remembers job) :
    Keeps KeepsModels job :=
  h.mono fun _ _ => Remembers.keepsModels

theorem keepsModels_prependModels (path : Option Text) (dirType template : Text)
    (refresh : Bool) :
    Keeps KeepsModels (prependModels path dirType template refresh :
      Job (Builder Template) Text) := by
  intro b
  rw [outcome_prependModels]
  split
  · next text after w hPrepend =>
    obtain ⟨hPath, hType⟩ := PageModels.of_outcome_prepend hPrepend
    exact ⟨rfl, fun h => modelsMatch_withModels h hPath hType⟩
  · exact ⟨rfl, fun h => modelsMatch_withModels h rfl rfl⟩

theorem keepsModels_precompile (file : Text) (models : Option Text) (dirTypes : Option (List Text))
    (debug : Bool) :
    Keeps KeepsModels (precompile file models dirTypes debug :
      Job (Builder Template) Precompiled) := by
  have hFile (name dirType : Text) : Keeps KeepsModels (precompileAs name
      (Path.ofText file).render models dirType debug : Job (Builder Template) Precompiled) := by
    refine (keepsModels_of_remembers (remembers_normalize _ _ _)).bind fun _ =>
      (keepsModels_prependModels _ _ _ _).bind fun text => keepsModels_of_remembers ?_
    exact (remembers_compile _ _).bind fun _ => (remembers_onSite _).bind fun _ =>
      (remembers_inWorkspace _).bind fun _ => keeps_get.bind fun _ => keeps_pure _
  intro b
  rw [outcome_precompile]
  split
  · exact hFile _ _ b
  · exact Std.Refl.refl b

theorem keepsModels_updateCache (path cachePath : Text) (dirType contents models : Option Text)
    (debug : Bool) :
    Keeps KeepsModels (updateCache path cachePath dirType contents models debug :
      Job (Builder Template) Text) := by
  rw [updateCache_eq]
  have hPrepare : Keeps KeepsModels (prepare path dirType contents models debug :
      Job (Builder Template) (Text × Template)) :=
    (keepsModels_of_remembers (remembers_typeOrPage _ _)).bind fun _ =>
      (keepsModels_of_remembers (remembers_normalize _ _ _)).bind fun _ =>
        (keepsModels_prependModels _ _ _ _).bind fun _ =>
          (keepsModels_of_remembers (remembers_compile _ _)).bind fun _ => keeps_pure _
  exact hPrepare.bind fun _ => keepsModels_of_remembers (remembers_keep _ _ _)

/-- What a builder can become: it is asked to compile or to update a cache, succeeding or not, and in
between anything may happen to the files and to what is installed. -/
inductive Reachable : Builder Template → Prop
  | fresh {b : Builder Template} : b.models = [] → Reachable b
  | precompile {b : Builder Template} (file : Text) (models : Option Text)
      (dirTypes : Option (List Text)) (debug : Bool) :
    Reachable b → Reachable ((Builder.precompile file models dirTypes debug).outcome b).2
  | updateCache {b : Builder Template} (path cachePath : Text)
      (dirType contents models : Option Text) (debug : Bool) :
    Reachable b →
      Reachable ((Builder.updateCache path cachePath dirType contents models debug).outcome b).2
  | elsewhere {b : Builder Template} (site : Site Template) :
    Reachable b → Reachable { b with site }

theorem Reachable.modelsMatch (h : Reachable b) : ModelsMatch b := by
  induction h with
  | fresh h => exact modelsMatch_of_nil h
  | precompile file models dirTypes debug _ ih =>
    exact (keepsModels_precompile file models dirTypes debug _).kept ih
  | updateCache path cachePath dirType contents models debug _ ih =>
    exact (keepsModels_updateCache path cachePath dirType contents models debug _).kept ih
  | elsewhere site _ ih => exact ih

end Builder

end RazorVash
