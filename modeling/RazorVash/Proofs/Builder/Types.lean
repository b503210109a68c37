import Mathlib.Data.List.Find
import RazorVash.Proofs.Builder.Sources
import RazorVash.Proofs.Naming.Segments

namespace RazorVash

open Job

namespace Naming

variable {path default found type : Text} {types : List Text}

/-- A candidate that is a directory of the path, or the default if none of them is. -/
def Finds (path : Text) (types : List Text) (default found : Text) : Prop :=
  (found ∈ types ∧ found ∈ directories path) ∨
    (found = default ∧ ∀ type ∈ types, type ∉ directories path)

/-- The first segment of the path is a type directory and not of the default type, and no other
directory is one. -/
def Overlooks (path : Text) (types : List Text) (default : Text) : Prop :=
  ∃ first inside, directories path = first :: inside ∧ first ∈ types ∧ first ≠ default ∧
    ∀ type ∈ types, type ∉ inside

instance (path : Text) (types : List Text) (default : Text) :
    Decidable (Overlooks path types default) :=
  match h : directories path with
  | [] => .isFalse (by simp [Overlooks, h])
  | first :: inside =>
    decidable_of_iff (first ∈ types ∧ first ≠ default ∧ ∀ type ∈ types, type ∉ inside)
      (by simp [Overlooks, h])

theorem contains_slashed_iff (hType : '/' ∉ type) :
    Text.contains ('/' :: type ++ ['/']) (slash path) = true ↔ type ∈ (directories path).tail := by
  rw [← slashed_infix_iff hType, Text.contains, ← not_iff_not, ← Text.cut?_eq_none]
  simp

/-- The first segment is passed over. -/
theorem dirType_eq (hTypes : ∀ type ∈ types, '/' ∉ type) (default : Text) :
    dirType path types default =
      (types.find? fun type => type ∈ (directories path).tail).getD default := by
  have hFind : (types.find? fun type => Text.contains ('/' :: type ++ ['/']) (slash path)) =
      types.find? fun type => type ∈ (directories path).tail := by
    refine List.find?_congr fun type hType => ?_
    rw [Bool.eq_iff_iff, decide_eq_true_iff]
    exact contains_slashed_iff (hTypes type hType)
  rw [dirType, hFind]

theorem finds_dirType_iff (hTypes : ∀ type ∈ types, '/' ∉ type) (default : Text) :
    Finds path types default (dirType path types default) ↔ ¬ Overlooks path types default := by
  rw [dirType_eq hTypes]
  rcases hFound : types.find? fun type => type ∈ (directories path).tail with _ | found
  · have hInside : ∀ type ∈ types, type ∉ (directories path).tail := by
      simpa using List.find?_eq_none.1 hFound
    unfold Finds Overlooks
    rcases hPath : directories path with _ | ⟨first, inside⟩
    · simp
    · rw [hPath, List.tail_cons] at hInside
      simp only [Option.getD_none, List.cons.injEq, true_and, List.mem_cons, not_or]
      by_cases hFirst : first ∈ types
      · -- the default is right only by being the type of that segment
        constructor
        · rintro (⟨hType, hSame | hMem⟩ | hNone) ⟨_, _, ⟨rfl, rfl⟩, -, hNe, -⟩
          · exact hNe hSame.symm
          · exact hInside default hType hMem
          · exact (hNone first hFirst).1 rfl
        · intro hSeen
          have hSame : first = default := by
            by_contra hNe
            exact hSeen ⟨first, inside, ⟨rfl, rfl⟩, hFirst, hNe, hInside⟩
          exact .inl ⟨hSame ▸ hFirst, .inl hSame.symm⟩
      · refine iff_of_true (.inr fun type hType => ⟨?_, hInside type hType⟩) ?_
        · rintro rfl
          exact hFirst hType
        · rintro ⟨_, _, ⟨rfl, rfl⟩, hType, -⟩
          exact hFirst hType
  · have hType := List.mem_of_find?_eq_some hFound
    have hInside : found ∈ (directories path).tail := by simpa using List.find?_some hFound
    refine iff_of_true (.inl ⟨hType, List.mem_of_mem_tail hInside⟩) ?_
    rintro ⟨first, inside, hPath, -, -, hNone⟩
    rw [hPath] at hInside
    exact hNone found hType hInside

end Naming

theorem PageModels.eq_of_prepend {models after : PageModels} {dirType template text : Text}
    {refresh : Bool} {w w' : Workspace} (hType : dirType ≠ models.pageType)
    (h : (models.prepend dirType template refresh).outcome w = (.ok (text, after), w')) :
    text = template := by
  obtain ⟨found, w₁, -, h⟩ := outcome_bind_eq_ok.1 h
  split at h
  · obtain ⟨⟨rfl, -⟩, -⟩ : (template = text ∧ models = after) ∧ w₁ = w' := by simpa using h
    rfl
  · rw [if_neg hType] at h
    exact (Prod.mk.inj (Except.ok.inj (Prod.mk.inj h).1)).1.symm

namespace Builder

variable {Template : Type} {past : List Visit} {b b' : Builder Template} {file : Text}
  {models : Option Text} {dirTypes : Option (List Text)} {debug : Bool} {result : Precompiled}

/-- If the file is compiled, the template is named for this type, and unless it is the type of pages,
nothing is put before the normalized template. -/
structure PrecompilesAs (type file : Text) (models : Option Text) (dirTypes : Option (List Text))
    (debug : Bool) (b : Builder Template) : Prop where
  name : ∀ result b', (precompile file models dirTypes debug).outcome b = (.ok result, b') →
    result.name = Naming.templateName type (Naming.slash (Path.ofText file).render)
  text : type ≠ b.settings.pageDirType →
    ∀ text ∈ (Call.precompile file models dirTypes debug).compiled b, ∃ normalized b₁,
      (normalize (some (Path.ofText file).render) none none).outcome b = (.ok normalized, b₁) ∧
        text = normalized.text

theorem name_of_precompile (h : (precompile file models dirTypes debug).outcome b = (.ok result, b')) :
    result.name = Naming.templateName (typeOf b.settings file dirTypes)
      (Naming.slash (Path.ofText file).render) := by
  rw [outcome_precompile] at h
  split at h
  · obtain ⟨normalized, b₁, -, h⟩ := outcome_bind_eq_ok.1 h
    obtain ⟨text, b₂, -, h⟩ := outcome_bind_eq_ok.1 h
    obtain ⟨template, b₃, -, h⟩ := outcome_bind_eq_ok.1 h
    obtain ⟨_, b₄, -, h⟩ := outcome_bind_eq_ok.1 h
    obtain ⟨_, b₅, -, h⟩ := outcome_bind_eq_ok.1 h
    obtain ⟨b₆, b₇, -, h⟩ := outcome_bind_eq_ok.1 h
    rw [← Except.ok.inj (Prod.mk.inj h).1]
  · cases (Prod.mk.inj h).1

theorem normalized_precompile {dirType : Text} {normalized : Normalized}
    (h : (Call.precompile file models dirTypes debug).normalized.outcome b =
      (.ok (dirType, normalized), b')) :
    dirType = typeOf b.settings file dirTypes ∧
      (normalize (some (Path.ofText file).render) none none).outcome b = (.ok normalized, b') := by
  rw [Call.normalized, outcome_bind_of_ok (outcome_get b)] at h
  split at h
  · obtain ⟨found, b₁, hNormalize, h⟩ := outcome_bind_eq_ok.1 h
    obtain ⟨⟨rfl, rfl⟩, rfl⟩ :
        (typeOf b.settings file dirTypes = dirType ∧ found = normalized) ∧ b₁ = b' := by
      simpa using h
    exact ⟨rfl, hNormalize⟩
  · cases (Prod.mk.inj h).1

theorem precompilesAs_typeOf (h : Visited past b) (file : Text) (models : Option Text)
    (dirTypes : Option (List Text)) (debug : Bool) :
    PrecompilesAs (typeOf b.settings file dirTypes) file models dirTypes debug b := by
  refine ⟨fun result b' => name_of_precompile, fun hType text hText => ?_⟩
  rcases hNormalized : (Call.precompile file models dirTypes debug).normalized.outcome b with
    ⟨f | ⟨dirType, normalized⟩, b₁⟩
  · rw [(Call.run_of_normalized_error hNormalized).2] at hText
    cases hText
  · obtain ⟨rfl, hNormalize⟩ := normalized_precompile hNormalized
    refine ⟨normalized, b₁, hNormalize, ?_⟩
    have hRemembers := Keeps.of_outcome (Call.remembers_normalized _) hNormalized
    have hSourced := h.sourced.remembers hRemembers models
    have hPrepend := outcome_prependModels models (typeOf b.settings file dirTypes) normalized.text
      false b₁
    rcases hRun : ((b₁.modelsOf models).prepend (typeOf b.settings file dirTypes) normalized.text
      false).outcome b₁.site.workspace with ⟨f | ⟨placed, after⟩, w⟩ <;> rw [hRun] at hPrepend
    · rw [(Call.run_of_prepend_error hNormalized hPrepend).2] at hText
      cases hText
    · rw [(Call.run_of_prepend hNormalized hPrepend).2] at hText
      rw [List.mem_singleton.1 hText]
      refine PageModels.eq_of_prepend ?_ hRun
      rwa [hSourced.type, hRemembers.settings]

/-- The type that is found for a path is one of its directories, or the default if it has no type
directory; and a file at that path is compiled as a template of such a type. -/
def DetectsTypes (path : Text) (types : List Text) (default : Text) : Prop :=
  Naming.Finds path types default (Naming.dirType path types default) ∧
    ∀ (Template : Type) (past : List Visit) (b : Builder Template) (file : Text)
      (models : Option Text) (dirTypes : Option (List Text)) (debug : Bool), Visited past b →
      Naming.slash (Path.ofText file).render = path → candidateTypes b.settings dirTypes = types →
      b.settings.pageDirType = default →
        ∃ type, Naming.Finds path types default type ∧
          PrecompilesAs type file models dirTypes debug b

/-- Types are found as they should be exactly if the first segment of the path is not overlooked. -/
theorem detectsTypes_iff {types : List Text}
    (hTypes : ∀ type ∈ types, type ≠ [] ∧ '/' ∉ type ∧ '\\' ∉ type) (path default : Text) :
    DetectsTypes path types default ↔ ¬ Naming.Overlooks path types default := by
  have hFinds : Naming.Finds path types default (Naming.dirType path types default) ↔
      ¬ Naming.Overlooks path types default :=
    Naming.finds_dirType_iff (fun type h => (hTypes type h).2.1) default
  refine ⟨fun h => hFinds.1 h.1, fun hSeen => ⟨hFinds.2 hSeen, ?_⟩⟩
  rintro Template past b file models dirTypes debug hVisited rfl rfl rfl
  exact ⟨_, hFinds.2 hSeen, precompilesAs_typeOf hVisited file models dirTypes debug⟩

/-- The path begins with a type directory, and another one inside it is found, after a separator of the
other kind. -/
theorem detectsTypes_inner_type :
    let path := "wg/app\\glb/nav/item.vash".toList
    let types := ["pg".toList, "wg".toList, "glb".toList]
    (∀ type ∈ types, type ≠ [] ∧ '/' ∉ type ∧ '\\' ∉ type) ∧
      ¬ Naming.Overlooks path types "pg".toList ∧ DetectsTypes path types "pg".toList := by
  intro path types
  have hTypes : ∀ type ∈ types, type ≠ [] ∧ '/' ∉ type ∧ '\\' ∉ type := by decide +kernel
  have hSeen : ¬ Naming.Overlooks path types "pg".toList := by decide +kernel
  exact ⟨hTypes, hSeen, (detectsTypes_iff hTypes path _).2 hSeen⟩

def oneWidget : Builder Text :=
  { verbatim with
    settings := { dirTypes := ["pg".toList, "wg".toList] }
    site := { verbatim.site with workspace := { Workspace.empty with
      tree := {
        entries := [
          (["wg".toList], .directory),
          (["wg".toList, "nav".toList], .directory),
          (["wg".toList, "nav".toList, "item.vash".toList],
            .file (Encoding.encodeUtf8 "<p></p>".toList)),
          (["models.js".toList], .file (Encoding.encodeUtf8 "var b = 2;".toList))]
        current := [] } } } }

/-- The widget is named as a page and compiled with the models of pages before it. -/
theorem not_detectsTypes_first_segment :
    let path := "wg/nav/item.vash".toList
    let types := ["pg".toList, "wg".toList]
    let call := Call.precompile path (some "models.js".toList) none false
    (∀ type ∈ types, type ≠ [] ∧ '/' ∉ type ∧ '\\' ∉ type) ∧
      Naming.dirType path types "pg".toList = "pg".toList ∧
      ((precompile path (some "models.js".toList) none false).outcome oneWidget).1.toOption.map
        (·.name) = some "pg_item".toList ∧
      call.compiled oneWidget = [wrapModels "var b = 2;".toList ++ "<p></p>".toList] ∧
      ¬ DetectsTypes path types "pg".toList := by
  intro path types call
  have hTypes : ∀ type ∈ types, '/' ∉ type := by decide +kernel
  refine ⟨by decide +kernel, by decide +kernel, by decide +kernel, by decide +kernel, fun h => ?_⟩
  have hSeen := (Naming.finds_dirType_iff hTypes "pg".toList).1 h.1
  revert hSeen
  decide +kernel

end Builder

end RazorVash
