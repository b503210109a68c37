import RazorVash.Proofs.Workspace.Frame
import RazorVash.Template.File

namespace RazorVash.Template

open Job Workspace

variable {options : NormalizerOptions} {text encoding : Text} {source : Path}
  {output : Option Path} {overwrite : Bool} {normalized : Normalized} {l : Location}
  {w w' : Workspace} {e : Failure}

/-- What a template becomes. -/
def normalization (options : NormalizerOptions) (text : Text) : Except RewriteError Normalized :=
  let outcome := normalize options text none none
  outcome.result.map fun text => { text, warnings := outcome.warnings }

def normalizationAt (tree : Tree) (options : NormalizerOptions) (source : Path) (encoding : Text) :
    Except Failure Normalized := do
  let text ← tree.textAt source encoding
  (normalization options text).mapError .rewrite

theorem exists_normalizeText (options : NormalizerOptions) (text : Text) (w : Workspace) :
    ∃ w', (normalizeText options text).outcome w =
      ((normalization options text).mapError .rewrite, w') ∧ LogsOnly w w' := by
  obtain ⟨w', hNoted, hLogs⟩ := exists_noted (normalize options text none none) w
  refine ⟨w', ?_, hLogs⟩
  rw [normalizeText, normalizeMarked, outcome_bind, hNoted, normalization]
  rcases (normalize options text none none).result with _ | _ <;> rfl

/-- The source can be normalized, and the result may be written where it goes. -/
structure Convertible (options : NormalizerOptions) (source : Path) (output : Option Path)
    (overwrite : Bool) (encoding : Text) (tree : Tree) (normalized : Normalized) (l : Location) :
    Prop where
  normalizes : normalizationAt tree options source encoding = .ok normalized
  free : tree.pathExists (outputPath source output) = true → overwrite = true
  place : tree.filePlace? (outputPath source output) = .ok l

def writtenRecord (source output : Path) : Log.Record where
  level := .info
  logger := Log.loggerNamed "translator.normalizer"
  message := writtenMessage
  data := [("source".toList, .string source.render), ("output".toList, .string output.render)]

/-- What comes after the source has been normalized. -/
def place (source output : Path) (overwrite : Bool) (encoding : Text) (normalized : Normalized) :
    Job Workspace (Path × Normalized) := do
  if (← get).tree.pathExists output && !overwrite then throw (.outputExists output)
  writeFile output normalized.text encoding
  log (writtenRecord source output)
  return (output, normalized)

theorem exists_convertFile_eq_place (output : Option Path) (overwrite : Bool)
    (h : normalizationAt w.tree options source encoding = .ok normalized) :
    ∃ w', LogsOnly w w' ∧ (convertFile options source output overwrite encoding).outcome w =
      (place source (outputPath source output) overwrite encoding normalized).outcome w' := by
  rcases hText : w.tree.textAt source encoding with e | text
  · rw [normalizationAt, hText] at h
    cases h
  · rw [normalizationAt, hText] at h
    replace h : (normalization options text).mapError Failure.rewrite = .ok normalized := h
    obtain ⟨w', hNormalize, hLogs⟩ := exists_normalizeText options text w
    rw [h] at hNormalize
    refine ⟨w', hLogs, ?_⟩
    unfold convertFile place
    rw [outcome_bind_of_ok (outcome_get w), if_pos (Tree.pathExists_of_textAt hText), outcome_bind,
      outcome_readText, hText]
    simp only
    rw [outcome_bind_of_ok hNormalize]
    simp only [writeFile, bind_assoc, writtenRecord]

theorem exists_convertFile_error_of_source (output : Option Path) (overwrite : Bool)
    (h : normalizationAt w.tree options source encoding = .error e) :
    ∃ e' w', (convertFile options source output overwrite encoding).outcome w = (.error e', w') ∧
      LogsOnly w w' := by
  unfold convertFile
  rw [outcome_bind_of_ok (outcome_get w)]
  by_cases hExists : w.tree.pathExists source = true
  · rw [if_pos hExists, outcome_bind, outcome_readText]
    rcases hText : w.tree.textAt source encoding with e' | text
    · exact ⟨e', w, rfl, .refl w⟩
    · rw [normalizationAt, hText] at h
      replace h : (normalization options text).mapError Failure.rewrite = .error e := h
      obtain ⟨w', hNormalize, hLogs⟩ := exists_normalizeText options text w
      rw [h] at hNormalize
      exact ⟨e, w', outcome_bind_of_error hNormalize, hLogs⟩
  · rw [if_neg hExists]
    exact ⟨_, w, rfl, .refl w⟩

/-- A source that can be normalized is written to its output unless something is there that must
not be written over. -/
theorem exists_convertFile (hUtf8 : Encoding.ofName encoding = .ok .utf8)
    (h : Convertible options source output overwrite encoding w.tree normalized l) :
    ∃ w', (convertFile options source output overwrite encoding).outcome w =
        (.ok (outputPath source output, normalized), w') ∧
      Wrote (outputPath source output) l (Encoding.encodeUtf8 normalized.text) w w' := by
  obtain ⟨w₁, hRead, hPlace⟩ := exists_convertFile_eq_place output overwrite h.normalizes
  have hFree : ¬ (w₁.tree.pathExists (outputPath source output) && !overwrite) = true := by
    rw [hRead.shape.pathExists_eq]
    simpa using h.free
  have hFilePlace : w₁.tree.filePlace? (outputPath source output) = .ok l := by
    rw [hRead.shape.filePlace?_eq, h.place]
  obtain ⟨w₂, hWrite, hWrote⟩ := exists_writeFile hUtf8 normalized.text hFilePlace
  have hLogged := logsOnly_logged w₂ (writtenRecord source (outputPath source output))
  refine ⟨_, ?_, (hWrote.after hRead).before hLogged⟩
  rw [hPlace, place, outcome_bind_of_ok (outcome_get w₁), if_neg hFree,
    outcome_bind_of_ok hWrite]
  rfl

theorem exists_convertFile_error (hUtf8 : Encoding.ofName encoding = .ok .utf8)
    (h : ∀ normalized l,
      ¬ Convertible options source output overwrite encoding w.tree normalized l) :
    ∃ e w', (convertFile options source output overwrite encoding).outcome w = (.error e, w') ∧
      SameFiles w w' := by
  rcases hNormalizes : normalizationAt w.tree options source encoding with e | normalized
  · obtain ⟨e', w', hConvert, hLogs⟩ := exists_convertFile_error_of_source output overwrite
      hNormalizes
    exact ⟨e', w', hConvert, hLogs.sameFiles⟩
  · obtain ⟨w₁, hRead, hPlace⟩ := exists_convertFile_eq_place output overwrite hNormalizes
    rw [hPlace, place, outcome_bind_of_ok (outcome_get w₁), hRead.shape.pathExists_eq]
    by_cases hFree : w.tree.pathExists (outputPath source output) && !overwrite
    · rw [if_pos hFree]
      exact ⟨_, w₁, rfl, hRead.sameFiles⟩
    · rw [if_neg hFree]
      rcases hFilePlace : w.tree.filePlace? (outputPath source output) with e | l
      · rw [← hRead.shape.filePlace?_eq] at hFilePlace
        obtain ⟨w₂, hWrite, hSame⟩ := exists_writeFile_error hUtf8 normalized.text hFilePlace
        exact ⟨_, w₂, outcome_bind_of_error hWrite, IsTrans.trans _ _ _ hRead.sameFiles hSame⟩
      · exact absurd ⟨hNormalizes, by simpa using hFree, hFilePlace⟩ (h normalized l)

/-- A conversion that fails changes no file. One that succeeds has written the normalized source to
its output and changed no other file, and a file that was there before only if it was allowed to. -/
def AllOrNothing (options : NormalizerOptions) (source : Path) (output : Option Path)
    (overwrite : Bool) (encoding : Text) (w : Workspace) : Prop :=
  match (convertFile options source output overwrite encoding).outcome w with
  | (.error _, w') => SameFiles w w'
  | (.ok (path, normalized), w') =>
    path = outputPath source output ∧
      normalizationAt w.tree options source encoding = .ok normalized ∧
      ∃ l, Wrote path l (Encoding.encodeUtf8 normalized.text) w w' ∧
        (overwrite = false → ¬ w.Logged l → ∀ content, w.tree.fileAt? l = some content →
          w'.tree.fileAt? l = some content)

/-- The output is not found until the directories that lead to it have been made, and then it is a
file with other content that was not to be overwritten. -/
structure Clobbers (options : NormalizerOptions) (source : Path) (output : Option Path)
    (overwrite : Bool) (encoding : Text) (w : Workspace) (normalized : Normalized) (l : Location)
    (content : Bytes) : Prop where
  forbidden : overwrite = false
  normalizes : normalizationAt w.tree options source encoding = .ok normalized
  unseen : w.tree.pathExists (outputPath source output) = false
  place : w.tree.filePlace? (outputPath source output) = .ok l
  unlogged : ¬ w.Logged l
  found : w.tree.fileAt? l = some content
  other : content ≠ Encoding.encodeUtf8 normalized.text

theorem Clobbers.convertible {content : Bytes}
    (h : Clobbers options source output overwrite encoding w normalized l content) :
    Convertible options source output overwrite encoding w.tree normalized l where
  normalizes := h.normalizes
  free hExists := by
    rw [h.unseen] at hExists
    cases hExists
  place := h.place

theorem allOrNothing_iff (hUtf8 : Encoding.ofName encoding = .ok .utf8) (w : Workspace) :
    AllOrNothing options source output overwrite encoding w ↔
      ∀ normalized l content,
        ¬ Clobbers options source output overwrite encoding w normalized l content := by
  constructor
  · intro h normalized l content hClobbers
    obtain ⟨w', hConvert, hWrote⟩ := exists_convertFile hUtf8 hClobbers.convertible
    simp only [AllOrNothing, hConvert] at h
    obtain ⟨-, -, l', hWrote', hKept⟩ := h
    obtain rfl : l' = l := Except.ok.inj (hWrote'.place.symm.trans hWrote.place)
    have hStill := hKept hClobbers.forbidden hClobbers.unlogged content hClobbers.found
    rw [hWrote.written hClobbers.unlogged] at hStill
    exact hClobbers.other (Option.some.inj hStill).symm
  · intro h
    by_cases hConvertible : ∃ normalized l,
        Convertible options source output overwrite encoding w.tree normalized l
    · obtain ⟨normalized, l, hConvertible⟩ := hConvertible
      obtain ⟨w', hConvert, hWrote⟩ := exists_convertFile hUtf8 hConvertible
      simp only [AllOrNothing, hConvert]
      refine ⟨trivial, hConvertible.normalizes, l, hWrote,
        fun hForbidden hUnlogged content hFound => ?_⟩
      rw [hWrote.written hUnlogged]
      by_cases hSame : content = Encoding.encodeUtf8 normalized.text
      · rw [hSame]
      · -- it was looked for before there were directories that lead to it
        have hUnseen : w.tree.pathExists (outputPath source output) = false := by
          simpa [hForbidden] using hConvertible.free
        exact absurd ⟨hForbidden, hConvertible.normalizes, hUnseen, hConvertible.place, hUnlogged,
          hFound, hSame⟩ (h normalized l content)
    · obtain ⟨e, w', hConvert, hSame⟩ := exists_convertFile_error hUtf8 fun normalized l hl =>
        hConvertible ⟨normalized, l, hl⟩
      simp only [AllOrNothing, hConvert]
      exact hSame

end RazorVash.Template
