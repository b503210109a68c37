import RazorVash.CommandLine.Program
import RazorVash.Proofs.Template.Conversion
import RazorVash.Proofs.Workspace.Settings

namespace RazorVash.CommandLine

open Job Workspace Template

variable {settings : Settings} {arguments : Arguments} {words : List Text} {w : Workspace}
  {t u : Tree} {delivered delivered' : Tree → Prop} {outcome : Except Failure Ending × Workspace}

def Arguments.options (arguments : Arguments) (settings : Settings) :
    Except Invalid NormalizerOptions :=
  NormalizerOptions.ofTexts (arguments.ignoreStart.getD settings.ignoreStart)
    (arguments.ignoreEnd.getD settings.ignoreEnd) settings.helpersName

def Arguments.sourcePath (arguments : Arguments) : Path := Path.ofText arguments.source

def Arguments.outputPath (arguments : Arguments) : Path :=
  Template.outputPath arguments.sourcePath (arguments.output.map Path.ofText)

/-- The output holds the normalized source, and no other file has been changed. -/
def Delivered (settings : Settings) (arguments : Arguments) (t u : Tree) : Prop :=
  ∃ options normalized l, arguments.options settings = .ok options ∧
    normalizationAt t options arguments.sourcePath arguments.encoding = .ok normalized ∧
    u.locate arguments.outputPath = .ok l ∧
    u.fileAt? l = some (Encoding.encodeUtf8 normalized.text) ∧
    ∀ other, other ≠ l → u.fileAt? other = t.fileAt? other

/-- A run ends with code 0 and what it has to deliver, or otherwise with all files as they were. -/
def Settles (delivered : Tree → Prop) (t : Tree) : Except Failure Ending × Workspace → Prop
  | (.ok (.finished 0), w) => delivered w.tree
  | (_, w) => t.SameContents w.tree

theorem Settles.mono (h : Settles delivered t outcome) (hMore : ∀ u, delivered u → delivered' u) :
    Settles delivered' t outcome := by
  unfold Settles at h ⊢
  split at h
  · exact hMore _ h
  · exact h

theorem exists_report (quiet : Bool) (result : Path × Normalized) (w : Workspace) :
    ∃ w', (report quiet result).outcome w = (.ok (), w') ∧ SameTree w w' := by
  have hEach (warning : Text) (_ : warning ∈ result.2.warnings) (v : Workspace)
      (hv : SameTree w v) :
      ∃ v', (printError ("Warning: ".toList ++ warning ++ ['\n'])).outcome v = (.ok (), v') ∧
        SameTree w v' :=
    ⟨_, rfl, ⟨hv.tree⟩⟩
  obtain ⟨w', hWarned, hw⟩ := exists_forM hEach (Std.Refl.refl w)
  unfold report
  rw [outcome_bind_of_ok hWarned]
  cases quiet with
  | true => exact ⟨w', rfl, hw⟩
  | false => exact ⟨_, rfl, ⟨hw.tree⟩⟩

/-- A conversion gives a result that it has written, or fails and has written nothing. -/
theorem convert_cases (settings : Settings)
    (hUtf8 : Encoding.ofName arguments.encoding = .ok .utf8)
    (hUnlogged : ∀ l, ¬ w.Logged l) :
    (∃ result w', (convert settings arguments).outcome w = (.ok result, w') ∧
      Delivered settings arguments w.tree w'.tree) ∨
    ∃ e w', (convert settings arguments).outcome w = (.error e, w') ∧
      w.tree.SameContents w'.tree := by
  unfold convert
  rw [outcome_ofExcept_bind]
  rcases hOptions : NormalizerOptions.ofTexts _ _ _ with e | options
  · exact .inr ⟨_, w, rfl, Std.Refl.refl _⟩
  · by_cases hConvertible : ∃ normalized l, Convertible options arguments.sourcePath
        (arguments.output.map Path.ofText) arguments.overwrite arguments.encoding w.tree normalized l
    · obtain ⟨normalized, l, hConvertible⟩ := hConvertible
      obtain ⟨w', hConvert, hWrote⟩ := exists_convertFile hUtf8 hConvertible
      exact .inl ⟨_, w', hConvert, options, normalized, l, hOptions, hConvertible.normalizes,
        hWrote.place, hWrote.written (hUnlogged l),
        fun other ho => hWrote.others other ho (hUnlogged other)⟩
    · obtain ⟨e, w', hConvert, hSame⟩ := exists_convertFile_error hUtf8 fun normalized l hl =>
        hConvertible ⟨normalized, l, hl⟩
      exact .inr ⟨e, w', hConvert, hSame.sameContents hUnlogged⟩

theorem settles_work (hLog : settings.NoLogFile)
    (hUtf8 : Encoding.ofName arguments.encoding = .ok .utf8) (w : Workspace) :
    Settles (Delivered settings arguments w.tree) w.tree ((work settings arguments).outcome w) := by
  obtain ⟨w₁, hSetUp, hTree, hUnlogged⟩ := exists_setUpLogging hLog w
  rw [work, outcome_bind_of_ok hSetUp, outcome_tryCatch, outcome_bind, ← hTree.tree]
  rcases convert_cases settings hUtf8 hUnlogged with
    ⟨result, w₂, hConvert, hDelivered⟩ | ⟨e, w₂, hConvert, hSame⟩
  · obtain ⟨w₃, hReport, hPrinted⟩ := exists_report arguments.quiet result w₂
    simp only [hConvert, outcome_bind_of_ok hReport, outcome_pure, Settles, hPrinted.tree]
    exact hDelivered
  · simp only [hConvert]
    by_cases hReported : e.isReported
    · rw [if_pos hReported]
      exact hSame
    · rw [if_neg hReported]
      exact hSame

/-- No log file is configured, and files are read and written in UTF-8. -/
structure Plain (words : List Text) (w : Workspace) : Prop where
  noLogFile : ∀ settings, (currentSettings.outcome w).1 = .ok settings → settings.NoLogFile
  utf8 : ∀ arguments, Reading.ofTexts words = .run arguments →
    Encoding.ofName arguments.encoding = .ok .utf8

def Fulfilled (words : List Text) (w : Workspace) (u : Tree) : Prop :=
  ∃ settings arguments, (currentSettings.outcome w).1 = .ok settings ∧
    Reading.ofTexts words = .run arguments ∧ Delivered settings arguments w.tree u

theorem settles_run (h : Plain words w) :
    Settles (Fulfilled words w) w.tree ((run words).outcome w) := by
  have hTree := (keeps_currentSettings w).tree
  unfold run
  rw [outcome_bind]
  rcases hSettings : currentSettings.outcome w with ⟨e | settings, w₁⟩ <;> rw [hSettings] at hTree
  · exact ⟨fun l => by rw [hTree]⟩
  · have hSame : w.tree.SameContents w₁.tree := ⟨fun l => by rw [hTree]⟩
    rcases hReading : Reading.ofTexts words with arguments | _ | reason
    · have hLog := h.noLogFile settings (congrArg Prod.fst hSettings)
      have hWork := settles_work hLog (h.utf8 arguments hReading) w₁
      rw [hTree] at hWork
      exact hWork.mono fun u hDelivered =>
        ⟨settings, arguments, congrArg Prod.fst hSettings, hReading, hDelivered⟩
    · simp only [outcome_ofExcept_bind]
      rcases Help.text settings with fault | text
      · exact hSame
      · exact hSame
    · exact hSame

/-- What conversions and runs do to files: a conversion is all or nothing exactly if it does not
clobber a file, and a run without a log file tells by its code whether it has written its result. -/
theorem allOrNothing_and_settles {encoding : Text} (hUtf8 : Encoding.ofName encoding = .ok .utf8)
    (options : NormalizerOptions) (source : Path) (output : Option Path) (overwrite : Bool)
    (w : Workspace) :
    (AllOrNothing options source output overwrite encoding w ↔
      ∀ normalized l content,
        ¬ Clobbers options source output overwrite encoding w normalized l content) ∧
    ∀ words, Plain words w → Settles (Fulfilled words w) w.tree ((run words).outcome w) :=
  ⟨allOrNothing_iff hUtf8 w, fun _ => settles_run⟩

def oneTemplate : Workspace :=
  { Workspace.empty with tree := {
      entries := [(["a.vash".toList], .file (Encoding.encodeUtf8 "<p>@* x *@</p>".toList))]
      current := [] } }

def templatePath : Path := Path.ofText "a.vash".toList

theorem plain_oneTemplate : Plain ["a.vash".toList, "new/b.vash".toList] oneTemplate where
  noLogFile settings h := by
    have hDefault : (currentSettings.outcome oneTemplate).1 = .ok {} :=
      Outcome.eq_ok_of_toOption (by decide +kernel)
    obtain rfl := Except.ok.inj (hDefault.symm.trans h)
    exact .inl rfl
  utf8 arguments h := by
    have hReading : Reading.ofTexts ["a.vash".toList, "new/b.vash".toList] =
      .run { source := "a.vash".toList, output := some "new/b.vash".toList } := by decide +kernel
    rw [hReading] at h
    cases h
    exact ofName_standardEncoding

theorem allOrNothing_and_settles_new_directory :
    let words := ["a.vash".toList, "new/b.vash".toList]
    AllOrNothing {} templatePath (some (Path.ofText "new/b.vash".toList)) false standardEncoding
        oneTemplate ∧
      ((run words).outcome oneTemplate).1.toOption = some (.finished 0) ∧
      Settles (Fulfilled words oneTemplate) oneTemplate.tree ((run words).outcome oneTemplate) := by
  intro words
  have hBoth := allOrNothing_and_settles ofName_standardEncoding {} templatePath
    (some (Path.ofText "new/b.vash".toList)) false oneTemplate
  refine ⟨hBoth.1.2 fun normalized l content h => ?_, by decide +kernel,
    hBoth.2 words plain_oneTemplate⟩
  -- nothing is there yet that could be written over
  have hPlace : oneTemplate.tree.filePlace? (Path.ofText "new/b.vash".toList) =
      .ok ["new".toList, "b.vash".toList] := Outcome.eq_ok_of_toOption (by decide +kernel)
  obtain rfl := Except.ok.inj (hPlace.symm.trans h.place)
  have hNone : oneTemplate.tree.fileAt? ["new".toList, "b.vash".toList] = none := by decide +kernel
  have hFound := hNone.symm.trans h.found
  cases hFound

/-- The output is the template itself once the directory `new` has been made. -/
theorem not_allOrNothing_through_new_directory :
    let output := some (Path.ofText "new/../a.vash".toList)
    let outcome := (convertFile {} templatePath output false standardEncoding).outcome oneTemplate
    outcome.1.toOption.map Prod.snd = some ⟨"<p></p>".toList, []⟩ ∧
      outcome.2.tree.fileAt? ["a.vash".toList] = some (Encoding.encodeUtf8 "<p></p>".toList) ∧
      ¬ AllOrNothing {} templatePath output false standardEncoding oneTemplate := by
  intro output outcome
  refine ⟨by decide +kernel, by decide +kernel, fun h => ?_⟩
  refine (allOrNothing_iff ofName_standardEncoding oneTemplate).1 h ⟨"<p></p>".toList, []⟩
    ["a.vash".toList] (Encoding.encodeUtf8 "<p>@* x *@</p>".toList) ?_
  exact {
    forbidden := rfl
    normalizes := Outcome.eq_ok_of_toOption (by decide +kernel)
    unseen := by decide +kernel
    place := Outcome.eq_ok_of_toOption (by decide +kernel)
    unlogged := fun ⟨_, hHandler, _⟩ => by cases hHandler
    found := by decide +kernel
    other := by decide +kernel }

end RazorVash.CommandLine
