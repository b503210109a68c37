import RazorVash.Proofs.Workspace.Frame
import RazorVash.Workspace.Settings

namespace RazorVash

def Settings.NoLogFile (settings : Settings) : Prop :=
  settings.logFile = none ∨ settings.logFile = some []

namespace Workspace

open Job

variable {settings : Settings}

structure SameTree (w w' : Workspace) : Prop where
  tree : w'.tree = w.tree

instance : IsPreorder Workspace SameTree where
  refl _ := ⟨rfl⟩
  trans _ _ _ h h' := ⟨h'.tree.trans h.tree⟩

theorem keeps_readVariables : Keeps SameTree readVariables := by
  refine keeps_get.bind fun w => ?_
  split
  · refine Keeps.bind (fun w => ?_) fun _ => keeps_pure _
    rw [outcome_readText]
    exact Std.Refl.refl w
  · exact keeps_pure _

theorem keeps_currentSettings : Keeps SameTree currentSettings := by
  refine keeps_get.bind fun w => ?_
  split
  · exact keeps_pure _
  · refine Keeps.bind ?_ fun settings => Keeps.bind (fun w => ⟨rfl⟩) fun _ => keeps_pure _
    exact keeps_readVariables.bind fun _ => keeps_get.bind fun _ => keeps_ofExcept _ _

theorem exists_setUpLogging (h : settings.NoLogFile) (w : Workspace) :
    ∃ w', (setUpLogging settings).outcome w = (.ok (), w') ∧ SameTree w w' ∧
      ∀ l, ¬ w'.Logged l := by
  let level := Log.Level.ofSetting settings.logLevel
  let layout := Log.Layout.ofSetting settings.logFormat
  refine ⟨{ w with handlers := { level, all := [{ target := .console, layout, level }] } }, ?_,
    ⟨rfl⟩, ?_⟩
  · unfold setUpLogging
    rcases h with h | h <;> rw [h] <;> rfl
  · rintro l ⟨handler, hHandler, hTarget⟩
    rw [List.mem_singleton.1 hHandler] at hTarget
    cases hTarget

end Workspace

end RazorVash
