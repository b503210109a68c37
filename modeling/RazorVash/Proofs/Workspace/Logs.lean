import RazorVash.Proofs.Storage.Place
import RazorVash.Proofs.Workspace.Job

namespace RazorVash.Workspace

open Job

variable {α : Type} {w w' w₁ w₂ w₃ : Workspace} {path : Path} {location : Location}

/-- Nothing but logs has been written. -/
structure LogsOnly (w w' : Workspace) : Prop where
  shape : w.tree.SameShape w'.tree
  kept : ∀ l, (∀ handler ∈ w.handlers.all, handler.target ≠ .file l false) →
    w'.tree.find? l = w.tree.find? l
  handlers : w'.handlers = w.handlers

theorem LogsOnly.refl (w : Workspace) : LogsOnly w w := ⟨.refl _, fun _ _ => rfl, rfl⟩

theorem LogsOnly.trans (h : LogsOnly w₁ w₂) (h' : LogsOnly w₂ w₃) : LogsOnly w₁ w₃ :=
  ⟨h.shape.trans h'.shape, fun l hl => (h'.kept l (by rwa [h.handlers])).trans (h.kept l hl),
    h'.handlers.trans h.handlers⟩

instance : IsPreorder Workspace LogsOnly where
  refl := .refl
  trans := fun _ _ _ => .trans

theorem append_tree (w : Workspace) (location : Location) (text : Text) :
    w.tree.SameShape (w.append location text).tree ∧
      (w.append location text).handlers = w.handlers ∧
      ∀ l, l ≠ location → (w.append location text).tree.find? l = w.tree.find? l := by
  unfold append
  split
  · next content hFile =>
    refine ⟨Tree.sameShape_set_file hFile, rfl, fun l hl => ?_⟩
    rw [Tree.find?_set _ _ _ _ (Tree.ne_nil_of_file hFile), if_neg hl]
  · exact ⟨.refl _, rfl, fun _ _ => rfl⟩

theorem logsOnly_handle (record : Log.Record) {handler : Log.Handler}
    (h : handler ∈ w.handlers.all) : LogsOnly w (handle record w handler) := by
  unfold handle
  split
  · exact .refl w
  · simp only
    split
    · exact ⟨.refl _, fun _ _ => rfl, rfl⟩
    · next location deleted hTarget =>
      split
      · exact .refl w
      · next hOpen =>
        obtain ⟨hShape, hHandlers, hOthers⟩ := append_tree w location
          (handler.layout.line (w.stamp handler.layout) record ++ ['\n'])
        refine ⟨hShape, fun l hl => hOthers l ?_, hHandlers⟩
        rintro rfl
        exact hl handler h (by rw [hTarget, Bool.eq_false_iff.2 hOpen])

theorem logsOnly_foldl_handle (record : Log.Record) :
    ∀ {handlers : List Log.Handler} {w : Workspace}, (∀ handler ∈ handlers, handler ∈ w.handlers.all) →
      LogsOnly w (handlers.foldl (handle record) w) := by
  intro handlers
  induction handlers with
  | nil => exact fun _ => .refl _
  | cons handler handlers ih =>
    intro w h
    have hFirst := logsOnly_handle record (h handler List.mem_cons_self)
    refine hFirst.trans (ih fun other ho => ?_)
    rw [hFirst.handlers]
    exact h other (List.mem_cons_of_mem _ ho)

theorem logsOnly_logged (w : Workspace) (record : Log.Record) : LogsOnly w (w.logged record) := by
  unfold logged
  split
  · exact .refl w
  · have hKept : LogsOnly w (if Log.isOwn record.logger then
        { w with records := w.records ++ [record] } else w) := by
      split
      · exact ⟨.refl _, fun _ _ => rfl, rfl⟩
      · exact .refl w
    simp only
    split
    · exact hKept.trans ⟨.refl _, fun _ _ => rfl, rfl⟩
    · refine hKept.trans (logsOnly_foldl_handle record fun handler hh => ?_)
      rwa [hKept.handlers]

theorem keeps_log (record : Log.Record) : Keeps LogsOnly (log record) :=
  fun w => logsOnly_logged w record

theorem keeps_noted (outcome : Noted α) : Keeps LogsOnly (noted outcome) := by
  refine Keeps.bind (keeps_forM fun note _ => keeps_log note.record) fun _ => keeps_ofExcept _ _

/-- The notes of a pass are logged, whatever the outcome. -/
theorem exists_noted (outcome : Noted α) (w : Workspace) :
    ∃ w', (noted outcome).outcome w = (outcome.result.mapError .rewrite, w') ∧ LogsOnly w w' := by
  have hEach (note : Note) (_ : note ∈ outcome.notes) (v : Workspace) (hv : LogsOnly w v) :
      ∃ v', (log note.record).outcome v = (.ok (), v') ∧ LogsOnly w v' :=
    ⟨_, rfl, hv.trans (logsOnly_logged v note.record)⟩
  obtain ⟨w', hNotes, hw⟩ := exists_forM hEach (.refl w)
  refine ⟨w', ?_, hw⟩
  rw [noted, outcome_bind_of_ok hNotes, outcome_ofExcept]

theorem keeps_readText (path : Path) (encoding : Text) : Keeps LogsOnly (readText path encoding) :=
  keeps_get.bind fun _ => (keeps_ofExcept _ _).bind fun _ => (keeps_ofExcept _ _).bind fun _ =>
    (keeps_ofExcept _ _).bind fun _ => keeps_pure _

/-- No log handler has the file open that a path leads to, or that would be written there. -/
def Unlogged (path : Path) (w : Workspace) : Prop :=
  ∀ l, w.tree.locate path = .ok l ∨ w.tree.filePlace? path = .ok l →
    ∀ handler ∈ w.handlers.all, handler.target ≠ .file l false

theorem LogsOnly.unlogged (h : LogsOnly w w') (hu : Unlogged path w) : Unlogged path w' := by
  intro l hl handler hh
  rw [h.shape.locate_eq, h.shape.filePlace?_eq] at hl
  rw [h.handlers] at hh
  exact hu l hl handler hh

theorem LogsOnly.readBytes_eq (h : LogsOnly w w') (hu : Unlogged path w) :
    w'.tree.readBytes path = w.tree.readBytes path :=
  h.shape.readBytes_eq fun l hl => h.kept l (hu l (.inl hl))

end RazorVash.Workspace
