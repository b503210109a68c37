import RazorVash.Cache.Basic
import RazorVash.Proofs.Json.Plain
import RazorVash.Proofs.Json.RoundTrip
import RazorVash.Proofs.Workspace.Files
import RazorVash.Proofs.Workspace.Logs

namespace RazorVash.TemplateCache

open Job Workspace

variable {path : Path} {cache : TemplateCache} {name : Text} {form : Json} {entries : Entries Json}
  {w w' : Workspace} {tree : Tree} {l : Location} {e : FileError} {f : Failure}

/-- What the cache file at a path holds; a missing file holds nothing. -/
def held (path : Path) (tree : Tree) : Except Failure (Entries Json) :=
  if tree.pathExists path then (tree.textAt path standardEncoding).bind (parse path) else .ok []

/-! ### Looking into a cache -/

theorem outcome_readEntries (path : Path) (w : Workspace) :
    (readEntries path).outcome w = ((w.tree.textAt path standardEncoding).bind (parse path), w) := by
  unfold readEntries
  rw [outcome_bind, outcome_readText]
  rcases w.tree.textAt path standardEncoding with _ | text
  · rfl
  · simp only [outcome_ofExcept, Except.bind]
    rcases parse path text with _ | _ <;> rfl

theorem outcome_load (cache : TemplateCache) (w : Workspace) :
    cache.load.outcome w = (held cache.path w.tree, w) := by
  unfold load held
  rw [outcome_bind_of_ok (outcome_get w)]
  split
  · exact outcome_readEntries cache.path w
  · rfl

theorem outcome_find? (cache : TemplateCache) (name : Text) (w : Workspace) :
    (cache.find? name).outcome w = ((held cache.path w.tree).map (·.find? name), w) := by
  unfold find?
  rw [outcome_bind, outcome_load]
  rcases held cache.path w.tree with _ | _ <;> rfl

theorem outcome_names (cache : TemplateCache) (w : Workspace) :
    cache.names.outcome w =
      ((held cache.path w.tree).map fun entries =>
        entries.names.mergeSort fun a b => !decide (b < a), w) := by
  unfold names
  rw [outcome_bind, outcome_load]
  rcases held cache.path w.tree with _ | _ <;> rfl

theorem outcome_load?_of_exists (hJson : isJsonFile path = true) (h : w.tree.pathExists path = true) :
    (load? path).outcome w = ((held path w.tree).map some, w) := by
  unfold load? held
  rw [outcome_bind_of_ok (outcome_get w), h, hJson, Bool.and_self, if_pos rfl, if_pos rfl,
    outcome_bind, outcome_readEntries]
  rcases (w.tree.textAt path standardEncoding).bind (parse path) with _ | _ <;> rfl

theorem exists_load?_of_missing (h : w.tree.pathExists path = false) :
    ∃ w', (load? path).outcome w = (.ok none, w') ∧ LogsOnly w w' := by
  unfold load?
  rw [outcome_bind_of_ok (outcome_get w), h, Bool.false_and, if_neg Bool.false_ne_true]
  exact ⟨_, rfl, logsOnly_logged w _⟩

/-! ### Cache files -/

theorem exists_name_of_isJsonFile (h : isJsonFile path = true) :
    ∃ name, path.segments.getLast? = some name ∧ name ≠ ['.', '.'] := by
  rw [isJsonFile, decide_eq_true_eq, Path.suffix, Path.name] at h
  rcases hLast : path.segments.getLast? with _ | name
  · rw [hLast] at h
    exact absurd h (by decide)
  · refine ⟨name, rfl, ?_⟩
    rintro rfl
    rw [hLast] at h
    exact absurd h (by decide)

theorem exists_readBytes_of_textAt {text : Text}
    (h : tree.textAt path standardEncoding = .ok text) : ∃ bytes, tree.readBytes path = .ok bytes := by
  rcases hBytes : tree.readBytes path with e | bytes
  · rw [Tree.textAt, hBytes] at h
    cases h
  · exact ⟨bytes, rfl⟩

theorem exists_filePlace?_of_held (hJson : isJsonFile path = true)
    (h : held path tree = .ok entries) (hPresent : tree.pathExists path = true) :
    ∃ l, tree.filePlace? path = .ok l := by
  obtain ⟨name, hLast, hName⟩ := exists_name_of_isJsonFile hJson
  rw [held, if_pos hPresent] at h
  obtain ⟨bytes, hBytes⟩ : ∃ bytes, tree.readBytes path = .ok bytes := by
    rcases hText : tree.textAt path standardEncoding with _ | text
    · rw [hText] at h
      cases h
    · exact exists_readBytes_of_textAt hText
  obtain ⟨l, hl, hFile⟩ := Tree.readBytes_eq_ok.1 hBytes
  exact ⟨l, Tree.filePlace?_of_file hLast hName hl hFile⟩

theorem held_of_logsOnly (h : LogsOnly w w') (hu : Unlogged path w) :
    held path w'.tree = held path w.tree := by
  unfold held Tree.textAt
  rw [h.shape.pathExists_eq, h.readBytes_eq hu]

theorem within_of_parse {text : Text} (h : parse path text = .ok entries) :
    Json.Within Json.deepest (.object entries) := by
  unfold parse at h
  split at h
  · next hRead =>
    obtain rfl := Except.ok.inj h
    exact Json.within_of_read hRead
  · cases h
  · split at h <;> cases h

theorem within_of_held (h : held path tree = .ok entries) :
    Json.Within Json.deepest (.object entries) := by
  unfold held at h
  split at h
  · rcases hText : tree.textAt path standardEncoding with _ | text <;> rw [hText] at h
    · cases h
    · exact within_of_parse h
  · obtain rfl := Except.ok.inj h
    exact .object List.nodup_nil (by simp)

theorem within_put (h : Json.Within Json.deepest (.object entries))
    (hForm : Json.Within (Json.deepest - 1) form) :
    Json.Within Json.deepest (.object (entries.put name form)) := by
  cases h with
  | object hNames hMembers =>
    refine .object (Entries.nodup_names_put hNames) fun member hm => ?_
    rcases Entries.mem_put hm with hm | he
    · exact hMembers member hm
    · exact he ▸ hForm

/-- What was written is read back, but for doubles. -/
theorem held_of_written (hWithin : Json.Within Json.deepest (.object entries))
    (hl : tree.locate path = .ok l)
    (hFile : tree.find? l = some (.file (Encoding.encodeUtf8 (Json.object entries).render))) :
    held path tree = .ok (Json.rereadMembers entries) := by
  have hPlain := Json.plain_render (.object entries)
  have hText : tree.textAt path standardEncoding = .ok (Json.object entries).render := by
    simp only [Tree.textAt, Tree.readBytes, hl, hFile, ofName_standardEncoding,
      decode_encodeUtf8 hPlain, unifyLines_of_plain hPlain, Outcome.mapError_ok, bind, Except.bind, pure,
      Except.pure]
  have hExists : tree.pathExists path = true := by simp [Tree.pathExists, Tree.entryAt?, hl, hFile]
  rw [held, if_pos hExists, hText, Except.bind, parse, Json.read_render hWithin]
  rfl

/-! ### Updates -/

def warnIfNew (name : Text) (known : Bool) : Job Workspace Unit :=
  if known then pure ()
  else log {
    level := .warning, logger, message := newNameMessage
    data := [("name".toList, .string name)] }

theorem update_eq (cache : TemplateCache) (name : Text) (form : Json) :
    cache.update name form = cache.load >>= fun entries =>
      warnIfNew name (entries.find? name).isSome >>= fun _ =>
      makeDirectories cache.path.parent >>= fun _ =>
      writeText cache.path (Json.object (entries.put name form)).render standardEncoding >>= fun _ =>
      log {
        level := .info, logger, message := updatedMessage
        data := [("name".toList, .string name), ("cache_path".toList, .string cache.path.render)] }
        >>= fun _ => pure (entries.find? name).isSome := by
  unfold update warnIfNew
  congr 1
  funext entries
  simp only
  split
  · rw [pure_bind]
  · rfl

theorem exists_warnIfNew (name : Text) (known : Bool) (w : Workspace) :
    ∃ w', (warnIfNew name known).outcome w = (.ok (), w') ∧ LogsOnly w w' := by
  cases known
  · exact ⟨_, rfl, logsOnly_logged w _⟩
  · exact ⟨w, rfl, .refl w⟩

theorem outcome_update_of_error (cache : TemplateCache) (name : Text) (form : Json)
    (h : held cache.path w.tree = .error f) :
    (cache.update name form).outcome w = (.error f, w) := by
  rw [update_eq, outcome_bind, outcome_load, h]

/-- Where the file cannot be written, there is an error and no file. -/
theorem exists_update_error (cache : TemplateCache) (name : Text) (form : Json)
    (hJson : isJsonFile cache.path = true) (hHeld : held cache.path w.tree = .ok entries)
    (hPlace : w.tree.filePlace? cache.path = .error e) :
    ∃ w', (cache.update name form).outcome w = (.error (.file e), w') ∧
      w'.tree.content? cache.path = none := by
  obtain ⟨last, hLast, hName⟩ := exists_name_of_isJsonFile hJson
  obtain ⟨w₁, hWarned, hLogs⟩ := exists_warnIfNew name (entries.find? name).isSome w
  have hPlace₁ := hPlace
  rw [← hLogs.shape.filePlace?_eq] at hPlace₁
  rw [update_eq, outcome_bind, outcome_load, hHeld]
  simp only
  rw [outcome_bind_of_ok hWarned, outcome_bind, outcome_makeDirectories]
  rcases Tree.filePlace?_eq_error.1 hPlace₁ with hMade | ⟨tree, hMade, hWritten⟩
  · have hLeft := Tree.isDirectory_growTo w₁.tree cache.path.parent
    have hFailed := Tree.makeDirectories_eq_error.1 hMade
    rcases hGrown : w₁.tree.growTo cache.path.parent with ⟨_ | e', tree⟩ <;>
      rw [hGrown] at hLeft hFailed
    · cases hFailed
    · obtain rfl := Option.some.inj hFailed
      exact ⟨{ w₁ with tree }, rfl, Tree.content?_of_not_isDirectory hLast hLeft⟩
  · rw [Tree.makeDirectories_eq_ok.1 hMade]
    simp only
    rw [outcome_bind, outcome_writeText, hWritten]
    have hPlace₂ : tree.filePlace? cache.path = .error e :=
      Tree.filePlace?_eq_error.2 (.inr ⟨tree, Tree.makeDirectories_of_isDirectory
        (Tree.isDirectory_of_makeDirectories hMade), hWritten⟩)
    exact ⟨{ w₁ with tree }, rfl, Tree.content?_of_filePlace?_error hLast hName hPlace₂⟩

def updatedRecord (path : Path) (name : Text) : Log.Record where
  level := .info
  logger := logger
  message := updatedMessage
  data := [("name".toList, .string name), ("cache_path".toList, .string path.render)]

/-- A cache that can be read and has a place is written there, and nothing else but logs. -/
theorem exists_update_written (cache : TemplateCache) (name : Text) (form : Json)
    (hHeld : held cache.path w.tree = .ok entries) (hPlace : w.tree.filePlace? cache.path = .ok l) :
    ∃ w₁ written, LogsOnly w w₁ ∧ written.locate cache.path = .ok l ∧
      written.find? l =
        some (.file (Encoding.encodeUtf8 (Json.object (entries.put name form)).render)) ∧
      written.filePlace? cache.path = .ok l ∧
      (cache.update name form).outcome w = (.ok (entries.find? name).isSome,
        ({ w₁ with tree := written } : Workspace).logged (updatedRecord cache.path name)) := by
  obtain ⟨w₁, hWarned, hLogs⟩ := exists_warnIfNew name (entries.find? name).isSome w
  have hPlace₁ := hPlace
  rw [← hLogs.shape.filePlace?_eq] at hPlace₁
  obtain ⟨tree, hMade, hWritten, hLocate, hFile, hStays⟩ := Tree.exists_written hPlace₁
    (Encoding.encodeUtf8 (Json.object (entries.put name form)).render)
  generalize Tree.set _ _ _ = written at hWritten hLocate hFile hStays
  refine ⟨w₁, written, hLogs, hLocate, hFile, hStays, ?_⟩
  rw [update_eq, outcome_bind, outcome_load, hHeld]
  simp only
  rw [outcome_bind_of_ok hWarned, outcome_bind, outcome_makeDirectories,
    Tree.makeDirectories_eq_ok.1 hMade]
  simp only
  rw [outcome_bind, outcome_writeText, hWritten]
  rfl

structure Stored (path : Path) (entries : Entries Json) (l : Location) (w : Workspace) : Prop where
  held : held path w.tree = .ok entries
  place : w.tree.filePlace? path = .ok l
  present : w.tree.pathExists path = true
  unlogged : Unlogged path w

theorem exists_update (cache : TemplateCache) (name : Text) (hu : Unlogged cache.path w)
    (hHeld : held cache.path w.tree = .ok entries) (hPlace : w.tree.filePlace? cache.path = .ok l)
    (hForm : Json.Within (Json.deepest - 1) form) :
    ∃ w', (cache.update name form).outcome w = (.ok (entries.find? name).isSome, w') ∧
      Stored cache.path (Json.rereadMembers (entries.put name form)) l w' := by
  obtain ⟨w₁, written, hLogs, hLocate, hFile, hStays, hUpdate⟩ :=
    exists_update_written cache name form hHeld hPlace
  let w₂ : Workspace := { w₁ with tree := written }
  -- wherever the file may be found now, it was written where it had its place
  have hUnlogged : Unlogged cache.path w₂ := by
    intro other hOther
    have hSame : l = other := by
      rcases hOther with hOther | hOther
      · exact Except.ok.inj (hLocate.symm.trans hOther)
      · exact Except.ok.inj (hStays.symm.trans hOther)
    rw [← hSame]
    exact hLogs.unlogged hu l (.inr (by rw [hLogs.shape.filePlace?_eq]; exact hPlace))
  have hStored : held cache.path w₂.tree = .ok (Json.rereadMembers (entries.put name form)) :=
    held_of_written (within_put (within_of_held hHeld) hForm) hLocate hFile
  have hPresent : w₂.tree.pathExists cache.path = true := by
    simp [w₂, Tree.pathExists, Tree.entryAt?, hLocate, hFile]
  -- the last message can be written by a handler, but not into the cache
  have hLast := logsOnly_logged w₂ (updatedRecord cache.path name)
  exact ⟨_, hUpdate, (held_of_logsOnly hLast hUnlogged).trans hStored,
    (hLast.shape.filePlace?_eq _).trans hStays, (hLast.shape.pathExists_eq _).trans hPresent,
    hLast.unlogged hUnlogged⟩

end RazorVash.TemplateCache
