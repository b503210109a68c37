import RazorVash.Proofs.Workspace.Files
import RazorVash.Proofs.Workspace.Logs

namespace RazorVash

namespace Tree

variable {t u : Tree} {path : Path} {l location : Location} {a : Bytes}

def fileAt? (tree : Tree) (location : Location) : Option Bytes :=
  match tree.find? location with
  | some (.file content) => some content
  | _ => none

theorem fileAt?_eq_some : t.fileAt? l = some a ↔ t.find? l = some (.file a) := by
  unfold fileAt?
  rcases t.find? l with _ | _ | content <;> simp

theorem fileAt?_set_file (h : location ≠ []) (a : Bytes) (l : Location) :
    (t.set location (.file a)).fileAt? l = if l = location then some a else t.fileAt? l := by
  unfold fileAt?
  rw [find?_set _ _ _ _ h]
  by_cases hl : l = location
  · rw [if_pos hl, if_pos hl]
  · rw [if_neg hl, if_neg hl]

structure SameContents (t u : Tree) : Prop where
  same : ∀ l, u.fileAt? l = t.fileAt? l

instance : IsPreorder Tree SameContents where
  refl _ := ⟨fun _ => rfl⟩
  trans _ _ _ h h' := ⟨fun l => (h'.same l).trans (h.same l)⟩

theorem sameContents_of_makeDirectory (h : t.makeDirectory path = .ok u) : SameContents t u := by
  obtain ⟨l, -, hNone, rfl⟩ := makeDirectory_eq_ok.1 h
  refine ⟨fun other => ?_⟩
  unfold fileAt?
  rw [find?_set _ _ _ _ (ne_nil_of_find?_eq_none hNone)]
  by_cases hl : other = l
  · rw [if_pos hl, hl, hNone]
  · rw [if_neg hl]

theorem sameContents_growTo (t : Tree) (path : Path) : SameContents t (t.growTo path).2 :=
  rel_growTo sameContents_of_makeDirectory t path

end Tree

namespace Workspace

open Job

variable {w w' w'' : Workspace} {path : Path} {text encoding : Text} {l : Location} {bytes : Bytes}
  {e : FileError}

def Logged (w : Workspace) (l : Location) : Prop :=
  ∃ handler ∈ w.handlers.all, handler.target = .file l false

/-- No file has been changed, made or removed. -/
structure SameFiles (w w' : Workspace) : Prop where
  handlers : w'.handlers = w.handlers
  files : ∀ l, ¬ w.Logged l → w'.tree.fileAt? l = w.tree.fileAt? l

theorem SameFiles.logged_iff (h : SameFiles w w') : w'.Logged l ↔ w.Logged l := by
  rw [Logged, Logged, h.handlers]

instance : IsPreorder Workspace SameFiles where
  refl _ := ⟨rfl, fun _ _ => rfl⟩
  trans _ _ _ h h' := ⟨h'.handlers.trans h.handlers, fun l hl =>
    (h'.files l (mt h.logged_iff.1 hl)).trans (h.files l hl)⟩

theorem LogsOnly.sameFiles (h : LogsOnly w w') : SameFiles w w' where
  handlers := h.handlers
  files l hl := by
    unfold Tree.fileAt?
    rw [h.kept l fun handler hh hTarget => hl ⟨handler, hh, hTarget⟩]

theorem SameFiles.sameContents (h : SameFiles w w') (hUnlogged : ∀ l, ¬ w.Logged l) :
    w.tree.SameContents w'.tree :=
  ⟨fun l => h.files l (hUnlogged l)⟩

theorem sameFiles_of_sameContents {tree : Tree} (h : w.tree.SameContents tree) :
    SameFiles w { w with tree } :=
  ⟨rfl, fun l _ => h.same l⟩

/-- The file that a path leads to holds what was written, and no other has been changed. -/
structure Wrote (path : Path) (l : Location) (bytes : Bytes) (w w' : Workspace) : Prop where
  handlers : w'.handlers = w.handlers
  place : w'.tree.locate path = .ok l
  written : ¬ w.Logged l → w'.tree.fileAt? l = some bytes
  others : ∀ other, other ≠ l → ¬ w.Logged other → w'.tree.fileAt? other = w.tree.fileAt? other

theorem Wrote.after (h : LogsOnly w w') (hWrote : Wrote path l bytes w' w'') :
    Wrote path l bytes w w'' where
  handlers := hWrote.handlers.trans h.handlers
  place := hWrote.place
  written hl := hWrote.written (mt h.sameFiles.logged_iff.1 hl)
  others other ho hl := (hWrote.others other ho (mt h.sameFiles.logged_iff.1 hl)).trans
    (h.sameFiles.files other hl)

theorem Wrote.before (hWrote : Wrote path l bytes w w') (h : LogsOnly w' w'') :
    Wrote path l bytes w w'' := by
  have hLogged (other : Location) : w'.Logged other ↔ w.Logged other := by
    rw [Logged, Logged, hWrote.handlers]
  exact {
    handlers := h.handlers.trans hWrote.handlers
    place := (h.shape.locate_eq path).trans hWrote.place
    written := fun hl =>
      (h.sameFiles.files l (mt (hLogged l).1 hl)).trans (hWrote.written hl)
    others := fun other ho hl =>
      (h.sameFiles.files other (mt (hLogged other).1 hl)).trans (hWrote.others other ho hl) }

def writeFile (path : Path) (text encoding : Text) : Job Workspace Unit := do
  makeDirectories path.parent
  writeText path text encoding

theorem exists_writeFile (hUtf8 : Encoding.ofName encoding = .ok .utf8) (text : Text)
    (hPlace : w.tree.filePlace? path = .ok l) :
    ∃ w', (writeFile path text encoding).outcome w = (.ok (), w') ∧
      Wrote path l (Encoding.encodeUtf8 text) w w' := by
  obtain ⟨tree, hMade, hWritten, hLocate, hFile, -⟩ :=
    Tree.exists_written hPlace (Encoding.encodeUtf8 text)
  have hGrown := Tree.makeDirectories_eq_ok.1 hMade
  have hContents := Tree.sameContents_growTo w.tree path.parent
  rw [hGrown] at hContents
  refine ⟨{ w with tree := tree.set l (.file (Encoding.encodeUtf8 text)) }, ?_, rfl, hLocate,
    fun _ => Tree.fileAt?_eq_some.2 hFile, fun other ho _ => ?_⟩
  · rw [writeFile, outcome_bind, outcome_makeDirectories, hGrown]
    simp only
    rw [outcome_writeText_of_utf8 hUtf8, hWritten]
  · have hl : l ≠ [] := by
      rintro rfl
      cases hFile
    simp only [Tree.fileAt?_set_file hl, if_neg ho, hContents.same]

theorem exists_writeFile_error (hUtf8 : Encoding.ofName encoding = .ok .utf8) (text : Text)
    (hPlace : w.tree.filePlace? path = .error e) :
    ∃ w', (writeFile path text encoding).outcome w = (.error (.file e), w') ∧ SameFiles w w' := by
  have hContents := Tree.sameContents_growTo w.tree path.parent
  rw [writeFile, outcome_bind, outcome_makeDirectories]
  rcases Tree.filePlace?_eq_error.1 hPlace with hMade | ⟨tree, hMade, hWritten⟩
  · have hFailed := Tree.makeDirectories_eq_error.1 hMade
    rcases hGrown : w.tree.growTo path.parent with ⟨_ | e', tree⟩ <;>
      rw [hGrown] at hContents hFailed
    · cases hFailed
    · obtain rfl := Option.some.inj hFailed
      exact ⟨_, rfl, sameFiles_of_sameContents hContents⟩
  · have hGrown := Tree.makeDirectories_eq_ok.1 hMade
    rw [hGrown] at hContents ⊢
    simp only
    rw [outcome_writeText_of_utf8 hUtf8, hWritten]
    exact ⟨_, rfl, sameFiles_of_sameContents hContents⟩

end Workspace

end RazorVash
