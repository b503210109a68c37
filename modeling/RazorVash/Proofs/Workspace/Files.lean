import RazorVash.Proofs.Outcome
import RazorVash.Proofs.Storage.Place
import RazorVash.Proofs.Workspace.Job
import RazorVash.Storage.Encoding

namespace RazorVash

def Tree.textAt (tree : Tree) (path : Path) (encoding : Text) : Except Failure Text := do
  let bytes ← (tree.readBytes path).mapError .file
  let encoding ← (Encoding.ofName encoding).mapError .codec
  let text ← (encoding.decode bytes).mapError .codec
  return Encoding.unifyLines text

theorem Tree.pathExists_of_textAt {tree : Tree} {path : Path} {text encoding : Text}
    (h : tree.textAt path encoding = .ok text) : tree.pathExists path = true := by
  unfold Tree.textAt at h
  rcases hRead : tree.readBytes path with e | bytes
  · rw [hRead] at h
    cases h
  · obtain ⟨l, hl, hFile⟩ := Tree.readBytes_eq_ok.1 hRead
    simp [Tree.pathExists, Tree.entryAt?, hl, hFile]

namespace Workspace

open Job

variable {path : Path} {text encoding : Text} {w : Workspace}

theorem ofName_standardEncoding : Encoding.ofName standardEncoding = .ok .utf8 :=
  Outcome.eq_ok_of_toOption (by decide +kernel)

theorem outcome_readText (path : Path) (encoding : Text) (w : Workspace) :
    (readText path encoding).outcome w = (w.tree.textAt path encoding, w) := by
  unfold readText Tree.textAt
  rw [outcome_bind_of_ok (outcome_get w), outcome_ofExcept_bind]
  rcases w.tree.readBytes path with _ | bytes
  · rfl
  · simp only [outcome_ofExcept_bind]
    rcases Encoding.ofName encoding with _ | encoding
    · rfl
    · simp only [Outcome.mapError_ok, bind, Except.bind]
      rcases encoding.decode bytes with _ | text <;> rfl

theorem outcome_changeTree (change : Tree → Except FileError Tree) (w : Workspace) :
    (changeTree change).outcome w =
      match change w.tree with
      | .ok tree => (.ok (), { w with tree })
      | .error e => (.error (.file e), w) := by
  unfold changeTree
  rw [outcome_bind_of_ok (outcome_get w), outcome_ofExcept_bind]
  rcases change w.tree <;> rfl

/-- What has been made stays. -/
theorem outcome_makeDirectories (path : Path) (w : Workspace) :
    (makeDirectories path).outcome w =
      match w.tree.growTo path with
      | (none, tree) => (.ok (), { w with tree })
      | (some e, tree) => (.error (.file e), { w with tree }) := by
  unfold makeDirectories
  rw [outcome_bind_of_ok (outcome_get w)]
  rcases w.tree.growTo path with ⟨_ | e, tree⟩ <;> rfl

/-- Emptying the file first makes no difference for what can be encoded. -/
theorem outcome_writeText_of_utf8 (h : Encoding.ofName encoding = .ok .utf8) (path : Path)
    (text : Text) (w : Workspace) :
    (writeText path text encoding).outcome w =
      match w.tree.writeBytes path (Encoding.encodeUtf8 text) with
      | .ok tree => (.ok (), { w with tree })
      | .error e => (.error (.file e), w) := by
  unfold writeText
  rw [outcome_bind, outcome_changeTree]
  rcases hEmptied : w.tree.writeBytes path [] with e | u
  · rw [(Tree.writeBytes_eq_error [] _).1 hEmptied]
  · simp only [outcome_ofExcept_bind, h, Encoding.encode]
    rw [outcome_changeTree, Tree.writeBytes_writeBytes hEmptied]
    obtain ⟨l, hl, hNot, hAbove, -⟩ := Tree.writeBytes_eq_ok.1 hEmptied
    rw [Tree.writeBytes_eq_ok.2 ⟨l, hl, hNot, hAbove, rfl⟩]

theorem outcome_writeText (path : Path) (text : Text) (w : Workspace) :
    (writeText path text standardEncoding).outcome w =
      match w.tree.writeBytes path (Encoding.encodeUtf8 text) with
      | .ok tree => (.ok (), { w with tree })
      | .error e => (.error (.file e), w) :=
  outcome_writeText_of_utf8 ofName_standardEncoding path text w

end Workspace

end RazorVash
