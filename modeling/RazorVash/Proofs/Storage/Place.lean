import Mathlib.Order.Defs.Unbundled
import RazorVash.Proofs.Storage.Tree

namespace RazorVash.Tree

variable {t u v : Tree} {path : Path} {location l : Location} {a b : Bytes} {e : FileError}
  {segments more : List Text}

/-- Where a file is written, with the directories that lead to it. -/
def filePlace? (tree : Tree) (path : Path) : Except FileError Location := do
  let tree ← tree.makeDirectories path.parent
  let _ ← tree.writeBytes path []
  tree.locate path

/-! ### Trees that grow -/

/-- No directory is lost, so every path still leads to where it did. -/
structure Reaches (t u : Tree) : Prop where
  current : u.current = t.current
  directory : ∀ l, t.find? l = some .directory → u.find? l = some .directory

theorem Reaches.walk (h : Reaches t u) :
    ∀ {location}, t.walk location segments = .ok l → u.walk location segments = .ok l := by
  induction segments with
  | nil => exact id
  | cons segment segments ih =>
    intro location hWalk
    obtain ⟨hHere, hRest⟩ := walk_cons_eq_ok.1 hWalk
    exact walk_cons_eq_ok.2 ⟨h.directory _ hHere, ih hRest⟩

theorem Reaches.locate (h : Reaches t u) (hl : t.locate path = .ok l) : u.locate path = .ok l := by
  unfold Tree.locate at hl ⊢
  split at hl
  · cases hl
  · next hName =>
    rw [if_neg hName, h.current]
    generalize (if path.root = [] then t.current else []) = start at hl ⊢
    rcases hWalk : t.walk start path.segments with _ | _ <;> rw [hWalk] at hl
    · cases hl
    · rw [h.walk hWalk]
      exact hl

theorem isDirectory_iff : t.isDirectory path = true ↔
    ∃ l, t.locate path = .ok l ∧ t.find? l = some .directory := by
  unfold isDirectory entryAt?
  rcases t.locate path with e | l <;> simp

theorem walk_concat {name : Text} : ∀ {location}, t.walk location (segments ++ [name]) = .ok l →
    ∃ above, t.walk location segments = .ok above ∧ t.find? above = some .directory ∧
      l = if name = ['.', '.'] then above.dropLast else above ++ [name] := by
  induction segments with
  | nil =>
    intro location h
    obtain ⟨hHere, hRest⟩ := walk_cons_eq_ok.1 h
    exact ⟨location, rfl, hHere, (Except.ok.inj hRest).symm⟩
  | cons segment segments ih =>
    intro location h
    obtain ⟨hHere, hRest⟩ := walk_cons_eq_ok.1 h
    obtain ⟨above, hAbove, hDirectory, hLast⟩ := ih hRest
    exact ⟨above, walk_cons_eq_ok.2 ⟨hHere, hAbove⟩, hDirectory, hLast⟩

theorem exists_locate_parent {name : Text} (hLast : path.segments.getLast? = some name)
    (h : t.locate path = .ok l) :
    ∃ above, t.locate path.parent = .ok above ∧ t.find? above = some .directory ∧
      l = if name = ['.', '.'] then above.dropLast else above ++ [name] := by
  have hSegments : path.segments = path.parent.segments ++ [name] := by
    obtain ⟨before, hBefore⟩ := List.getLast?_eq_some_iff.1 hLast
    rw [Path.parent, hBefore, List.dropLast_concat]
  have hRoot : path.parent.root = path.root := rfl
  unfold locate at h ⊢
  split at h
  · cases h
  · next hNul =>
    have hNulParent : ¬ path.parent.segments.any (fun segment => '\x00' ∈ segment) := by
      intro hBad
      rw [hSegments, List.any_append, hBad, Bool.true_or] at hNul
      exact hNul rfl
    rw [if_neg hNulParent, hRoot]
    generalize (if path.root = [] then t.current else []) = start at h ⊢
    rw [hSegments] at h
    rcases hWalk : t.walk start (path.parent.segments ++ [name]) with _ | l' <;> rw [hWalk] at h
    · cases h
    · obtain rfl := Except.ok.inj h
      obtain ⟨above, hAbove, hDirectory, hl⟩ := walk_concat hWalk
      exact ⟨above, by rw [hAbove]; rfl, hDirectory, hl⟩

theorem isDirectory_parent (hSegments : path.segments ≠ []) (h : t.isDirectory path = true) :
    t.isDirectory path.parent = true := by
  obtain ⟨l, hl, -⟩ := isDirectory_iff.1 h
  have hLast := List.getLast?_eq_some_getLast hSegments
  obtain ⟨above, hAbove, hDirectory, -⟩ := exists_locate_parent hLast hl
  exact isDirectory_iff.2 ⟨above, hAbove, hDirectory⟩

theorem Reaches.isDirectory (h : Reaches t u) (hd : t.isDirectory path = true) :
    u.isDirectory path = true := by
  obtain ⟨l, hl, hDirectory⟩ := isDirectory_iff.1 hd
  exact isDirectory_iff.2 ⟨l, h.locate hl, h.directory l hDirectory⟩

theorem reaches_set_file (h : t.isDirectoryAt l = false) : Reaches t (t.set l (.file a)) := by
  have hNot : t.find? l ≠ some .directory := by simpa [isDirectoryAt] using h
  refine ⟨rfl, fun other ho => ?_⟩
  rw [find?_set _ _ _ _ (ne_nil_of_find? hNot), if_neg]
  · exact ho
  · rintro rfl
    exact hNot ho

theorem makeDirectory_eq_ok : t.makeDirectory path = .ok u ↔
    ∃ l, t.locate path = .ok l ∧ t.find? l = none ∧ u = t.set l .directory := by
  unfold makeDirectory
  rcases t.locate path with e | l
  · simp
  · rcases hl : t.find? l with _ | _ <;> simp [hl, eq_comm]

theorem reaches_of_makeDirectory (h : t.makeDirectory path = .ok u) : Reaches t u := by
  obtain ⟨l, -, hNone, rfl⟩ := makeDirectory_eq_ok.1 h
  refine ⟨rfl, fun other hOther => ?_⟩
  rw [find?_set _ _ _ _ (ne_nil_of_find?_eq_none hNone)]
  split
  · rfl
  · exact hOther

theorem isDirectory_of_makeDirectory (h : t.makeDirectory path = .ok u) :
    u.isDirectory path = true := by
  have hReaches := reaches_of_makeDirectory h
  obtain ⟨l, hl, hNone, rfl⟩ := makeDirectory_eq_ok.1 h
  refine isDirectory_iff.2 ⟨l, hReaches.locate hl, ?_⟩
  rw [find?_set _ _ _ _ (ne_nil_of_find?_eq_none hNone), if_pos rfl]

theorem makeDirectory_of_isDirectory (h : t.isDirectory path = true) :
    t.makeDirectory path = .error ⟨.occupied, path.render⟩ := by
  obtain ⟨l, hl, hDirectory⟩ := isDirectory_iff.1 h
  simp [makeDirectory, hl, hDirectory]

theorem makeDirectories_eq_ok : t.makeDirectories path = .ok u ↔ t.growTo path = (none, u) := by
  unfold makeDirectories
  rcases t.growTo path with ⟨_ | e, t'⟩ <;> simp

theorem makeDirectories_eq_error :
    t.makeDirectories path = .error e ↔ (t.growTo path).1 = some e := by
  unfold makeDirectories
  rcases t.growTo path with ⟨_ | e, t'⟩ <;> simp

theorem rel_growTo {R : Tree → Tree → Prop} [IsPreorder Tree R]
    (h : ∀ {t u : Tree} {path : Path}, t.makeDirectory path = .ok u → R t u) (t : Tree)
    (path : Path) : R t (t.growTo path).2 := by
  fun_induction growTo t path with
  | case1 path u hOne => exact h hOne
  | case2 path e _ _ _ e' above hParent ih =>
    rw [hParent] at ih
    exact ih
  | case3 path e _ _ _ above hParent u hOne ih =>
    rw [hParent] at ih
    exact IsTrans.trans _ _ _ ih (h hOne)
  | case4 path e _ _ _ above hParent e' _ ih =>
    rw [hParent] at ih
    exact ih
  | case5 => exact Std.Refl.refl t
  | case6 => exact Std.Refl.refl t

theorem isDirectory_growTo (t : Tree) (path : Path) :
    (t.growTo path).2.isDirectory path = (t.growTo path).1.isNone := by
  have hIte (found : Bool) (e : FileError) :
      found = (if found = true then none else some e).isNone := by cases found <;> rfl
  fun_induction growTo t path with
  | case1 path u hOne => exact isDirectory_of_makeDirectory hOne
  | case2 path e _ _ hSegments e' above hParent ih =>
    rw [hParent] at ih
    refine Bool.eq_false_iff.2 fun hDirectory => ?_
    rw [isDirectory_parent hSegments hDirectory] at ih
    cases ih
  | case3 path e _ _ _ above hParent u hOne ih => exact isDirectory_of_makeDirectory hOne
  | case4 path e _ _ _ above hParent e' _ ih => exact hIte _ _
  | case5 path e hOne hMissing _ =>
    -- a directory would be occupied, not missing
    refine Bool.eq_false_iff.2 fun hDirectory => ?_
    rw [makeDirectory_of_isDirectory hDirectory] at hOne
    rw [← Except.error.inj hOne] at hMissing
    cases hMissing
  | case6 path e hOne hFault => exact hIte _ _

theorem isDirectory_of_makeDirectories (h : t.makeDirectories path = .ok u) :
    u.isDirectory path = true := by
  have := isDirectory_growTo t path
  rw [makeDirectories_eq_ok.1 h] at this
  exact this

theorem growTo_of_isDirectory (h : t.isDirectory path = true) : t.growTo path = (none, t) := by
  rw [growTo, makeDirectory_of_isDirectory h]
  simp [h]

theorem makeDirectories_of_isDirectory (h : t.isDirectory path = true) :
    t.makeDirectories path = .ok t :=
  makeDirectories_eq_ok.2 (growTo_of_isDirectory h)

/-! ### Files at their places -/

theorem readBytes_eq_ok : t.readBytes path = .ok a ↔
    ∃ l, t.locate path = .ok l ∧ t.find? l = some (.file a) := by
  unfold readBytes
  rcases t.locate path with e | l
  · simp
  · rcases hl : t.find? l with _ | _ | content <;> simp [hl]

theorem writeBytes_eq_ok : t.writeBytes path a = .ok u ↔
    ∃ l, t.locate path = .ok l ∧ t.isDirectoryAt l = false ∧ t.isDirectoryAt l.dropLast = true ∧
      u = t.set l (.file a) := by
  unfold writeBytes
  rcases t.locate path with e | l
  · simp
  · rcases hl : t.isDirectoryAt l <;> rcases hd : t.isDirectoryAt l.dropLast <;>
      simp [hl, hd, @eq_comm _ u]

theorem filePlace?_eq_ok : t.filePlace? path = .ok l ↔
    ∃ t', t.makeDirectories path.parent = .ok t' ∧ t'.locate path = .ok l ∧
      t'.isDirectoryAt l = false ∧ t'.isDirectoryAt l.dropLast = true := by
  unfold filePlace?
  rcases t.makeDirectories path.parent with e | t'
  · simp [bind, Except.bind]
  · rcases hw : t'.writeBytes path [] with e | u
    · simp only [bind, Except.bind, hw, Except.ok.injEq, exists_eq_left', false_iff, reduceCtorEq]
      rintro ⟨hl, hNot, hAbove⟩
      rw [writeBytes_eq_ok.2 ⟨l, hl, hNot, hAbove, rfl⟩] at hw
      cases hw
    · obtain ⟨l', hl, hNot, hAbove, -⟩ := writeBytes_eq_ok.1 hw
      simp only [bind, Except.bind, hw, hl, Except.ok.injEq, exists_eq_left']
      constructor
      · rintro rfl
        exact ⟨rfl, hNot, hAbove⟩
      · exact And.left

theorem writeBytes_writeBytes (h : t.writeBytes path a = .ok u) (b : Bytes) :
    u.writeBytes path b = t.writeBytes path b := by
  obtain ⟨l, hl, hNot, hAbove, rfl⟩ := writeBytes_eq_ok.1 h
  have hReaches := reaches_set_file (a := a) hNot
  have hFile : (t.set l (.file a)).isDirectoryAt l = false := by
    have hl : l ≠ [] := ne_nil_of_find? (by simpa [isDirectoryAt] using hNot)
    simp [isDirectoryAt, find?_set _ _ _ _ hl]
  have hDirectory : (t.set l (.file a)).isDirectoryAt l.dropLast = true := by
    have := hReaches.directory l.dropLast (by simpa [isDirectoryAt] using hAbove)
    simpa [isDirectoryAt] using this
  rw [writeBytes_eq_ok.2 ⟨l, hl, hNot, hAbove, rfl⟩,
    writeBytes_eq_ok.2 ⟨l, hReaches.locate hl, hFile, hDirectory, rfl⟩, set_set]

/-- Whether a file can be written does not depend on its content. -/
theorem writeBytes_eq_error (a b : Bytes) :
    t.writeBytes path a = .error e ↔ t.writeBytes path b = .error e := by
  unfold writeBytes
  rcases t.locate path with _ | l
  · rfl
  · simp only
    split
    · rfl
    · split
      · rfl
      · simp

theorem filePlace?_eq_error : t.filePlace? path = .error e ↔
    t.makeDirectories path.parent = .error e ∨
      ∃ t', t.makeDirectories path.parent = .ok t' ∧ t'.writeBytes path a = .error e := by
  unfold filePlace?
  rcases t.makeDirectories path.parent with e' | t'
  · simp [bind, Except.bind]
  · simp only [writeBytes_eq_error a [], reduceCtorEq, false_or, Except.ok.injEq, exists_eq_left']
    rcases hw : t'.writeBytes path [] with e' | u
    · simp [bind, Except.bind, hw]
    · obtain ⟨l, hl, -⟩ := writeBytes_eq_ok.1 hw
      simp [bind, Except.bind, hw, hl]

theorem SameShape.filePlace?_eq (h : SameShape t u) (path : Path) :
    u.filePlace? path = t.filePlace? path := by
  unfold filePlace?
  have hMade := h.makeDirectories path.parent
  generalize t.makeDirectories path.parent = x at hMade ⊢
  generalize u.makeDirectories path.parent = y at hMade ⊢
  cases hMade with
  | error e => rfl
  | ok hShape =>
    have hWritten := hShape.writeBytes path [] []
    simp only [bind, Except.bind, hShape.locate_eq]
    generalize Tree.writeBytes _ path [] = x at hWritten ⊢
    generalize Tree.writeBytes _ path [] = y at hWritten ⊢
    cases hWritten <;> rfl

/-- A file that is written at its place stands there, and its place stays the same. -/
theorem exists_written (h : t.filePlace? path = .ok l) (a : Bytes) :
    ∃ t', t.makeDirectories path.parent = .ok t' ∧
      t'.writeBytes path a = .ok (t'.set l (.file a)) ∧
      (t'.set l (.file a)).locate path = .ok l ∧
      (t'.set l (.file a)).find? l = some (.file a) ∧
      (t'.set l (.file a)).filePlace? path = .ok l := by
  obtain ⟨t', hMade, hl, hNot, hAbove⟩ := filePlace?_eq_ok.1 h
  have hReaches := reaches_set_file (a := a) hNot
  have hFile : (t'.set l (.file a)).find? l = some (.file a) := by
    rw [find?_set _ _ _ _ (ne_nil_of_find? (by simpa [isDirectoryAt] using hNot)), if_pos rfl]
  refine ⟨t', hMade, writeBytes_eq_ok.2 ⟨l, hl, hNot, hAbove, rfl⟩, hReaches.locate hl, hFile, ?_⟩
  have hParent := hReaches.isDirectory (isDirectory_of_makeDirectories hMade)
  refine filePlace?_eq_ok.2 ⟨_, makeDirectories_of_isDirectory hParent, hReaches.locate hl, ?_, ?_⟩
  · simp [isDirectoryAt, hFile]
  · have hDirectory := hReaches.directory l.dropLast (by simpa [isDirectoryAt] using hAbove)
    simpa [isDirectoryAt] using hDirectory

theorem filePlace?_of_file {name : Text} (hLast : path.segments.getLast? = some name)
    (hName : name ≠ ['.', '.']) (h : t.locate path = .ok l) (hFile : t.find? l = some (.file a)) :
    t.filePlace? path = .ok l := by
  obtain ⟨above, hParent, hDirectory, hl⟩ := exists_locate_parent hLast h
  rw [if_neg hName] at hl
  refine filePlace?_eq_ok.2 ⟨t, makeDirectories_of_isDirectory
    (isDirectory_iff.2 ⟨above, hParent, hDirectory⟩), h, ?_, ?_⟩
  · simp [isDirectoryAt, hFile]
  · simp [isDirectoryAt, hl, hDirectory]

/-- The content of the file at a path, if there is one. -/
def content? (tree : Tree) (path : Path) : Option Bytes := (tree.readBytes path).toOption

theorem exists_of_content? (h : t.content? path = some a) :
    ∃ l, t.locate path = .ok l ∧ t.find? l = some (.file a) := by
  unfold content? at h
  rcases hRead : t.readBytes path with e | content
  · rw [hRead] at h
    cases h
  · rw [hRead] at h
    obtain rfl := Option.some.inj h
    exact readBytes_eq_ok.1 hRead

theorem content?_of_filePlace?_error {name : Text} (hLast : path.segments.getLast? = some name)
    (hName : name ≠ ['.', '.']) (h : t.filePlace? path = .error e) : t.content? path = none := by
  refine Option.eq_none_iff_forall_ne_some.2 fun a ha => ?_
  obtain ⟨l, hl, hFile⟩ := exists_of_content? ha
  rw [filePlace?_of_file hLast hName hl hFile] at h
  cases h

theorem content?_of_not_isDirectory {name : Text} (hLast : path.segments.getLast? = some name)
    (h : t.isDirectory path.parent = false) : t.content? path = none := by
  refine Option.eq_none_iff_forall_ne_some.2 fun a ha => ?_
  obtain ⟨l, hl, -⟩ := exists_of_content? ha
  obtain ⟨above, hAbove, hDirectory, -⟩ := exists_locate_parent hLast hl
  rw [isDirectory_iff.2 ⟨above, hAbove, hDirectory⟩] at h
  cases h

end RazorVash.Tree
