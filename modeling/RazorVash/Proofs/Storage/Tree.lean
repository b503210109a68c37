import RazorVash.Storage.Tree

namespace RazorVash

def Entry.blank : Entry → Entry
  | .directory => .directory
  | .file _ => .file []

namespace Tree

variable {t u v : Tree} {path : Path} {location l : Location} {entry : Entry} {a b : Bytes}
  {e : FileError} {segments : List Text}

/-- The same files and directories, whatever the files hold. -/
structure SameShape (t u : Tree) : Prop where
  current : u.current = t.current
  blank : ∀ l, (u.find? l).map Entry.blank = (t.find? l).map Entry.blank

theorem SameShape.refl (t : Tree) : SameShape t t := ⟨rfl, fun _ => rfl⟩

theorem SameShape.trans (h : SameShape t u) (h' : SameShape u v) : SameShape t v :=
  ⟨h'.current.trans h.current, fun l => (h'.blank l).trans (h.blank l)⟩

theorem map_blank_eq_directory {found : Option Entry} :
    found.map Entry.blank = some .directory ↔ found = some .directory := by
  rcases found with _ | _ | _ <;> simp [Entry.blank]

theorem SameShape.directory_iff (h : SameShape t u) :
    u.find? l = some .directory ↔ t.find? l = some .directory := by
  rw [← map_blank_eq_directory, h.blank, map_blank_eq_directory]

theorem SameShape.isDirectoryAt_eq (h : SameShape t u) (l : Location) :
    u.isDirectoryAt l = t.isDirectoryAt l := by
  unfold isDirectoryAt
  exact decide_eq_decide.2 h.directory_iff

theorem SameShape.isSome_eq (h : SameShape t u) (l : Location) :
    (u.find? l).isSome = (t.find? l).isSome := by
  rw [← Option.isSome_map (f := Entry.blank), h.blank, Option.isSome_map]

theorem ne_nil_of_find? (h : t.find? location ≠ some .directory) : location ≠ [] := by
  rintro rfl
  exact h rfl

theorem ne_nil_of_find?_eq_none (h : t.find? location = none) : location ≠ [] :=
  ne_nil_of_find? (t := t) (by simp [h])

theorem ne_nil_of_file (h : t.find? location = some (.file a)) : location ≠ [] :=
  ne_nil_of_find? (t := t) (by simp [h])

theorem set_set (t : Tree) (location : Location) (x y : Entry) :
    (t.set location x).set location y = t.set location y := by
  simp [Tree.set]

theorem SameShape.set (h : SameShape t u) (hl : location ≠ []) {x y : Entry}
    (hBlank : y.blank = x.blank) : SameShape (t.set location x) (u.set location y) := by
  refine ⟨h.current, fun l => ?_⟩
  rw [find?_set _ _ _ _ hl, find?_set _ _ _ _ hl]
  split
  · rw [Option.map_some, Option.map_some, hBlank]
  · exact h.blank l

theorem sameShape_set_file (h : t.find? location = some (.file a)) :
    SameShape t (t.set location (.file b)) := by
  refine ⟨rfl, fun l => ?_⟩
  rw [find?_set _ _ _ _ (ne_nil_of_file h)]
  split
  · next he => rw [he, h]; rfl
  · rfl

/-! ### Where paths lead -/

theorem walk_cons (t : Tree) (location : Location) (segment : Text) (segments : List Text) :
    t.walk location (segment :: segments) =
      match (t.find? location).map Entry.blank with
      | none => .error .missing
      | some (.file _) => .error .notDirectory
      | some .directory =>
        t.walk (if segment = ['.', '.'] then location.dropLast else location ++ [segment])
          segments := by
  rw [walk]
  rcases t.find? location with _ | _ | _
  · rfl
  · simp only [Option.map_some, Entry.blank]
    split <;> rfl
  · rfl

theorem walk_cons_eq_ok {segment : Text} : t.walk location (segment :: segments) = .ok l ↔
    t.find? location = some .directory ∧
      t.walk (if segment = ['.', '.'] then location.dropLast else location ++ [segment])
        segments = .ok l := by
  rw [walk_cons]
  rcases t.find? location with _ | _ | _ <;> simp [Entry.blank]

theorem SameShape.walk_eq (h : SameShape t u) :
    ∀ location, u.walk location segments = t.walk location segments := by
  induction segments with
  | nil => exact fun _ => rfl
  | cons segment segments ih =>
    intro location
    rw [walk_cons, walk_cons, h.blank]
    split
    · rfl
    · rfl
    · exact ih _

theorem SameShape.locate_eq (h : SameShape t u) (path : Path) : u.locate path = t.locate path := by
  unfold locate
  rw [h.walk_eq, h.current]

theorem SameShape.map_entryAt? (h : SameShape t u) (path : Path) :
    (u.entryAt? path).map Entry.blank = (t.entryAt? path).map Entry.blank := by
  unfold entryAt?
  rw [h.locate_eq]
  split
  · exact h.blank _
  · rfl

theorem SameShape.pathExists_eq (h : SameShape t u) (path : Path) :
    u.pathExists path = t.pathExists path := by
  unfold pathExists
  rw [← Option.isSome_map (f := Entry.blank), h.map_entryAt?, Option.isSome_map]

theorem SameShape.isDirectory_eq (h : SameShape t u) (path : Path) :
    u.isDirectory path = t.isDirectory path := by
  unfold isDirectory
  rw [decide_eq_decide, ← map_blank_eq_directory, h.map_entryAt?, map_blank_eq_directory]

theorem SameShape.readBytes_eq (h : SameShape t u)
    (hSame : ∀ l, t.locate path = .ok l → u.find? l = t.find? l) :
    u.readBytes path = t.readBytes path := by
  unfold readBytes
  rw [h.locate_eq]
  split
  · rfl
  · next l hl => rw [hSame l hl]

/-! ### Making directories and files -/

/-- Both fail with one error, or both succeed with trees of one shape. -/
inductive Alike : Except FileError Tree → Except FileError Tree → Prop
  | error (e : FileError) : Alike (.error e) (.error e)
  | ok {t u : Tree} : SameShape t u → Alike (.ok t) (.ok u)

theorem SameShape.makeDirectory (h : SameShape t u) (path : Path) :
    Alike (t.makeDirectory path) (u.makeDirectory path) := by
  unfold Tree.makeDirectory
  rw [h.locate_eq]
  split
  · exact .error _
  · next location _ =>
    rw [h.isSome_eq]
    split
    · exact .error _
    · next hNone => exact .ok (h.set (ne_nil_of_find?_eq_none (by simpa using hNone)) rfl)

theorem SameShape.growTo (h : SameShape t u) (path : Path) :
    (u.growTo path).1 = (t.growTo path).1 ∧ SameShape (t.growTo path).2 (u.growTo path).2 := by
  induction hLength : path.segments.length using Nat.strongRecOn generalizing path with
  | ind n ih =>
    rw [Tree.growTo.eq_def t path, Tree.growTo.eq_def u path]
    have hOne := h.makeDirectory path
    generalize t.makeDirectory path = x at hOne ⊢
    generalize u.makeDirectory path = y at hOne ⊢
    cases hOne with
    | ok hShape => exact ⟨rfl, hShape⟩
    | error e =>
      simp only [h.isDirectory_eq]
      split
      · split
        · next hSegments =>
          have hParent : path.parent.segments.length < n := by
            have := List.length_pos_iff.2 hSegments
            rw [← hLength, Path.parent, List.length_dropLast]
            omega
          -- both have made the same directories above, or have stopped at the same one
          obtain ⟨hSame, hShape⟩ := ih _ hParent path.parent rfl
          generalize t.growTo path.parent = x at hSame hShape ⊢
          generalize u.growTo path.parent = y at hSame hShape ⊢
          obtain ⟨failed, t'⟩ := x
          obtain ⟨failed', u'⟩ := y
          obtain rfl : failed' = failed := hSame
          cases failed' with
          | some e => exact ⟨rfl, hShape⟩
          | none =>
            have hLast := hShape.makeDirectory path
            simp only [hShape.isDirectory_eq]
            generalize Tree.makeDirectory _ path = x at hLast ⊢
            generalize Tree.makeDirectory _ path = y at hLast ⊢
            cases hLast with
            | ok hShape => exact ⟨rfl, hShape⟩
            | error e => exact ⟨rfl, hShape⟩
        · exact ⟨rfl, h⟩
      · exact ⟨rfl, h⟩

theorem SameShape.makeDirectories (h : SameShape t u) (path : Path) :
    Alike (t.makeDirectories path) (u.makeDirectories path) := by
  obtain ⟨hSame, hShape⟩ := h.growTo path
  unfold Tree.makeDirectories
  generalize t.growTo path = x at hSame hShape ⊢
  generalize u.growTo path = y at hSame hShape ⊢
  obtain ⟨failed, t'⟩ := x
  obtain ⟨failed', u'⟩ := y
  obtain rfl : failed' = failed := hSame
  cases failed' with
  | some e => exact .error e
  | none => exact .ok hShape

theorem SameShape.writeBytes (h : SameShape t u) (path : Path) (a b : Bytes) :
    Alike (t.writeBytes path a) (u.writeBytes path b) := by
  unfold Tree.writeBytes
  rw [h.locate_eq]
  split
  · exact .error _
  · next location _ =>
    rw [h.isDirectoryAt_eq, h.isDirectoryAt_eq]
    split
    · exact .error _
    · next hNot =>
      split
      · exact .error _
      · have hl : location ≠ [] := ne_nil_of_find? (by simpa [isDirectoryAt] using hNot)
        exact .ok (h.set hl rfl)

end Tree

end RazorVash
