import RazorVash.Proofs.Cache.Held

namespace RazorVash.TemplateCache

open Job Workspace

variable {path : Path} {initial entries : Entries Json} {updates : List (Text × Text)}
  {w w' w₀ : Workspace} {l : Location}

/-- An update through an instance of its own. -/
def updateOnce (path : Path) (name form : Text) : Job Workspace Bool := do
  let cache ← ofExcept id (ofPath path)
  cache.update name (.string form)

def updateAll (path : Path) (updates : List (Text × Text)) : Job Workspace (List Bool) :=
  updates.mapM fun (name, form) => updateOnce path name form

theorem updateOnce_eq (hJson : isJsonFile path = true) (name form : Text) :
    updateOnce path name form = (⟨path⟩ : TemplateCache).update name (.string form) := by
  rw [updateOnce, ofPath, if_pos hJson]
  rfl

theorem outcome_updateAll_cons (name form : Text) (updates : List (Text × Text)) (w : Workspace) :
    (updateAll path ((name, form) :: updates)).outcome w =
      (updateOnce path name form >>= fun answer =>
        updateAll path updates >>= fun answers => pure (answer :: answers)).outcome w := by
  rw [updateAll, List.mapM_cons]
  rfl

def stored (updates : List (Text × Text)) : Entries Json :=
  updates.map fun update => (update.1, .string update.2)

def knownBefore (entries : Entries Json) : List (Text × Text) → List Bool
  | [] => []
  | (name, form) :: updates =>
    (entries.find? name).isSome :: knownBefore (entries.put name (.string form)) updates

theorem knownBefore_append (entries : Entries Json) (updates more : List (Text × Text)) :
    knownBefore entries (updates ++ more) =
      knownBefore entries updates ++ knownBefore (entries.putAll (stored updates)) more := by
  induction updates generalizing entries with
  | nil => rfl
  | cons update updates ih =>
    rw [List.cons_append, knownBefore, ih]
    rfl

theorem length_knownBefore (entries : Entries Json) (updates : List (Text × Text)) :
    (knownBefore entries updates).length = updates.length := by
  induction updates generalizing entries with
  | nil => rfl
  | cons update updates ih => rw [knownBefore, List.length_cons, ih, List.length_cons]

/-- A cache whose file can be written, with values that are read as they were written. -/
structure Writable (path : Path) (entries : Entries Json) (l : Location) (w : Workspace) : Prop where
  held : held path w.tree = .ok entries
  place : w.tree.filePlace? path = .ok l
  unlogged : Unlogged path w
  exact : ∀ entry ∈ entries, entry.2.Exact

theorem Writable.exists_update (h : Writable path entries l w) (name form : Text) :
    ∃ w', ((⟨path⟩ : TemplateCache).update name (.string form)).outcome w =
        (.ok (entries.find? name).isSome, w') ∧
      Writable path (entries.put name (.string form)) l w' ∧ w'.tree.pathExists path = true := by
  have hExact : ∀ entry ∈ entries.put name (.string form), entry.2.Exact := by
    intro entry he
    rcases Entries.mem_put he with he | he
    · exact h.exact entry he
    · exact he ▸ .string form
  obtain ⟨w', hUpdate, hStored⟩ := TemplateCache.exists_update ⟨path⟩ name h.unlogged h.held
    h.place (.string form)
  have hHeld := hStored.held
  rw [Json.Exact.rereadMembers_eq_self hExact] at hHeld
  exact ⟨w', hUpdate, ⟨hHeld, hStored.place, hStored.unlogged, hExact⟩, hStored.present⟩

theorem Writable.exists_updateAll (updates : List (Text × Text))
    (h : Writable path entries l w) (hJson : isJsonFile path = true) :
    ∃ w', (updateAll path updates).outcome w = (.ok (knownBefore entries updates), w') ∧
      Writable path (entries.putAll (stored updates)) l w' ∧
      w'.tree.pathExists path = (w.tree.pathExists path || updates ≠ []) := by
  induction updates generalizing entries w with
  | nil => exact ⟨w, rfl, h, by simp⟩
  | cons update updates ih =>
    obtain ⟨name, form⟩ := update
    obtain ⟨w₁, hFirst, hNext, hPresent⟩ := h.exists_update name form
    obtain ⟨w', hRest, hLast, hPresent'⟩ := ih hNext
    refine ⟨w', ?_, hLast, by simp [hPresent', hPresent]⟩
    rw [outcome_updateAll_cons, updateOnce_eq hJson, outcome_bind_of_ok hFirst,
      outcome_bind_of_ok hRest]
    rfl

/-- The names in the order of their first appearance, each with the last form it was given. -/
structure LastWriteWins (initial : Entries Json) (updates : List (Text × Text))
    (entries : Entries Json) : Prop where
  names : entries.names =
    initial.names ++ (updates.map Prod.fst).eraseDups.filter (· ∉ initial.names)
  find? : ∀ name, entries.find? name =
    ((Entries.find? name updates.reverse).map Json.string).or (initial.find? name)

theorem names_stored (updates : List (Text × Text)) :
    (stored updates).names = updates.map Prod.fst :=
  Entries.names_map updates Json.string

theorem lastWriteWins_putAll (initial : Entries Json) (updates : List (Text × Text)) :
    LastWriteWins initial updates (initial.putAll (stored updates)) where
  names := by rw [Entries.names_putAll, names_stored]
  find? name := by
    have hReverse : (stored updates).reverse = stored updates.reverse := List.map_reverse.symm
    rw [Entries.find?_putAll, hReverse, stored, Entries.find?_map]

/-- The answer of every update tells whether its name was there just before. -/
structure TellsKnown (initial : Entries Json) (updates : List (Text × Text)) (answers : List Bool) :
    Prop where
  length : answers.length = updates.length
  known : ∀ before name form after, updates = before ++ (name, form) :: after →
    answers[before.length]? = some (decide (name ∈ initial.names ∨ name ∈ before.map Prod.fst))

theorem tellsKnown_knownBefore (initial : Entries Json) (updates : List (Text × Text)) :
    TellsKnown initial updates (knownBefore initial updates) where
  length := length_knownBefore initial updates
  known before name form after h := by
    have hKnown : ((initial.putAll (stored before)).find? name).isSome =
        decide (name ∈ initial.names ∨ name ∈ before.map Prod.fst) := by
      rw [Bool.eq_iff_iff, Entries.find?_isSome_iff, Entries.mem_names_putAll, names_stored,
        decide_eq_true_eq]
    rw [h, knownBefore_append, knownBefore,
      List.getElem?_append_right (Nat.le_of_eq (length_knownBefore ..)), length_knownBefore,
      Nat.sub_self, List.getElem?_cons_zero, hKnown]

/-- What all ways to look into a cache show. -/
structure Shows (path : Path) (entries : Entries Json) (present : Prop) [Decidable present]
    (w : Workspace) : Prop where
  load : (load ⟨path⟩).outcome w = (.ok entries, w)
  find? : ∀ name, (find? ⟨path⟩ name).outcome w = (.ok (entries.find? name), w)
  names : ∃ names, (TemplateCache.names ⟨path⟩).outcome w = (.ok names, w) ∧
    names.Pairwise (· < ·) ∧ ∀ name, name ∈ names ↔ name ∈ entries.names
  load? : ((load? path).outcome w).1 = .ok (if present then some entries else none)

theorem pairwise_mergeSort {names : List Text} (h : names.Nodup) :
    (names.mergeSort fun a b => !decide (b < a)).Pairwise (· < ·) := by
  have hNodup := (List.mergeSort_perm names fun a b => !decide (b < a)).nodup_iff.2 h
  have hSorted : (names.mergeSort fun a b => !decide (b < a)).Pairwise
      fun a b => (!decide (b < a)) = true := List.pairwise_mergeSort
    (fun a b c hab hbc => by
      simp only [Bool.not_eq_true', decide_eq_false_iff_not] at hab hbc ⊢
      exact List.le_trans hab hbc)
    (fun a b => by
      simp only [Bool.or_eq_true, Bool.not_eq_true', decide_eq_false_iff_not]
      exact List.le_total a b) names
  refine List.Pairwise.imp₂ (fun a b hle hne => ?_) hSorted hNodup
  simp only [Bool.not_eq_true', decide_eq_false_iff_not] at hle
  exact (List.le_iff_lt_or_eq.1 hle).resolve_right hne

theorem shows_of_held (hJson : isJsonFile path = true) (h : held path w.tree = .ok entries) :
    Shows path entries (w.tree.pathExists path = true) w where
  load := by rw [outcome_load, h]
  find? name := by rw [outcome_find?, h]; rfl
  names := by
    have hNodup : entries.names.Nodup := by
      cases within_of_held h with
      | object hNames _ => exact hNames
    refine ⟨_, ?_, pairwise_mergeSort hNodup, fun name => List.mem_mergeSort⟩
    rw [outcome_names, h]
    rfl
  load? := by
    by_cases hPresent : w.tree.pathExists path = true
    · rw [outcome_load?_of_exists hJson hPresent, h, if_pos hPresent]
      rfl
    · obtain ⟨w', hLoad, -⟩ := exists_load?_of_missing (Bool.eq_false_iff.2 hPresent)
      rw [hLoad, if_neg hPresent]

/-- A run of updates leaves a map in which the last write of a name wins. It fails only where no file
can be written, and then at once. -/
theorem lastWriteWins_updateAll (hJson : isJsonFile path = true)
    (hLoad : (load ⟨path⟩).outcome w = (.ok initial, w₀))
    (hExact : ∀ entry ∈ initial, entry.2.Exact) (hUnlogged : Unlogged path w) :
    (∃ e, w.tree.filePlace? path = .error e ∧ w.tree.pathExists path = false ∧ updates ≠ [] ∧
      ((updateAll path updates).outcome w).1 = .error (.file e)) ∨
    ∃ entries answers w', (updateAll path updates).outcome w = (.ok answers, w') ∧
      LastWriteWins initial updates entries ∧ TellsKnown initial updates answers ∧
      Shows path entries (w.tree.pathExists path = true ∨ updates ≠ []) w' := by
  have hHeld : held path w.tree = .ok initial := by
    rw [outcome_load] at hLoad
    exact (Prod.mk.inj hLoad).1
  rcases hPlace : w.tree.filePlace? path with e | l
  · cases updates with
    | nil =>
      refine .inr ⟨initial, [], w, rfl, lastWriteWins_putAll initial [],
        tellsKnown_knownBefore initial [], ?_⟩
      simpa using shows_of_held hJson hHeld
    | cons update updates =>
      obtain ⟨name, form⟩ := update
      -- a file that is there has a place, so the file is missing and the first update fails
      obtain ⟨w', hUpdate, -⟩ := exists_update_error ⟨path⟩ name (.string form) hJson hHeld hPlace
      have hMissing : w.tree.pathExists path = false := by
        rw [← Bool.not_eq_true]
        intro hPresent
        obtain ⟨l, hl⟩ := exists_filePlace?_of_held hJson hHeld hPresent
        rw [hPlace] at hl
        cases hl
      refine .inl ⟨e, rfl, hMissing, List.cons_ne_nil _ _, ?_⟩
      rw [outcome_updateAll_cons, updateOnce_eq hJson, outcome_bind_of_error hUpdate]
  · have hWritable : Writable path initial l w := ⟨hHeld, hPlace, hUnlogged, hExact⟩
    obtain ⟨w', hRun, hLast, hPresent⟩ := hWritable.exists_updateAll updates hJson
    refine .inr ⟨_, _, w', hRun, lastWriteWins_putAll initial updates,
      tellsKnown_knownBefore initial updates, ?_⟩
    simpa [hPresent] using shows_of_held hJson hLast.held

theorem lastWriteWins_three_updates :
    let path : Path := ⟨[], ["c.json".toList]⟩
    let initial : Entries Json := [("a".toList, .list [.whole 1, .null])]
    let file : Entry := .file (Encoding.encodeUtf8 (Json.object initial).render)
    let w : Workspace := { Workspace.empty with
      tree := { entries := [([ "c.json".toList], file)], current := [] } }
    let updates := [("b".toList, "\"\\".toList), ("a".toList, ['\x00', 'é']), ("b".toList, [])]
    ∃ entries answers w', (updateAll path updates).outcome w = (.ok answers, w') ∧
      LastWriteWins initial updates entries ∧ TellsKnown initial updates answers ∧
      Shows path entries (w.tree.pathExists path = true ∨ updates ≠ []) w' := by
  intro path initial file w updates
  have hItems : ∀ item ∈ [Json.whole 1, .null], Json.Within 988 item := by
    simp only [List.forall_mem_cons]
    exact ⟨.whole (by decide), .null, by simp⟩
  have hWithin : Json.Within Json.deepest (.object initial) :=
    .object (by decide) (List.forall_mem_singleton.2 (.list hItems))
  have hExact : ∀ entry ∈ initial, entry.2.Exact :=
    List.forall_mem_singleton.2 (.list (by
      simp only [List.forall_mem_cons]
      exact ⟨.whole 1, .null, by simp⟩))
  have hLoad : (load ⟨path⟩).outcome w = (.ok initial, w) := by
    rw [outcome_load, held_of_written (l := ["c.json".toList]) hWithin rfl rfl,
      Json.Exact.rereadMembers_eq_self hExact]
  have hUnlogged : Unlogged path w := fun _ _ handler hh => by cases hh
  refine (lastWriteWins_updateAll (by decide) hLoad hExact hUnlogged).resolve_left ?_
  rintro ⟨e, -, hMissing, -⟩
  exact absurd hMissing (by decide)

end RazorVash.TemplateCache
