import RazorVash.Proofs.Cache.Held

namespace RazorVash

open Job Workspace

/-- Something that is beyond the reader, though it may be well-formed. -/
def Json.Fault.isLimit : Json.Fault → Bool
  | .tooManyDigits _ | .listTooDeep | .objectTooDeep => true
  | _ => false

def Json.fault? (text : Text) : Option Json.Fault :=
  match Json.read text with
  | .ok _ => none
  | .error error => some error.fault

namespace TemplateCache

variable {α : Type} {path : Path} {text : Text} {bytes : Bytes} {tree : Tree} {w : Workspace}

def Blames (path : Path) (f : Failure) : Prop := ∃ fault, f = .unusableCache path fault

theorem blames_of_parse_iff : (∀ f, parse path text = .error f → Blames path f) ↔
    ∀ fault ∈ Json.fault? text, fault.isLimit = false := by
  unfold parse Json.fault?
  rcases Json.read text with ⟨fault, rest⟩ | value
  · cases fault <;> simp [Blames, Json.Fault.isLimit]
  · cases value <;> simp [Blames]

/-- The bytes are text, and reading it does not stop at anything beyond the reader. -/
def Legible (bytes : Bytes) : Prop :=
  ∃ text, Encoding.utf8.decode bytes = .ok text ∧
    ∀ fault ∈ Json.fault? (Encoding.unifyLines text), fault.isLimit = false

instance (bytes : Bytes) : Decidable (Legible bytes) :=
  match h : Encoding.utf8.decode bytes with
  | .error _ => .isFalse (by simp [Legible, h])
  | .ok text =>
    decidable_of_iff (∀ fault ∈ Json.fault? (Encoding.unifyLines text), fault.isLimit = false)
      (by simp [Legible, h])

theorem held_of_content (h : tree.content? path = some bytes) : held path tree =
    ((Encoding.utf8.decode bytes).mapError .codec).bind fun text =>
      parse path (Encoding.unifyLines text) := by
  obtain ⟨l, hl, hFile⟩ := Tree.exists_of_content? h
  have hRead : tree.readBytes path = .ok bytes := Tree.readBytes_eq_ok.2 ⟨l, hl, hFile⟩
  have hExists : tree.pathExists path = true := by simp [Tree.pathExists, Tree.entryAt?, hl, hFile]
  rw [held, if_pos hExists, Tree.textAt, hRead, ofName_standardEncoding]
  simp only [Outcome.mapError_ok, bind, Except.bind]
  rcases Encoding.utf8.decode bytes with _ | _ <;> rfl

theorem blames_of_held_iff (h : tree.content? path = some bytes) :
    (∀ f, held path tree = .error f → Blames path f) ↔ Legible bytes := by
  rw [held_of_content h, Legible]
  rcases Encoding.utf8.decode bytes with error | text
  · simp [Except.mapError, Except.bind, Blames]
  · simp only [Outcome.mapError_ok, Except.bind, Except.ok.injEq, exists_eq_left']
    exact blames_of_parse_iff

/-- If the job fails, it tells that the cache file is unusable and leaves its bytes as they are. -/
def Reports (path : Path) (job : Job Workspace α) (w : Workspace) : Prop :=
  ∀ f w', job.outcome w = (.error f, w') →
    Blames path f ∧ w'.tree.content? path = w.tree.content? path

structure ReportsDamage (path : Path) (w : Workspace) : Prop where
  load? : Reports path (load? path) w
  load : Reports path (load ⟨path⟩) w
  find? : ∀ name, Reports path (find? ⟨path⟩ name) w
  names : Reports path (names ⟨path⟩) w
  update : ∀ name form, Reports path (update ⟨path⟩ name (.string form)) w

/-- A job that gives what is held, or something made of it, fails as the reading does. -/
theorem reports_iff_of_outcome {job : Job Workspace α} {view : Entries Json → α}
    (h : job.outcome w = ((held path w.tree).map view, w)) :
    Reports path job w ↔ ∀ f, held path w.tree = .error f → Blames path f := by
  unfold Reports
  rw [h]
  rcases held path w.tree with f | entries <;> simp [Except.map]

theorem update_eq_error {name : Text} {form : Json} {f : Failure} {w' : Workspace}
    (hJson : isJsonFile path = true) (hPresent : w.tree.pathExists path = true)
    (h : (update ⟨path⟩ name form).outcome w = (.error f, w')) :
    held path w.tree = .error f ∧ w' = w := by
  rcases hHeld : held path w.tree with f' | entries
  · rw [outcome_update_of_error ⟨path⟩ name form hHeld] at h
    obtain ⟨rfl, rfl⟩ : f' = f ∧ w = w' := by simpa using h
    exact ⟨rfl, rfl⟩
  · -- a file that could be read can be written
    obtain ⟨l, hPlace⟩ := exists_filePlace?_of_held hJson hHeld hPresent
    obtain ⟨w₁, written, -, -, -, -, hUpdate⟩ :=
      exists_update_written ⟨path⟩ name form hHeld hPlace
    rw [hUpdate] at h
    cases (Prod.mk.inj h).1

/-- All operations on an existing cache file report damage, and leave it as it is, exactly if the file
is legible. -/
theorem reportsDamage_iff (hJson : isJsonFile path = true)
    (hFile : w.tree.content? path = some bytes) : ReportsDamage path w ↔ Legible bytes := by
  obtain ⟨l, hl, hAt⟩ := Tree.exists_of_content? hFile
  have hPresent : w.tree.pathExists path = true := by
    simp [Tree.pathExists, Tree.entryAt?, hl, hAt]
  have hLoad : (load ⟨path⟩).outcome w = ((held path w.tree).map id, w) := by
    rw [outcome_load, Except.map_id, id]
  rw [← blames_of_held_iff hFile]
  constructor
  · exact fun h => (reports_iff_of_outcome hLoad).1 h.load
  · exact fun h => {
      load? := (reports_iff_of_outcome (outcome_load?_of_exists hJson hPresent)).2 h
      load := (reports_iff_of_outcome hLoad).2 h
      find? := fun name => (reports_iff_of_outcome (outcome_find? ⟨path⟩ name w)).2 h
      names := (reports_iff_of_outcome (outcome_names ⟨path⟩ w)).2 h
      update := fun name form f w' hFails => by
        obtain ⟨hHeld, rfl⟩ := update_eq_error hJson hPresent hFails
        exact ⟨h f hHeld, rfl⟩ }

def withCacheFile (bytes : Bytes) : Workspace :=
  { Workspace.empty with tree := { entries := [(["cache.json".toList], .file bytes)], current := [] } }

/-- A file that breaks off inside the escape of a character, after a number that is beyond all bounds. -/
theorem reportsDamage_truncated :
    let path := Path.ofText "cache.json".toList
    let bytes := Encoding.encodeUtf8 "\x7b\"a\": [1e9999, \"\\ud8".toList
    (isJsonFile path = true ∧ (withCacheFile bytes).tree.content? path = some bytes) ∧
      Legible bytes ∧ ReportsDamage path (withCacheFile bytes) := by
  intro path bytes
  have hJson : isJsonFile path = true := by decide +kernel
  have hFile : (withCacheFile bytes).tree.content? path = some bytes := by decide +kernel
  have hLegible : Legible bytes := by decide +kernel
  exact ⟨⟨hJson, hFile⟩, hLegible, (reportsDamage_iff hJson hFile).2 hLegible⟩

/-- A byte that is in no text. The failure is one of decoding, which does not name the file. -/
theorem not_reportsDamage_undecodable :
    let path := Path.ofText "cache.json".toList
    isJsonFile path = true ∧ (withCacheFile [0xFF]).tree.content? path = some [0xFF] ∧
      (load ⟨path⟩).outcome (withCacheFile [0xFF]) =
        (.error (.codec (.undecodable ⟨.utf8, .invalidStart, 0, [0xFF]⟩)), withCacheFile [0xFF]) ∧
      ¬ ReportsDamage path (withCacheFile [0xFF]) := by
  intro path
  have hFile : (withCacheFile [0xFF]).tree.content? path = some [0xFF] := by decide +kernel
  have hDecode : Encoding.utf8.decode [0xFF] =
      .error (.undecodable ⟨.utf8, .invalidStart, 0, [0xFF]⟩) := by decide +kernel
  have hLoad : (load ⟨path⟩).outcome (withCacheFile [0xFF]) =
      (.error (.codec (.undecodable ⟨.utf8, .invalidStart, 0, [0xFF]⟩)), withCacheFile [0xFF]) := by
    rw [outcome_load, held_of_content hFile, hDecode]
    rfl
  refine ⟨by decide +kernel, hFile, hLoad, fun h => ?_⟩
  obtain ⟨⟨fault, hFault⟩, -⟩ := h.load _ _ hLoad
  cases hFault

end TemplateCache

end RazorVash
