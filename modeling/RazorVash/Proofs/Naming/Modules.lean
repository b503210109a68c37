import Mathlib.Data.List.TakeWhile
import RazorVash.Proofs.Naming.Segments

/-!
The modules that templates are named for. A path is cut where its type stands before a slash, which is
not only behind the type directory but behind every directory that ends in the type. So what is taken
for the module comes after the first of those, and it loses the type at its own end (`moduleName_eq`).
It is the module only where that makes no difference (`keepsModules_iff`), as in paths that use the type
for nothing but its directories (`keepsModules_of_whole`).
-/
namespace RazorVash

namespace Text

variable {mark text before rest : Text} {c : Char}

theorem takeWhile_of_notMem (h : c ∉ text) : text.takeWhile (· ≠ c) = text :=
  List.takeWhile_eq_self_iff.2 fun _ hd => decide_eq_true fun hSame => h (hSame ▸ hd)

theorem afterLast_append (before : Text) (separator : Char) (after : Text) :
    afterLast separator (before ++ separator :: after) = afterLast separator after := by
  have hSplit : (before ++ separator :: after).reverse =
      after.reverse ++ separator :: before.reverse := by simp
  have hStop : (separator :: before.reverse).takeWhile (· ≠ separator) = [] := by simp
  rw [afterLast, afterLast, hSplit, List.takeWhile_append, hStop, List.append_nil]
  split
  · next hAll => rw [List.takeWhile_prefix _ |>.eq_of_length hAll]
  · rfl

theorem splitAt_of_cut? (hMark : mark ≠ []) (h : cut? mark text = some (before, rest)) :
    splitAt mark text = before :: splitAt mark rest := by
  rw [splitAt, dif_neg hMark]
  split
  · next hNone => cases hNone.symm.trans h
  · next hSome =>
    obtain ⟨rfl, rfl⟩ := Prod.mk.inj (Option.some.inj (hSome.symm.trans h))
    rfl

theorem splitAt_of_none (h : cut? mark text = none) : splitAt mark text = [text] := by
  rw [splitAt]
  split
  · rfl
  · split
    · rfl
    · next hSome => cases h.symm.trans hSome

end Text

namespace Naming

variable {path type segment : Text} {parts : List Text}

/-- The segment after the first directory that is taken for a type directory, unless it is the file. -/
def nextAfter (isType : Text → Bool) : List Text → Text
  | directory :: next :: rest =>
    if isType directory then (if rest = [] then [] else next) else nextAfter isType (next :: rest)
  | _ => []

/-- The module of a path: the directory below the first type directory. -/
def moduleOf (path type : Text) : Text := nextAfter (fun segment => segment = type) (segments path)

/-- A segment without the type at its end. -/
def bare (type segment : Text) : Text :=
  if type <:+ segment then segment.take (segment.length - type.length) else segment

def withFile (module file : Text) : Text :=
  module ++ (if module ≠ [] ∧ file ≠ [] then ['/'] else []) ++ file

/-! ### Paths in their simplest spelling -/

/-- A path with a type directory, and without segments that are passed over. -/
structure Located (path type : Text) : Prop where
  plain : ∀ segment ∈ segments path, segment ≠ [] ∧ segment ≠ ['.'] ∧ segment ≠ ['.', '.']
  inside : type ∈ directories path

theorem Located.type_ne (h : Located path type) : type ≠ [] :=
  (h.plain type (List.dropLast_subset _ h.inside)).1

theorem Located.slash_notMem (h : Located path type) : '/' ∉ type :=
  slash_notMem_of_mem (List.dropLast_subset _ h.inside)

theorem simplifySegments_of_plain {rooted : Bool}
    (h : ∀ segment ∈ parts, segment ≠ [] ∧ segment ≠ ['.'] ∧ segment ≠ ['.', '.']) :
    simplifySegments rooted parts = parts := by
  have hFold : ∀ kept, parts.foldl (simplifySegments.step rooted) kept = parts.reverse ++ kept := by
    induction parts with
    | nil => exact fun _ => rfl
    | cons segment parts ih =>
      intro kept
      obtain ⟨hNe, hPoint, hPoints⟩ := h segment List.mem_cons_self
      have hStep : simplifySegments.step rooted kept segment = segment :: kept := by
        rw [simplifySegments.step.eq_def, if_neg (by simp [hNe, hPoint]), if_neg hPoints]
      rw [List.foldl_cons, hStep, ih fun s hs => h s (List.mem_cons_of_mem _ hs),
        List.reverse_cons, List.append_assoc]
      rfl
  rw [simplifySegments, hFold, List.append_nil, List.reverse_reverse]

theorem simplify_of_plain
    (h : ∀ segment ∈ segments path, segment ≠ [] ∧ segment ≠ ['.'] ∧ segment ≠ ['.', '.']) :
    simplify (slash path) = slash path := by
  have hSegments : ∀ segment ∈ segments path, Path.IsSegment segment := fun segment hs =>
    ⟨(h segment hs).1, (h segment hs).2.1, slash_notMem_of_mem hs⟩
  -- only the empty text is spelled otherwise
  have hText : slash path ≠ [] := by
    intro hNil
    have hOnly : segments path = [[]] := by rw [segments, hNil, List.splitOn_nil]
    exact (h [] (hOnly ▸ List.mem_cons_self)).1 rfl
  have hRead : Path.ofText (slash path) = ⟨[], segments path⟩ := by
    rw [← Path.ofText_root_join (.inl rfl) hSegments, List.nil_append, join_segments]
  rw [simplify_eq, hRead]
  simp only [simplifySegments_of_plain h, join_segments, List.nil_append]

theorem afterLast_join (hParts : parts ≠ []) (h : ∀ segment ∈ parts, '/' ∉ segment) :
    Text.afterLast '/' (Text.join ['/'] parts) = parts.getLast hParts := by
  induction parts with
  | nil => exact absurd rfl hParts
  | cons segment parts ih =>
    rcases parts with _ | ⟨next, more⟩
    · rw [join_singleton, Text.afterLast, Text.takeWhile_of_notMem, List.reverse_reverse]
      · rfl
      · simpa using h
    · rw [join_cons segment (List.cons_ne_nil next more), Text.afterLast_append,
        ih (List.cons_ne_nil next more) fun s hs => h s (List.mem_cons_of_mem _ hs),
        List.getLast_cons_cons]

theorem fileName_eq (path : Text) :
    fileName path true = (segments path).getLast (segments_ne_nil path) := by
  have hLast := afterLast_join (segments_ne_nil path) fun _ => slash_notMem_of_mem
  rwa [join_segments] at hLast

theorem slash_notMem_fileName (path : Text) (withExtension : Bool) :
    '/' ∉ fileName path withExtension := by
  have hFile : '/' ∉ fileName path true := by
    rw [fileName_eq]
    exact slash_notMem_of_mem (List.getLast_mem _)
  cases withExtension with
  | true => exact hFile
  | false =>
    change '/' ∉ stem (fileName path true)
    rw [stem]
    split
    · exact hFile
    · next before after hCut =>
      rw [Text.cutLast?_eq_some hCut] at hFile
      exact fun hSlash => hFile (by simp [hSlash])

/-! ### Where the mark of a type is found -/

section Marks
variable (hType : '/' ∉ type)
include hType

theorem type_cases {u rest a b : Text} (hu : '/' ∉ u)
    (h : u ++ '/' :: rest = a ++ (type ++ ['/']) ++ b) :
    a ++ type = u ∨ ∃ more, a = u ++ '/' :: more ∧ rest = more ++ (type ++ ['/']) ++ b := by
  by_cases ha : '/' ∈ a
  · obtain ⟨first, more, rfl, hFirst⟩ := List.eq_append_cons_of_mem ha
    have hSplit : u ++ '/' :: rest = first ++ '/' :: (more ++ (type ++ ['/']) ++ b) := by
      simpa using h
    obtain ⟨rfl, hRest⟩ := Text.append_inj_of_notMem hu hFirst hSplit
    exact .inr ⟨more, rfl, hRest⟩
  · have hBoth : '/' ∉ a ++ type := by simp [ha, hType]
    have hSplit : u ++ '/' :: rest = (a ++ type) ++ '/' :: b := by simpa using h
    exact .inl (Text.append_inj_of_notMem hu hBoth hSplit).1.symm

theorem cut?_directory {u : Text} (hu : '/' ∉ u) (rest : Text) :
    Text.cut? (type ++ ['/']) (u ++ type ++ '/' :: rest) = some (u, rest) := by
  have hText : u ++ type ++ '/' :: rest = u ++ (type ++ ['/']) ++ rest := by simp
  rw [hText]
  refine Text.cut?_append fun a b hab => ?_
  have hDirectory : '/' ∉ u ++ type := by simp [hu, hType]
  rcases type_cases hType hDirectory (hText.trans hab) with hSame | ⟨more, rfl, -⟩
  · rw [List.append_cancel_right hSame]
  · simp only [List.length_append]
    omega

theorem cut?_other (hSegment : '/' ∉ segment) (h : ¬ type <:+ segment) (rest : Text) :
    Text.cut? (type ++ ['/']) (segment ++ '/' :: rest) =
      (Text.cut? (type ++ ['/']) rest).map fun (before, after) =>
        (segment ++ '/' :: before, after) := by
  rcases hCut : Text.cut? (type ++ ['/']) rest with _ | ⟨before, after⟩
  · refine Text.cut?_eq_none.2 fun ⟨a, b, hab⟩ => ?_
    rcases type_cases hType hSegment hab.symm with hSame | ⟨more, -, hRest⟩
    · exact h ⟨a, hSame⟩
    · exact Text.cut?_eq_none.1 hCut ⟨more, b, hRest.symm⟩
  · have hText : segment ++ '/' :: rest = segment ++ '/' :: before ++ (type ++ ['/']) ++ after := by
      rw [Text.cut?_eq_some hCut]
      simp
    rw [hText]
    refine Text.cut?_append fun a b hab => ?_
    rcases type_cases hType hSegment (hText.trans hab) with hSame | ⟨more, rfl, hRest⟩
    · exact absurd ⟨a, hSame⟩ h
    · have := Text.length_le_of_cut? hCut hRest
      simp only [List.length_append, List.length_cons]
      omega

/-- A type before a slash is found first at the first directory that ends in the type. -/
theorem cut?_join (h : ∀ segment ∈ parts, '/' ∉ segment) :
    (Text.cut? (type ++ ['/']) (Text.join ['/'] parts) = none ∧
        nextAfter (fun segment => type <:+ segment) parts = []) ∨
      ∃ before next rest, (next :: rest) <:+ parts ∧
        Text.cut? (type ++ ['/']) (Text.join ['/'] parts) =
          some (before, Text.join ['/'] (next :: rest)) ∧
        nextAfter (fun segment => type <:+ segment) parts = if rest = [] then [] else next := by
  induction parts with
  | nil => exact .inl ⟨Text.cut?_eq_none.2 fun hMark => by simp [Text.join] at hMark, rfl⟩
  | cons segment parts ih =>
    have hSegment := h segment List.mem_cons_self
    rcases parts with _ | ⟨next, rest⟩
    · rw [join_singleton]
      exact .inl ⟨Text.cut?_eq_none.2 (Text.not_infix_of_notMem (by simp) hSegment), rfl⟩
    · rw [join_cons segment (List.cons_ne_nil next rest)]
      -- the type has a slash behind it only where a directory ends in it
      by_cases hEnds : type <:+ segment
      · obtain ⟨u, rfl⟩ := hEnds
        have hu : '/' ∉ u := fun hMem => hSegment (List.mem_append_left _ hMem)
        exact .inr ⟨u, next, rest, List.suffix_cons _ _, cut?_directory hType hu _,
          by simp [nextAfter]⟩
      · have hNext : nextAfter (fun segment => type <:+ segment) (segment :: next :: rest) =
            nextAfter (fun segment => type <:+ segment) (next :: rest) := by
          rw [nextAfter, if_neg (by simpa using hEnds)]
        rw [cut?_other hType hSegment hEnds, hNext]
        rcases ih fun s hs => h s (List.mem_cons_of_mem _ hs) with
          ⟨hCut, hNone⟩ | ⟨before, after, more, hSuffix, hCut, hAfter⟩
        · exact .inl ⟨by rw [hCut]; rfl, hNone⟩
        · exact .inr ⟨segment ++ '/' :: before, after, more, hSuffix.trans (List.suffix_cons _ _),
            by rw [hCut]; rfl, hAfter⟩

theorem exists_splitAt (hSegment : '/' ∉ segment) (rest : Text) :
    ∃ first more, Text.splitAt (type ++ ['/']) (segment ++ '/' :: rest) = first :: more ∧
      first.takeWhile (· ≠ '/') = bare type segment := by
  have hMark : type ++ ['/'] ≠ [] := by simp
  by_cases hEnds : type <:+ segment
  · obtain ⟨u, rfl⟩ := hEnds
    have hu : '/' ∉ u := fun hMem => hSegment (List.mem_append_left _ hMem)
    refine ⟨u, _, Text.splitAt_of_cut? hMark (cut?_directory hType hu rest), ?_⟩
    rw [Text.takeWhile_of_notMem hu, bare, if_pos ⟨u, rfl⟩]
    simp
  · have hTake (more : Text) : (segment ++ '/' :: more).takeWhile (· ≠ '/') = segment := by
      rw [List.takeWhile_append, Text.takeWhile_of_notMem hSegment, if_pos rfl]
      simp
    have hOther := cut?_other hType hSegment hEnds rest
    rw [bare, if_neg hEnds]
    rcases hCut : Text.cut? (type ++ ['/']) rest with _ | ⟨before, after⟩ <;> rw [hCut] at hOther
    · exact ⟨_, _, Text.splitAt_of_none hOther, hTake rest⟩
    · exact ⟨_, _, Text.splitAt_of_cut? hMark hOther, hTake before⟩

end Marks

/-! ### The module that is found -/

theorem bare_nil (h : type ≠ []) : bare type [] = [] := by
  rw [bare, if_neg (by simpa using h)]

/-- The first directory that ends in the type is taken for the type directory. -/
theorem moduleName_eq (h : Located path type) (withFileName : Bool) :
    moduleName path type withFileName =
      withFile (bare type (nextAfter (fun segment => type <:+ segment) (segments path)))
        (if withFileName then fileName path false else []) := by
  have hFile (extension : Bool) : fileName (slash path) extension = fileName path extension := by
    simp only [fileName, slash_slash]
  have hNames : ∀ segment ∈ segments path, '/' ∉ segment := fun _ => slash_notMem_of_mem
  simp only [moduleName, simplify_of_plain h.plain, hFile]
  have hFound := cut?_join h.slash_notMem hNames
  rw [join_segments] at hFound
  rcases hFound with ⟨hCut, hNone⟩ | ⟨before, next, rest, hSuffix, hCut, hAfter⟩
  · rw [Text.splitAt_of_none hCut, hNone, bare_nil h.type_ne]
    simp [withFile]
  · have hPath := Text.cut?_eq_some hCut
    have hLast := hSuffix.getLast (List.cons_ne_nil next rest)
    rw [← fileName_eq] at hLast
    rw [Text.splitAt_of_cut? (by simp) hCut, hAfter]
    rcases rest with _ | ⟨another, more⟩
    · -- the file is directly inside
      have hDirectly : before ++ (type ++ ['/']) ++ fileName path true = slash path := by
        rw [hPath, join_singleton, ← hLast, List.getLast_singleton]
      have hNext := hNames next (hSuffix.subset List.mem_cons_self)
      have hNone := Text.cut?_eq_none.2 (Text.not_infix_of_notMem (p := type ++ ['/']) (by simp) hNext)
      rw [join_singleton, Text.splitAt_of_none hNone]
      simp only [hDirectly, if_true, bare_nil h.type_ne]
      simp [withFile]
    · have hInside : before ++ (type ++ ['/']) ++ fileName path true ≠ slash path := by
        intro hSame
        rw [hPath] at hSame
        have hSlash := slash_notMem_fileName path true
        rw [List.append_cancel_left hSame, join_cons next (List.cons_ne_nil another more)] at hSlash
        simp at hSlash
      have hNext := hNames next (hSuffix.subset List.mem_cons_self)
      obtain ⟨first, others, hSplit, hFirst⟩ := exists_splitAt h.slash_notMem hNext
        (Text.join ['/'] (another :: more))
      rw [join_cons next (List.cons_ne_nil another more), hSplit]
      simp only [if_neg hInside, hFirst, if_neg (List.cons_ne_nil another more)]
      rfl

/-! ### When the module is found -/

/-- The module is found, and before the file name it stands where the name is asked for with the file,
if the file has a name. -/
def NamesModule (path type : Text) : Prop :=
  moduleName path type false = moduleOf path type ∧
    (fileName path false ≠ [] →
      moduleName path type true = if moduleOf path type = [] then fileName path false
        else moduleOf path type ++ '/' :: fileName path false)

/-- The module is found, and a template of another module whose module is found gets another name. -/
def KeepsModules (path type : Text) : Prop :=
  NamesModule path type ∧ ∀ other, Located other type → NamesModule other type →
    moduleOf path type ≠ moduleOf other type →
    (fileName path false ≠ [] ∧ fileName other false ≠ []) ∨
      (moduleOf path type ≠ [] ∧ moduleOf other type ≠ []) →
    templateName type path ≠ templateName type other

theorem withFile_nil (module : Text) : withFile module [] = module := by simp [withFile]

theorem namesModule_iff (h : Located path type) :
    NamesModule path type ↔
      bare type (nextAfter (fun segment => type <:+ segment) (segments path)) =
        moduleOf path type := by
  have hFalse := moduleName_eq h false
  have hTrue := moduleName_eq h true
  rw [if_neg Bool.false_ne_true, withFile_nil] at hFalse
  rw [if_pos rfl] at hTrue
  refine ⟨fun hNames => hFalse ▸ hNames.1, fun hSame => ?_⟩
  rw [hSame] at hFalse hTrue
  refine ⟨hFalse, fun hFile => ?_⟩
  rw [hTrue, withFile]
  by_cases hModule : moduleOf path type = []
  · simp [hModule]
  · simp [hModule, hFile]

theorem nextAfter_mem (isType : Text → Bool) (parts : List Text) :
    nextAfter isType parts = [] ∨ nextAfter isType parts ∈ parts.dropLast := by
  induction parts with
  | nil => exact .inl rfl
  | cons directory parts ih =>
    rcases parts with _ | ⟨next, rest⟩
    · exact .inl rfl
    · rw [nextAfter]
      by_cases hType : isType directory
      · rw [if_pos hType]
        by_cases hRest : rest = []
        · exact .inl (if_pos hRest)
        · exact .inr (by simp [hRest, List.dropLast_cons_of_ne_nil hRest])
      · rw [if_neg hType]
        exact ih.imp_right (List.mem_cons_of_mem directory)

theorem nextAfter_congr {isType isOther : Text → Bool}
    (h : ∀ directory ∈ parts.dropLast, isType directory = isOther directory) :
    nextAfter isType parts = nextAfter isOther parts := by
  induction parts with
  | nil => rfl
  | cons directory parts ih =>
    rcases parts with _ | ⟨next, rest⟩
    · rfl
    · rw [nextAfter, nextAfter, h directory List.mem_cons_self,
        ih fun inner hInner => h inner (List.mem_cons_of_mem directory hInner)]

theorem slash_notMem_moduleOf (path type : Text) : '/' ∉ moduleOf path type := by
  rcases nextAfter_mem (fun segment => segment = type) (segments path) with hNil | hMem
  · rw [moduleOf, hNil]
    exact List.not_mem_nil
  · exact slash_notMem_of_mem (List.dropLast_subset _ hMem)

theorem withFile_inj {module module' file file' : Text} (hModule : '/' ∉ module)
    (hModule' : '/' ∉ module') (hFile : '/' ∉ file) (hFile' : '/' ∉ file')
    (hSome : (file ≠ [] ∧ file' ≠ []) ∨ (module ≠ [] ∧ module' ≠ []))
    (h : withFile module file = withFile module' file') : module = module' := by
  have hSlash {m f : Text} (hm : '/' ∉ m) (hf : '/' ∉ f) :
      '/' ∈ withFile m f ↔ m ≠ [] ∧ f ≠ [] := by
    by_cases hBoth : m ≠ [] ∧ f ≠ [] <;> simp [withFile, hBoth, hm, hf]
  have hBoth : (module ≠ [] ∧ file ≠ []) ↔ (module' ≠ [] ∧ file' ≠ []) := by
    rw [← hSlash hModule hFile, h, hSlash hModule' hFile']
  unfold withFile at h
  by_cases hLeft : module ≠ [] ∧ file ≠ []
  · rw [if_pos hLeft, if_pos (hBoth.1 hLeft)] at h
    exact (Text.append_inj_of_notMem hModule hModule' (by simpa using h)).1
  · have hRight := mt hBoth.2 hLeft
    rw [if_neg hLeft, if_neg hRight] at h
    rcases hSome with ⟨hf, hf'⟩ | ⟨hm, hm'⟩
    · have hm : module = [] := by simpa [hf] using hLeft
      have hm' : module' = [] := by simpa [hf'] using hRight
      rw [hm, hm']
    · have hf : file = [] := by simpa [hm] using hLeft
      have hf' : file' = [] := by simpa [hm'] using hRight
      simpa [hf, hf'] using h

theorem NamesModule.moduleName_eq (hNames : NamesModule path type) (h : Located path type) :
    moduleName path type true = withFile (moduleOf path type) (fileName path false) := by
  rw [Naming.moduleName_eq h, (namesModule_iff h).1 hNames, if_pos rfl]

theorem NamesModule.keepsModules (hNames : NamesModule path type) (h : Located path type) :
    KeepsModules path type := by
  refine ⟨hNames, fun other hOther hNamesOther hModules hSome hSame => hModules ?_⟩
  unfold templateName at hSame
  rw [hNames.moduleName_eq h, hNamesOther.moduleName_eq hOther] at hSame
  exact withFile_inj (slash_notMem_moduleOf _ _) (slash_notMem_moduleOf _ _)
    (slash_notMem_fileName _ _) (slash_notMem_fileName _ _) hSome
    (List.cons.inj (List.append_cancel_left hSame)).2

/-- A module is kept where no directory ends in the type but the type directories, and is not one of
them itself. -/
theorem keepsModules_of_whole (h : Located path type)
    (hWhole : ∀ directory ∈ directories path, type <:+ directory → directory = type)
    (hModule : moduleOf path type ≠ type) : KeepsModules path type := by
  have hNext : nextAfter (fun segment => type <:+ segment) (segments path) =
      moduleOf path type := nextAfter_congr fun directory hMem => by
    rw [decide_eq_decide]
    exact ⟨hWhole directory hMem, fun hSame => hSame ▸ List.suffix_refl _⟩
  refine NamesModule.keepsModules ((namesModule_iff h).2 ?_) h
  rw [hNext, bare]
  split
  · next hEnds =>
    rcases nextAfter_mem (fun segment => segment = type) (segments path) with hNil | hMem
    · rw [moduleOf, hNil, List.take_nil]
    · exact absurd (hWhole _ hMem hEnds) hModule
  · rfl

/-- A module is kept exactly if what follows the first directory that merely ends in the type, less
the type at its own end, is the module. -/
theorem keepsModules_iff (h : Located path type) :
    KeepsModules path type ↔
      bare type (nextAfter (fun segment => type <:+ segment) (segments path)) =
        moduleOf path type :=
  ⟨fun hKeeps => (namesModule_iff h).1 hKeeps.1, fun hSame =>
    ((namesModule_iff h).2 hSame).keepsModules h⟩

/-- Neither a directory that begins with the type nor what comes after the module makes a difference. -/
theorem keepsModules_second_type :
    let path := "pgx/app\\pg/home/mypg/pg/Index.vash".toList
    Located path "pg".toList ∧ moduleOf path "pg".toList = "home".toList ∧
      KeepsModules path "pg".toList := by
  intro path
  have hPath : Located path "pg".toList := ⟨by decide +kernel, by decide +kernel⟩
  exact ⟨hPath, by decide +kernel, (keepsModules_iff hPath).2 (by decide +kernel)⟩

theorem not_keepsModules_jpg :
    let path := "app/jpg/pg/home/Index.vash".toList
    let other := "app/jpg/pg/about/Index.vash".toList
    Located path "pg".toList ∧ Located other "pg".toList ∧
      moduleOf path "pg".toList = "home".toList ∧ moduleOf other "pg".toList = "about".toList ∧
      moduleName path "pg".toList false = [] ∧
      templateName "pg".toList path = templateName "pg".toList other ∧
      ¬ KeepsModules path "pg".toList := by
  intro path other
  refine ⟨⟨by decide +kernel, by decide +kernel⟩, ⟨by decide +kernel, by decide +kernel⟩,
    by decide +kernel, by decide +kernel, by decide +kernel, by decide +kernel, fun h => ?_⟩
  have hModule := h.1.1
  revert hModule
  decide +kernel

end Naming

end RazorVash
