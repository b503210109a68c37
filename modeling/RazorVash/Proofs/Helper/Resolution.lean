import RazorVash.Helper.Resolution
import RazorVash.Proofs.Entries

namespace RazorVash.Helper

variable {custom : List Path} {helper : Helper} {helpers : List Helper} {name : Text}

def packagedNames : List Text := PackagedHelper.all.map fun helper => (packaged helper).name

/-- The names of files that no packaged helper has, each once, in the order of their first
appearance. -/
def newNames (custom : List Path) : List Text :=
  (custom.map fun path => (file path).name).eraseDups.removeAll packagedNames

/-- The holder of a name is the last file that has it, or else the packaged helper. -/
inductive Holds (custom : List Path) : Helper → Prop
  | file {before after : List Path} {path : Path} (hSplit : custom = before ++ path :: after)
      (hLast : ∀ later ∈ after, (file later).name ≠ (file path).name) : Holds custom (file path)
  | packaged {helper : PackagedHelper} (hHelper : helper ∈ PackagedHelper.all)
      (hKept : ∀ path ∈ custom, (file path).name ≠ (packaged helper).name) :
      Holds custom (packaged helper)

/-- The names are all different, first those of the packaged helpers and then the new ones, and each
of them is with its holder. -/
structure Overrides (custom : List Path) (helpers : List Helper) : Prop where
  distinct : (helpers.map Helper.name).Nodup
  names : helpers.map Helper.name = packagedNames ++ newNames custom
  holds : ∀ helper ∈ helpers, Holds custom helper

def fileEntries (custom : List Path) : Entries Helper := custom.map fun path => (file path).named

theorem resolve_eq (custom : List Path) :
    resolve custom = (packagedEntries.putAll (fileEntries custom)).map Prod.snd := rfl

theorem nodup_packagedEntries : packagedEntries.names.Nodup := by decide +kernel

theorem names_fileEntries (custom : List Path) :
    (fileEntries custom).names = custom.map fun path => (file path).name := by
  rw [fileEntries, Entries.names, List.map_map]
  rfl

theorem find?_packagedEntries : packagedEntries.find? name = some helper ↔
    ∃ known ∈ PackagedHelper.all, helper = packaged known ∧ helper.name = name := by
  rw [Entries.find?_eq_some_iff nodup_packagedEntries, packagedEntries, List.mem_map]
  constructor
  · rintro ⟨known, hKnown, hEntry⟩
    cases hEntry
    exact ⟨known, hKnown, rfl, rfl⟩
  · rintro ⟨known, hKnown, rfl, rfl⟩
    exact ⟨known, hKnown, rfl⟩

theorem find?_fileEntries : Entries.find? name (fileEntries custom).reverse = some helper ↔
    ∃ before path after, custom = before ++ path :: after ∧ helper = file path ∧
      helper.name = name ∧ ∀ later ∈ after, (file later).name ≠ name := by
  rw [Entries.find?_reverse_eq_some_iff]
  constructor
  · rintro ⟨before, after, hSplit, hLast⟩
    obtain ⟨before, rest, rfl, rfl, hRest⟩ := List.map_eq_append_iff.1 hSplit
    obtain ⟨path, after, rfl, hEntry, rfl⟩ := List.map_eq_cons_iff.1 hRest
    cases hEntry
    refine ⟨before, path, after, rfl, rfl, rfl, fun later hm hName => hLast ?_⟩
    rw [← fileEntries, names_fileEntries]
    exact List.mem_map.2 ⟨later, hm, hName⟩
  · rintro ⟨before, path, after, rfl, rfl, rfl, hLast⟩
    refine ⟨fileEntries before, fileEntries after, ?_, ?_⟩
    · rw [fileEntries, List.map_append, List.map_cons]
      rfl
    · rw [names_fileEntries, List.mem_map]
      rintro ⟨later, hm, hName⟩
      exact hLast later hm hName

theorem find?_fileEntries_eq_none : Entries.find? name (fileEntries custom).reverse = none ↔
    ∀ path ∈ custom, (file path).name ≠ name := by
  rw [← Option.not_isSome_iff_eq_none, Entries.find?_isSome_iff, Entries.names, List.map_reverse,
    List.mem_reverse, ← Entries.names, names_fileEntries]
  simp

theorem find?_putAll_eq_some : (packagedEntries.putAll (fileEntries custom)).find? name = some helper ↔
    helper.name = name ∧ Holds custom helper := by
  rw [Entries.find?_putAll, Option.or_eq_some_iff, find?_fileEntries, find?_fileEntries_eq_none,
    find?_packagedEntries]
  constructor
  · rintro (⟨before, path, after, hSplit, rfl, rfl, hLast⟩ | ⟨hKept, known, hKnown, rfl, rfl⟩)
    · exact ⟨rfl, .file hSplit hLast⟩
    · exact ⟨rfl, .packaged hKnown hKept⟩
  · rintro ⟨rfl, hSplit, hLast⟩
    · exact .inl ⟨_, _, _, hSplit, rfl, rfl, hLast⟩
    · next known hKnown hKept => exact .inr ⟨hKept, known, hKnown, rfl, rfl⟩

theorem nodup_names_putAll (custom : List Path) :
    (packagedEntries.putAll (fileEntries custom)).names.Nodup :=
  Entries.nodup_names_putAll nodup_packagedEntries

theorem mem_putAll {entry : Text × Helper} :
    entry ∈ packagedEntries.putAll (fileEntries custom) ↔
      entry.2.name = entry.1 ∧ Holds custom entry.2 := by
  rw [← find?_putAll_eq_some, Entries.find?_eq_some_iff (nodup_names_putAll custom)]

theorem map_name_resolve (custom : List Path) :
    (resolve custom).map Helper.name = (packagedEntries.putAll (fileEntries custom)).names := by
  rw [resolve_eq, List.map_map]
  exact List.map_congr_left fun entry hm => (mem_putAll.1 hm).1

theorem overrides_resolve (custom : List Path) : Overrides custom (resolve custom) where
  distinct := by
    rw [map_name_resolve]
    exact nodup_names_putAll custom
  names := by
    have hPackaged : packagedEntries.names = packagedNames := rfl
    rw [map_name_resolve, Entries.names_putAll, names_fileEntries, hPackaged, newNames]
    simp [List.removeAll]
  holds helper hHelper := by
    obtain ⟨entry, hEntry, rfl⟩ := List.mem_map.1 hHelper
    exact (mem_putAll.1 hEntry).2

theorem Overrides.map_some (h : Overrides custom helpers) :
    helpers.map some = (packagedNames ++ newNames custom).map fun name =>
      (packagedEntries.putAll (fileEntries custom)).find? name := by
  rw [← h.names, List.map_map]
  exact List.map_congr_left fun helper hm => (find?_putAll_eq_some.2 ⟨rfl, h.holds helper hm⟩).symm

/-- The resolved helpers are the one list in which the packaged names come first and in their order,
new names follow, and every name is with its holder. -/
theorem overrides_iff (custom : List Path) (helpers : List Helper) :
    Overrides custom helpers ↔ helpers = resolve custom := by
  constructor
  · intro h
    -- both lists have the same names in the same order, and a name has one holder
    have hSame : helpers.map some = (resolve custom).map some :=
      h.map_some.trans (overrides_resolve custom).map_some.symm
    exact List.map_injective_iff.2 (fun _ _ => Option.some.inj) hSame
  · rintro rfl
    exact overrides_resolve custom

/-- Names of packaged helpers in other directories, with another extension or the other separator, and
a new name twice. -/
example :
    let custom := ["a/foreach.vash", "new.vash", "lib\\foreach.html", "b//./new.js"].map fun path =>
      Path.ofText path.toList
    (resolve custom).map Helper.shownPath =
      ["<HELPERS>/RenderPartial.vash", "lib\\foreach.html", "<HELPERS>/LayoutContent.vash",
        "<HELPERS>/StringIsNullOrEmpty.vash", "<HELPERS>/StringIsNullOrWhiteSpace.vash",
        "b/new.js"].map String.toList := by
  decide +kernel

end RazorVash.Helper
