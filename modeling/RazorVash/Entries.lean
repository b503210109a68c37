import RazorVash.Text.Basic

namespace RazorVash

abbrev Entries (α : Type) := List (Text × α)

namespace Entries
variable {α : Type}

def find? (name : Text) : Entries α → Option α
  | [] => none
  | (key, value) :: entries => if key = name then some value else find? name entries

def names (entries : Entries α) : List Text := entries.map Prod.fst

/-- An entry under a known name keeps the slot of the old one; a new name comes last. -/
def put (name : Text) (value : α) : Entries α → Entries α
  | [] => [(name, value)]
  | (key, old) :: entries =>
    if key = name then (key, value) :: entries else (key, old) :: put name value entries

def putAll (entries more : Entries α) : Entries α :=
  more.foldl (fun entries (name, value) => put name value entries) entries

def erase (name : Text) (entries : Entries α) : Entries α :=
  entries.filter (·.1 ≠ name)

theorem find?_put (entries : Entries α) (name other : Text) (value : α) :
    find? other (put name value entries) =
      if name = other then some value else find? other entries := by
  induction entries with
  | nil => rfl
  | cons entry entries ih =>
    obtain ⟨key, old⟩ := entry
    by_cases h : key = name
    · by_cases h' : name = other <;> simp_all [put, find?]
    · by_cases h' : key = other
      · subst h'; simp [put, find?, h, Ne.symm h]
      · simp [put, find?, h, h', ih]

theorem names_put (entries : Entries α) (name : Text) (value : α) :
    names (put name value entries) =
      if name ∈ names entries then names entries else names entries ++ [name] := by
  induction entries with
  | nil => simp [put, names]
  | cons entry entries ih =>
    obtain ⟨key, old⟩ := entry
    by_cases h : key = name
    · simp [put, names, h]
    · simp only [names] at ih
      simp only [names, put, h, if_false, List.map_cons, List.mem_cons, Ne.symm h, false_or, ih]
      by_cases hm : name ∈ entries.map Prod.fst <;> simp [hm]

theorem find?_isSome_iff (entries : Entries α) (name : Text) :
    (find? name entries).isSome ↔ name ∈ names entries := by
  induction entries with
  | nil => simp [find?, names]
  | cons entry entries ih =>
    obtain ⟨key, old⟩ := entry
    by_cases h : key = name
    · simp [find?, names, h]
    · simpa [find?, names, h, Ne.symm h] using ih

end Entries

end RazorVash
