import RazorVash.Storage.Path

namespace RazorVash

abbrev Bytes := List UInt8

/-- The names on the way from the root. -/
abbrev Location := List Text

inductive Entry
  | directory
  | file (content : Bytes)
deriving DecidableEq, Repr

inductive FileFault
  | missing
  | occupied
  | notDirectory
  | isDirectory
  | badName
deriving DecidableEq, Repr

structure FileError where
  fault : FileFault
  path : Text
deriving DecidableEq, Repr

namespace FileError

def text : FileFault → Text
  | .missing => "[Errno 2] No such file or directory".toList
  | .occupied => "[Errno 17] File exists".toList
  | .notDirectory => "[Errno 20] Not a directory".toList
  | .isDirectory => "[Errno 21] Is a directory".toList
  | .badName => "embedded null byte".toList

def message (e : FileError) : Text :=
  match e.fault with
  | .badName => text .badName
  | fault => text fault ++ ": ".toList ++ e.path.quoted

end FileError

/-- Relative paths begin at the current directory. -/
structure Tree where
  entries : List (Location × Entry)
  current : Location
deriving Repr

namespace Tree

/-- The root is always a directory. -/
def find? (tree : Tree) (location : Location) : Option Entry :=
  if location = [] then some .directory
  else (tree.entries.find? (·.1 = location)).map Prod.snd

def isDirectoryAt (tree : Tree) (location : Location) : Bool :=
  tree.find? location = some .directory

def set (tree : Tree) (location : Location) (entry : Entry) : Tree :=
  { tree with entries := (location, entry) :: tree.entries.filter (·.1 ≠ location) }

def remove (tree : Tree) (location : Location) : Tree :=
  { tree with entries := tree.entries.filter fun (l, _) => !location.isPrefixOf l }

theorem find?_set (tree : Tree) (location other : Location) (entry : Entry)
    (h : location ≠ []) :
    (tree.set location entry).find? other =
      if other = location then some entry else tree.find? other := by
  unfold find? set
  by_cases h₁ : other = []
  · subst h₁; simp [Ne.symm h]
  · by_cases h₂ : other = location
    · subst h₂; simp [h₁]
    · simp only [h₁, h₂, if_false, List.find?_cons, Ne.symm h₂, decide_false]
      congr 1
      induction tree.entries with
      | nil => rfl
      | cons e entries ih =>
        by_cases h₃ : e.1 = location
        · have : e.1 ≠ other := fun h => h₂ (h.symm.trans h₃)
          simp_all
        · by_cases h₄ : e.1 = other <;> simp_all

/-- Where a path leads from a location. Every segment needs a directory to start from; what the
last one names may be missing. -/
def walk (tree : Tree) (location : Location) : List Text → Except FileFault Location
  | [] => .ok location
  | segment :: segments =>
    match tree.find? location with
    | none => .error .missing
    | some (.file _) => .error .notDirectory
    | some .directory =>
      if segment = ['.', '.'] then walk tree location.dropLast segments
      else walk tree (location ++ [segment]) segments

def locate (tree : Tree) (path : Path) : Except FileError Location :=
  if path.segments.any fun segment => '\x00' ∈ segment then .error ⟨.badName, path.render⟩
  else
    (tree.walk (if path.root = [] then tree.current else []) path.segments).mapError
      (⟨·, path.render⟩)

def entryAt? (tree : Tree) (path : Path) : Option Entry :=
  match tree.locate path with
  | .ok location => tree.find? location
  | .error _ => none

def pathExists (tree : Tree) (path : Path) : Bool := (tree.entryAt? path).isSome

def isDirectory (tree : Tree) (path : Path) : Bool := tree.entryAt? path = some .directory

def isFile (tree : Tree) (path : Path) : Bool :=
  match tree.entryAt? path with
  | some (.file _) => true
  | _ => false

def readBytes (tree : Tree) (path : Path) : Except FileError Bytes :=
  match tree.locate path with
  | .error e => .error e
  | .ok location =>
    match tree.find? location with
    | none => .error ⟨.missing, path.render⟩
    | some .directory => .error ⟨.isDirectory, path.render⟩
    | some (.file content) => .ok content

def writeBytes (tree : Tree) (path : Path) (content : Bytes) : Except FileError Tree :=
  match tree.locate path with
  | .error e => .error e
  | .ok location =>
    if tree.isDirectoryAt location then .error ⟨.isDirectory, path.render⟩
    else if !tree.isDirectoryAt location.dropLast then .error ⟨.missing, path.render⟩
    else .ok (tree.set location (.file content))

def makeDirectory (tree : Tree) (path : Path) : Except FileError Tree :=
  match tree.locate path with
  | .error e => .error e
  | .ok location =>
    if (tree.find? location).isSome then .error ⟨.occupied, path.render⟩
    else .ok (tree.set location .directory)

/-- Makes the directory at a path with those above it, as far as they are missing. What has been made
stays when one of them cannot be. -/
def growTo (tree : Tree) (path : Path) : Option FileError × Tree :=
  match tree.makeDirectory path with
  | .ok tree => (none, tree)
  | .error e =>
    if e.fault = .missing then
      if _ : path.segments ≠ [] then
        match growTo tree path.parent with
        | (some e, tree) => (some e, tree)
        | (none, tree) =>
          match tree.makeDirectory path with
          | .ok tree => (none, tree)
          | .error e => (if tree.isDirectory path then none else some e, tree)
      else (some e, tree)
    else (if tree.isDirectory path then none else some e, tree)
termination_by path.segments.length
decreasing_by
  have := List.length_pos_iff.2 ‹path.segments ≠ []›
  simp only [Path.parent, List.length_dropLast]
  omega

def makeDirectories (tree : Tree) (path : Path) : Except FileError Tree :=
  match tree.growTo path with
  | (none, tree) => .ok tree
  | (some e, _) => .error e

def delete (tree : Tree) (path : Path) : Except FileError Tree :=
  match tree.locate path with
  | .error e => .error e
  | .ok location =>
    match tree.find? location with
    | none => .error ⟨.missing, path.render⟩
    | some _ => .ok (tree.remove location)

end Tree

end RazorVash
