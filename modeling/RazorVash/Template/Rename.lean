import RazorVash.Text.Basic

namespace RazorVash.Template

/-- An old token with the one that takes its place. -/
abbrev Rename := Text × Text

def standardRenames (helpersName : Text) : List Rename :=
  let blankTest := helpersName ++ ".StringIsNullOrWhiteSpace".toList
  let emptyTest := helpersName ++ ".StringIsNullOrEmpty".toList
  [("Html.Raw".toList, "Html.raw".toList),
    (".Length".toList, ".length".toList),
    (".Count".toList, ".length".toList),
    (".Any()".toList, ".length>0".toList),
    ("string.IsNullOrWhiteSpace".toList, blankTest),
    ("String.IsNullOrWhiteSpace".toList, blankTest),
    ("string.IsNullOrEmpty".toList, emptyTest),
    ("String.IsNullOrEmpty".toList, emptyTest)]

def applyRenames (renames : List Rename) (text : Text) : Text :=
  renames.foldl (fun text (old, new) => Text.replaceAll old new text) text

end RazorVash.Template
