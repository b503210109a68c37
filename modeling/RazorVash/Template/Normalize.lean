import RazorVash.Loop.Conversion
import RazorVash.Template.Options
import RazorVash.Template.Rename
import RazorVash.Template.Span

namespace RazorVash.Template

def commentStart : Text := ['@', '*']

def commentEnd : Text := ['*', '@']

/-- A mark given for one call, unless it is missing or empty, and the one of the options else. -/
def markOr (given : Option Text) (configured : Text) : Text :=
  match given with
  | none | some [] => configured
  | some mark => mark

def normalize (options : NormalizerOptions) (text : Text) (ignoreStart ignoreEnd : Option Text) :
    Noted Text :=
  -- first of all, so that nothing inside is taken for live markup
  let live := deleteSpans (markOr ignoreStart options.ignoreStart)
    (markOr ignoreEnd options.ignoreEnd) text
  let uncommented := deleteSpans commentStart commentEnd live
  let renamed := applyRenames (standardRenames options.helpersName) uncommented
  Loop.convert options.helpersName .standard renamed

end RazorVash.Template
