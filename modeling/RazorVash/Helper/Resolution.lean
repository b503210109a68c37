import RazorVash.Entries
import RazorVash.Helper.Packaged
import RazorVash.Naming

namespace RazorVash

inductive Helper
  | packaged (helper : PackagedHelper)
  | file (path : Path)
deriving DecidableEq, Repr

namespace Helper

def shownPath : Helper → Text
  | packaged helper => helper.shownPath
  | file path => path.render

def name (helper : Helper) : Text := Naming.fileName helper.shownPath false

def named (helper : Helper) : Text × Helper := (helper.name, helper)

def packagedEntries : Entries Helper := PackagedHelper.all.map fun helper => (packaged helper).named

/-- The packaged helpers with the given ones put in by name, the last one of a name winning. -/
def resolve (custom : List Path) : List Helper :=
  (packagedEntries.putAll (custom.map fun path => (file path).named)).map Prod.snd

end Helper

end RazorVash
