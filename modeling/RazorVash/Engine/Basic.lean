import RazorVash.Workspace.Basic

/-!
The engine that compiles and renders templates. It is no part of this program: whatever has these
operations will do, and each of them may fail with a message of its own. A site keeps what is
installed in the engine and what was asked of it, in order.
-/
namespace RazorVash

structure CompileOptions where
  modelName : Text := "Model".toList
  helpersName : Text := defaultHelpersName
  debug : Bool := false
  debugParser : Bool := false
deriving DecidableEq, Repr

namespace CompileOptions

def ofFields (fields : Json.Members) : Except Invalid CompileOptions :=
  let defaults : CompileOptions := {}
  let text (name : String) (default : Text) :=
    Checked.check name default Checked.readString (fields.find? name.toList)
  let truth (name : String) (default : Bool) :=
    Checked.check name default Checked.readBool (fields.find? name.toList)
  let modelName := text "model_name" defaults.modelName
  let helpersName := text "helpers_name" defaults.helpersName
  let debug := truth "debug" defaults.debug
  let debugParser := truth "debug_parser" defaults.debugParser
  match modelName.errors ++ helpersName.errors ++ debug.errors ++ debugParser.errors with
  | [] => .ok {
      modelName := modelName.value, helpersName := helpersName.value
      debug := debug.value, debugParser := debugParser.value }
  | errors => .error ⟨"CompileOptions".toList, errors⟩

/-- Debugging is on if either the settings or the caller ask for it. -/
def ofSettings (settings : Settings) (debug : Bool) : CompileOptions where
  modelName := settings.modelName
  helpersName := settings.helpersName
  debug := debug || settings.debug
  debugParser := debug || settings.debug

def fields (options : CompileOptions) : Json.Members :=
  [("model_name".toList, .string options.modelName),
    ("helpers_name".toList, .string options.helpersName),
    ("debug".toList, .bool options.debug),
    ("debug_parser".toList, .bool options.debugParser)]

end CompileOptions

structure Engine (Template : Type) where
  compile : Text → CompileOptions → Except Text Template
  compileHelper : Text → CompileOptions → Except Text Unit
  /-- A template from its client form. -/
  load : Json → Except Text Template
  clientForm : Template → Json
  render : Template → (model : Json) → Except Text Json

inductive Request (Template : Type)
  | compile (text : Text) (options : CompileOptions)
  | compileHelper (text : Text) (options : CompileOptions)
  | load (clientForm : Json)
  | install (name : Text) (template : Template)

structure Site (Template : Type) where
  workspace : Workspace
  engine : Engine Template
  installed : Entries Template
  requests : List (Request Template)

namespace Site
variable {Template α : Type}

def inWorkspace (job : Job Workspace α) : Job (Site Template) α :=
  Job.onPart (·.workspace) (fun site workspace => { site with workspace }) job

def request (request : Request Template) : Job (Site Template) Unit :=
  modify fun site => { site with requests := site.requests ++ [request] }

def ofEngine (result : Except Text α) : Job (Site Template) α :=
  Job.ofExcept .engine result

def compile (text : Text) (options : CompileOptions) : Job (Site Template) Template := do
  request (.compile text options)
  ofEngine ((← get).engine.compile text options)

def compileHelper (text : Text) (options : CompileOptions) : Job (Site Template) Unit := do
  request (.compileHelper text options)
  ofEngine ((← get).engine.compileHelper text options)

def load (clientForm : Json) : Job (Site Template) Template := do
  request (.load clientForm)
  ofEngine ((← get).engine.load clientForm)

def install (name : Text) (template : Template) : Job (Site Template) Unit := do
  request (.install name template)
  modify fun site => { site with installed := site.installed.put name template }

def render (template : Template) (model : Json) : Job (Site Template) Json := do
  ofEngine ((← get).engine.render template model)

end Site

end RazorVash
