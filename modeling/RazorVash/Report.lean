import RazorVash.Failure

namespace RazorVash

inductive ErrorKind
  | general
  | rewrite
  | malformedBlock
  | loopSyntax
  | templateCache
  | config
  | missingVariable
  | malformedSyntax
  | warning
deriving DecidableEq, Repr

def ErrorKind.isA (kind family : ErrorKind) : Bool :=
  kind = family ||
    match kind, family with
    | .rewrite, .general | .malformedBlock, .general | .loopSyntax, .general
    | .templateCache, .general | .config, .general => true
    | .malformedBlock, .rewrite | .loopSyntax, .rewrite => true
    | .loopSyntax, .malformedSyntax => true
    | .missingVariable, .warning => true
    | _, _ => false

/-- A missing excerpt is one that was never set; details are missing only where an error has none
at all. -/
structure Report where
  kind : ErrorKind
  text : Text
  excerpt : Option Text := none
  details : Option Json := some (.object [])

namespace Report

def textOrNull : Option Text → Json
  | none => .null
  | some text => .string text

def general (text : Text) (details : Json) : Report where
  kind := .general
  text
  details := if details.isNothing then some (.object []) else some details

def rewrite (kind : ErrorKind) (text : Text) (excerpt : Option Text) : Report where
  kind
  text
  excerpt
  details := some (.object [("excerpt".toList, textOrNull excerpt)])

def loopSyntax (reason excerpt : Text) : Report :=
  rewrite .loopSyntax (RewriteError.headerMessage reason excerpt) (some excerpt)

def templateCache (path reason : Text) : Report where
  kind := .templateCache
  text := "Template cache '".toList ++ path ++ "' is unusable: ".toList ++ reason
  details := some (.object [("cache_path".toList, .string path), ("error".toList, .string reason)])

def config (text : Text) (field : Option Text) : Report where
  kind := .config
  text
  details :=
    match field with
    | none | some [] => some (.object [])
    | some field => some (.object [("field".toList, .string field)])

def missingVariable (text : Text) : Report where
  kind := .missingVariable
  text
  details := none

def ofRewriteError (e : RewriteError) : Report :=
  match e with
  | .block _ => rewrite .malformedBlock e.message (some e.excerpt)
  | .header fault source => loopSyntax fault.reason source.excerpt

def ofFailure? (failure : Failure) : Option Report :=
  match failure with
  | .rewrite e => some (ofRewriteError e)
  | .unusableCache path fault => some (templateCache path.render fault.reason)
  | .nothingToNormalize => some (config failure.message (some "tmpl_path".toList))
  | _ => none

end Report

end RazorVash
