import RakeOutline.Report.Format
import RakeOutline.Report.Listing
import RakeOutline.Settings.Basic

namespace RakeOutline

inductive ProcessingError
  | fileNotFound (path : String)
  | unreadable (path : String) (error : ReadError)
  | spec (error : SpecError)
  | format (error : FormatError)
  | settings (error : SettingsError)
  deriving DecidableEq, Repr

def ProcessingError.message : ProcessingError → String
  | .fileNotFound path => "File not found: " ++ path
  | .unreadable path error => s!"IO error reading {path}: {error.reason}"
  | .spec error => error.message
  | .format error => error.message
  | .settings error => "Configuration error: " ++ error.message

def formatTokens (tokens : List Token) (format : OutputFormat) : Except SpecError String :=
  match format with
  | .simple => .ok (listTokens tokens)
  | .json => .ok (tokensJson tokens)
  | other => .error (.unsupported ⟨.token, other⟩)

/-- Shows a source as the specification says. Only a tree adds to the tally. -/
def processSource (settings : Settings) (spec : ProcessingSpec) (file source : String)
    (tally : Tally) : Except ProcessingError String × Tally :=
  match spec.stage with
  | .token => ((formatTokens (lex source) spec.format).mapError .spec, tally)
  | .tree =>
    let (document, tally) := scanSource file source settings.scan tally
    let registry := FormatRegistry.withLabelWidth settings.output.labelWidth
    ((registry.render document spec.format.name).mapError .format, tally)

def processFile (read : ReadFile) (settings : Settings) (spec : ProcessingSpec) (path : String)
    (tally : Tally) : Except ProcessingError String × Tally :=
  match readText read path with
  | .ok source => processSource settings spec path source tally
  | .error .notFound => (.error (.fileNotFound path), tally)
  | .error error => (.error (.unreadable path error), tally)

end RakeOutline
