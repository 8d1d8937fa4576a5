import RakeOutline.Command.Argument
import RakeOutline.Process.Basic

namespace RakeOutline

structure Outcome where
  code : Nat := 0
  output : String := ""
  messages : String := ""
  deriving DecidableEq, Repr

def versionText : String :=
  "rakedoc 0.1.0\n"

def helpText : String :=
  "Extracts tasks, namespaces and dependencies from Rakefiles\n\n" ++
  "Usage: rakedoc [OPTIONS] [paths]...\n\n" ++
  "Arguments:\n" ++
  "  [paths]...  Rakefiles to scan\n\n" ++
  "Options:\n" ++
  "  -f, --format <format>  " ++
  "Output format (e.g., 'tree-treeviz', 'tree-json', 'token-simple')\n" ++
  "  -c, --config <config>  Configuration file layered over the defaults\n" ++
  "      --force            Scan files even if their name is not a Rakefile name\n" ++
  "      --stats            Print file, namespace and task counts to stderr\n" ++
  "      --list-formats     List available output formats\n" ++
  "  -h, --help             Print help\n" ++
  "  -V, --version          Print version\n"

def padRight (width : Nat) (text : String) : String :=
  text ++ String.ofList (List.replicate (width - text.length) ' ')

def formatsText : String :=
  "Available formats:\n\n" ++
  String.join (ProcessingSpec.available.map fun spec => "  " ++ spec.toText ++ "\n") ++
  "\nTree formats:\n\n" ++
  String.join (FormatRegistry.default.descriptions.map fun (name, description) =>
    "  " ++ padRight 10 name ++ " " ++ description ++ "\n")

def Request.layers (request : Request) : List Layer :=
  request.config.toList.map .file ++
  request.format.toList.map fun format => .value "output.format" (.scalar none (.text format))

def Request.accepts (request : Request) (path : String) : Bool :=
  request.force || isRakefile path

def skipMessage (path : String) : String :=
  s!"WARN rakedoc: skipping, not a Rakefile (use --force to scan it) path={path}\n"

def Outcome.fail (outcome : Outcome) (error : ProcessingError) : Outcome :=
  { outcome with code := 1, messages := outcome.messages ++ s!"Error: {error.message}\n" }

/-- Shows the paths in order. What was shown before an error stays; the counts come at the end. -/
def Request.showPaths (request : Request) (read : ReadFile) (settings : Settings)
    (spec : ProcessingSpec) (outcome : Outcome) (tally : Tally) : List String → Outcome
  | [] =>
    if request.stats then { outcome with messages := outcome.messages ++ tally.summary }
    else outcome
  | path :: rest =>
    if request.accepts path then
      match processFile read settings spec path tally with
      | (.ok text, tally) =>
        request.showPaths read settings spec { outcome with output := outcome.output ++ text }
          tally rest
      | (.error error, _) => outcome.fail error
    else
      request.showPaths read settings spec
        { outcome with messages := outcome.messages ++ skipMessage path } tally rest

def Request.run (request : Request) (read : ReadFile) : Outcome :=
  match Settings.load read request.layers with
  | .error error => Outcome.fail {} (.settings error)
  | .ok settings =>
    match settings.spec with
    | .error error => Outcome.fail {} (.spec error)
    | .ok spec => request.showPaths read settings spec {} {} request.paths

def usageText (error : UsageError) : String :=
  s!"error: {error.message}\n\n" ++
  "Usage: rakedoc [OPTIONS] [paths]...\n\nFor more information, try '--help'.\n"

def runCommand (read : ReadFile) (arguments : List String) : Outcome :=
  match Invocation.parse arguments with
  | .error error => ⟨2, "", usageText error⟩
  | .ok .help => ⟨0, helpText, ""⟩
  | .ok .version => ⟨0, versionText, ""⟩
  | .ok .listFormats => ⟨0, formatsText, ""⟩
  | .ok (.scan request) => request.run read

def pathsToRead (arguments : List String) : List String :=
  match Invocation.parse arguments with
  | .ok (.scan request) => request.config.toList.flatMap settingsPaths ++ request.paths
  | _ => []

end RakeOutline
