import RakeOutline.Report.Json
import RakeOutline.Report.Record
import RakeOutline.Report.Tree
import RakeOutline.Report.Yaml

namespace RakeOutline

structure Formatter where
  name : String
  description : String
  render : Document → String

def Formatter.tree (width : Nat) : Formatter :=
  ⟨"treeviz", "Visual tree of namespaces, tasks and references", (·.tree width)⟩

def Formatter.json : Formatter :=
  ⟨"json", "Nested JSON records", (·.record.data.json)⟩

def Formatter.yaml : Formatter :=
  ⟨"yaml", "Nested YAML records", (·.record.data.yaml)⟩

/-- Formats in the order of their names, which all differ. -/
abbrev FormatRegistry := List Formatter

inductive FormatError
  | notFound (name : String)
  deriving DecidableEq, Repr

def FormatError.message : FormatError → String
  | .notFound name => s!"Format '{name}' not found"

/-- Adds a format in place of one with the same name. -/
def FormatRegistry.register (formatter : Formatter) : FormatRegistry → FormatRegistry
  | [] => [formatter]
  | first :: rest =>
    if formatter.name = first.name then formatter :: rest
    else if formatter.name < first.name then formatter :: first :: rest
    else first :: FormatRegistry.register formatter rest

def FormatRegistry.withLabelWidth (width : Nat) : FormatRegistry :=
  [Formatter.tree width, Formatter.json, Formatter.yaml].foldl
    (fun registry formatter => registry.register formatter) []

def FormatRegistry.default : FormatRegistry :=
  .withLabelWidth defaultLabelWidth

def FormatRegistry.get? (registry : FormatRegistry) (name : String) : Option Formatter :=
  registry.find? fun formatter => formatter.name == name

def FormatRegistry.names (registry : FormatRegistry) : List String :=
  registry.map Formatter.name

def FormatRegistry.descriptions (registry : FormatRegistry) : List (String × String) :=
  registry.map fun formatter => (formatter.name, formatter.description)

def FormatRegistry.render (registry : FormatRegistry) (document : Document) (name : String) :
    Except FormatError String :=
  match registry.get? name with
  | some formatter => .ok (formatter.render document)
  | none => .error (.notFound name)

end RakeOutline
