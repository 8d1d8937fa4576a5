namespace RakeOutline

inductive Stage
  | token
  | tree
  deriving DecidableEq, Repr

inductive OutputFormat
  | simple
  | json
  | treeviz
  | yaml
  deriving DecidableEq, Repr

def Stage.name : Stage → String
  | .token => "token"
  | .tree => "tree"

def OutputFormat.name : OutputFormat → String
  | .simple => "simple"
  | .json => "json"
  | .treeviz => "treeviz"
  | .yaml => "yaml"

def Stage.ofName? (name : String) : Option Stage :=
  [Stage.token, .tree].find? fun stage => stage.name == name

def OutputFormat.ofName? (name : String) : Option OutputFormat :=
  [OutputFormat.simple, .json, .treeviz, .yaml].find? fun format => format.name == name

structure ProcessingSpec where
  stage : Stage
  format : OutputFormat
  deriving DecidableEq, Repr

def ProcessingSpec.toText (spec : ProcessingSpec) : String :=
  spec.stage.name ++ "-" ++ spec.format.name

def ProcessingSpec.available : List ProcessingSpec :=
  [⟨.token, .simple⟩, ⟨.token, .json⟩, ⟨.tree, .treeviz⟩, ⟨.tree, .json⟩, ⟨.tree, .yaml⟩]

inductive SpecError
  | invalidFormat (text : String)
  | invalidStage (stage : String)
  | invalidFormatType (format : String)
  | unsupported (spec : ProcessingSpec)
  deriving DecidableEq, Repr

def SpecError.message : SpecError → String
  | .invalidFormat text => "Invalid format: " ++ text
  | .invalidStage stage => "Invalid stage: " ++ stage
  | .invalidFormatType format => "Invalid format type: " ++ format
  | .unsupported spec =>
    s!"Invalid format type: Format '{spec.format.name}' not supported for {spec.stage.name} stage"

/-- Reads a stage and a format around the first hyphen. -/
def ProcessingSpec.parse (text : String) : Except SpecError ProcessingSpec :=
  let chars := text.toList
  if !chars.contains '-' then .error (.invalidFormat text)
  else
    let stageName := String.ofList (chars.takeWhile (· != '-'))
    let formatName := String.ofList (chars.dropWhile (· != '-')).tail
    match Stage.ofName? stageName, OutputFormat.ofName? formatName with
    | none, _ => .error (.invalidStage stageName)
    | some _, none => .error (.invalidFormatType formatName)
    | some stage, some format =>
      if ProcessingSpec.available.contains ⟨stage, format⟩ then .ok ⟨stage, format⟩
      else .error (.unsupported ⟨stage, format⟩)

end RakeOutline
