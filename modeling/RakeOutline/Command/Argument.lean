namespace RakeOutline

structure Request where
  paths : List String := []
  format : Option String := none
  config : Option String := none
  force : Bool := false
  stats : Bool := false
  listFormats : Bool := false
  deriving DecidableEq, Repr

inductive UsageError
  | unknownOption (name : String)
  | missingValue (name : String)
  | unexpectedValue (name : String)
  | repeated (name : String)
  | missingPath
  deriving DecidableEq, Repr

def UsageError.message : UsageError → String
  | .unknownOption name => s!"unexpected argument '{name}' found"
  | .missingValue name => s!"a value is required for '{name}' but none was supplied"
  | .unexpectedValue name => s!"unexpected value for '{name}' found; no more were expected"
  | .repeated name => s!"the argument '{name}' cannot be used multiple times"
  | .missingPath => "the following required arguments were not provided:\n  <paths>..."

inductive Invocation
  | help
  | version
  | listFormats
  | scan (request : Request)
  deriving DecidableEq, Repr

inductive ValueOption
  | format
  | config
  deriving DecidableEq, Repr

inductive Switch
  | force
  | stats
  | listFormats
  deriving DecidableEq, Repr

/-- An argument that is an option. Long options may have a value after an equals sign, short ones
right after their letter. -/
inductive OptionArgument
  | value (option : ValueOption) (attached : Option String)
  | switch (switch : Switch)
  | help
  | version
  deriving DecidableEq, Repr

def OptionArgument.bare (name : String) (attached : Option String) (option : OptionArgument) :
    Except UsageError OptionArgument :=
  if attached.isSome then .error (.unexpectedValue name) else .ok option

def readLongOption (text : List Char) : Except UsageError OptionArgument :=
  let name := "--" ++ String.ofList (text.takeWhile (· != '='))
  let attached := match text.dropWhile (· != '=') with
    | _ :: value => some (String.ofList value)
    | [] => none
  match name with
  | "--format" => .ok (.value .format attached)
  | "--config" => .ok (.value .config attached)
  | "--force" => OptionArgument.bare name attached (.switch .force)
  | "--stats" => OptionArgument.bare name attached (.switch .stats)
  | "--list-formats" => OptionArgument.bare name attached (.switch .listFormats)
  | "--help" => OptionArgument.bare name attached .help
  | "--version" => OptionArgument.bare name attached .version
  | _ => .error (.unknownOption name)

def attachedValue : List Char → Option String
  | [] => none
  | '=' :: value => some (String.ofList value)
  | value => some (String.ofList value)

def readShortOption (letter : Char) (rest : List Char) : Except UsageError OptionArgument :=
  match letter with
  | 'f' => .ok (.value .format (attachedValue rest))
  | 'c' => .ok (.value .config (attachedValue rest))
  | 'h' => .ok .help
  | 'V' => .ok .version
  | _ => .error (.unknownOption ("-" ++ letter.toString))

/-- An option, or nothing if the argument is a value or a path. A hyphen alone is a path. -/
def readOption? (argument : String) : Option (Except UsageError OptionArgument) :=
  match argument.toList with
  | '-' :: '-' :: text => some (readLongOption text)
  | '-' :: letter :: rest => some (readShortOption letter rest)
  | _ => none

def ValueOption.name : ValueOption → String
  | .format => "--format <format>"
  | .config => "--config <config>"

def Switch.name : Switch → String
  | .force => "--force"
  | .stats => "--stats"
  | .listFormats => "--list-formats"

def Request.valueOf (request : Request) : ValueOption → Option String
  | .format => request.format
  | .config => request.config

def Request.isOn (request : Request) : Switch → Bool
  | .force => request.force
  | .stats => request.stats
  | .listFormats => request.listFormats

def Request.setValue (request : Request) (option : ValueOption) (value : String) :
    Except UsageError Request :=
  if (request.valueOf option).isSome then .error (.repeated option.name)
  else match option with
    | .format => .ok { request with format := some value }
    | .config => .ok { request with config := some value }

def Request.turnOn (request : Request) (switch : Switch) : Except UsageError Request :=
  if request.isOn switch then .error (.repeated switch.name)
  else match switch with
    | .force => .ok { request with force := true }
    | .stats => .ok { request with stats := true }
    | .listFormats => .ok { request with listFormats := true }

def Request.addPaths (request : Request) (paths : List String) : Request :=
  { request with paths := request.paths ++ paths }

def Request.invocation (request : Request) : Except UsageError Invocation :=
  if request.listFormats then .ok .listFormats
  else if request.paths.isEmpty then .error .missingPath
  else .ok (.scan request)

/-- Reads arguments from left to right; help and version are given as soon as they are met. -/
def readArguments (request : Request) : List String → Except UsageError Invocation
  | [] => request.invocation
  | "--" :: paths => (request.addPaths paths).invocation
  | argument :: rest =>
    match readOption? argument with
    | none => readArguments (request.addPaths [argument]) rest
    | some (.error error) => .error error
    | some (.ok .help) => .ok .help
    | some (.ok .version) => .ok .version
    | some (.ok (.switch switch)) => do readArguments (← request.turnOn switch) rest
    | some (.ok (.value option (some value))) => do
      readArguments (← request.setValue option value) rest
    | some (.ok (.value option none)) =>
      match rest with
      | [] => .error (.missingValue option.name)
      | value :: rest =>
        if (readOption? value).isSome then .error (.missingValue option.name)
        else do readArguments (← request.setValue option value) rest

def Invocation.parse (arguments : List String) : Except UsageError Invocation :=
  readArguments {} arguments

end RakeOutline
