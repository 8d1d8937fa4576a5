import RakeOutline.Process.Spec
import RakeOutline.Report.Tree
import RakeOutline.Scan.Context
import RakeOutline.Settings.KeyPath
import RakeOutline.Settings.Toml
import RakeOutline.Storage.FileTree

namespace RakeOutline

structure OutputSettings where
  format : String
  labelWidth : Nat
  deriving DecidableEq, Repr

structure Settings where
  scan : ScanOptions
  output : OutputSettings
  deriving DecidableEq, Repr

def Settings.spec (settings : Settings) : Except SpecError ProcessingSpec :=
  ProcessingSpec.parse settings.output.format

inductive Layer
  | file (path : String)
  | optionalFile (path : String)
  | value (key : String) (value : Setting)

def defaultSetting : Setting :=
  .table none
    [("scan", .table none
      [("ignored_constants", .list none [.scalar none (.text "ENV")]),
        ("capture_tokens", .scalar none (.boolean true))]),
     ("output", .table none
      [("format", .scalar none (.text "tree-treeviz")),
        ("label_width", .scalar none (.integer defaultLabelWidth))])]

def subKey (key name : String) : String :=
  key ++ "." ++ name

/-- A field of a section, by its name in a table or by its place in a list. Gives also the key under
which errors report it. -/
def Setting.sectionField? (key name : String) (place : Nat) (setting : Setting) :
    Option (String × Setting) :=
  match setting with
  | .list _ items => items[place]?.map fun item => (key ++ "[" ++ toString place ++ "]", item)
  | _ => (setting.field? name).map fun field => (subKey key name, field)

/-- A section is a table, or a list of its fields in order. -/
def Setting.checkSection (expected : String) (setting : Setting) : Except SettingsError Unit :=
  match setting with
  | .scalar .. => .error (.wrongShape setting.foundShape expected)
  | _ => .ok ()

def Setting.required (key name expected : String) (place : Nat) (setting : Setting) :
    Except SettingsError (String × Setting) :=
  match setting.sectionField? key name place, setting with
  | some field, _ => .ok field
  | none, .list .. => .error (.wrongLength place (expected ++ " with 2 elements"))
  | none, _ => .error (.missingField name)

/-- The options of the scan; what is missing has its default. -/
def Setting.toScanOptions (key : String) (setting : Setting) : Except SettingsError ScanOptions := do
  setting.checkSection "struct ScanOptions"
  let default : ScanOptions := {}
  let ignored ← match setting.sectionField? key "ignored_constants" 0 with
    | some (key, field) => field.toTexts key
    | none => pure default.ignoredConstants
  let capture ← match setting.sectionField? key "capture_tokens" 1 with
    | some (key, field) => field.toBool key
    | none => pure default.captureTokens
  return ⟨ignored, capture⟩

/-- The settings of the output, which must all be there. A field of the wrong type is reported
before one that is missing. -/
def Setting.toOutputSettings (key : String) (setting : Setting) :
    Except SettingsError OutputSettings := do
  let expected := "struct OutputConfig"
  setting.checkSection expected
  let format := setting.required key "format" expected 0
  let width := setting.required key "label_width" expected 1
  match format, width with
  | .error error, .ok (key, field) =>
    discard <| field.toNat key
    throw error
  | .error error, .error _ => throw error
  | .ok (formatKey, field), width =>
    let format ← field.toText formatKey
    let (key, field) ← width
    return ⟨format, ← field.toNat key⟩

def Setting.toSettings (setting : Setting) : Except SettingsError Settings := do
  let sectionOf (name : String) : Except SettingsError Setting :=
    match setting.field? name with
    | some field => .ok field
    | none => .error (.missingField name)
  let scan ← (← sectionOf "scan").toScanOptions "scan"
  let output ← (← sectionOf "output").toOutputSettings "output"
  return ⟨scan, output⟩

/-- Sets what the top level of a file holds. A name that is a path leads to the setting that the
path stands for. -/
def Setting.setTop (setting : Setting) (name : String) (value : Setting) : Setting :=
  match KeyPath.parse name with
  | .ok path => setting.set path value
  | .error _ => setting.setField name value

/-- The name of a file in errors: its path without empty parts and single dots. -/
def originOf (path : String) : String :=
  "/".intercalate (pathParts path)

/-- The files that a path may stand for: itself, or what it names with the extension of settings
files. -/
def settingsPaths (path : String) : List String :=
  if (fileName? path).isSome then [path, dropTail path ++ ".toml"] else [path]

def Setting.addText (setting : Setting) (path text : String) : Except SettingsError Setting :=
  match Toml.parse? (some (originOf path)) text with
  | some fields => .ok (fields.foldl (fun setting field => setting.setTop field.1 field.2) setting)
  | none => .error (.fileSyntax path)

/-- Puts a file over the settings. A file that cannot be read is an error only if it is required. -/
def Setting.addFile (read : ReadFile) (required : Bool) (setting : Setting) (path : String) :
    Except SettingsError Setting :=
  match (settingsPaths path).find? (isFile read) with
  | none => if required then .error (.fileMissing path) else .ok setting
  | some file =>
    match readText read file with
    | .ok text => setting.addText file text
    | .error error => if required then .error (.fileUnreadable error.reason) else .ok setting

/-- Adds the value of a path, in place of an earlier value of the same path. -/
def addOverride (path : KeyPath) (value : Setting) :
    List (KeyPath × Setting) → List (KeyPath × Setting)
  | [] => [(path, value)]
  | entry :: rest =>
    if entry.1 = path then (path, value) :: rest else entry :: addOverride path value rest

def overrides (layers : List Layer) : Except SettingsError (List (KeyPath × Setting)) :=
  layers.foldlM (fun found layer =>
    match layer with
    | .value key value => (KeyPath.parse key).map fun path => addOverride path value found
    | _ => .ok found) []

def Setting.addLayerFile (read : ReadFile) (setting : Setting) (layer : Layer) :
    Except SettingsError Setting :=
  match layer with
  | .file path => setting.addFile read true path
  | .optionalFile path => setting.addFile read false path
  | .value .. => .ok setting

/-- The settings of some layers over the defaults. A bad path is reported before a bad file. -/
def Settings.load (read : ReadFile) (layers : List Layer) : Except SettingsError Settings := do
  let values ← overrides layers
  let setting ← layers.foldlM (·.addLayerFile read ·) defaultSetting
  (values.foldl (fun setting (path, value) => setting.set path value) setting).toSettings

end RakeOutline
