import RakeOutline.Number.Double
import RakeOutline.Text.Listing
import RakeOutline.Text.LowerCase

namespace RakeOutline

inductive Scalar
  | nothing
  | boolean (value : Bool)
  | integer (value : Int)
  | float (value : Double)
  | text (value : String)
  deriving DecidableEq, Repr

inductive Setting
  | scalar (origin : Option String) (value : Scalar)
  | list (origin : Option String) (items : List Setting)
  | table (origin : Option String) (fields : List (String × Setting))
  deriving Repr, Inhabited

def Setting.origin : Setting → Option String
  | .scalar origin _ => origin
  | .list origin _ => origin
  | .table origin _ => origin

def Setting.isTable : Setting → Bool
  | .table .. => true
  | _ => false

inductive SettingsError
  | fileMissing (path : String)
  | fileUnreadable (reason : String)
  | fileSyntax (path : String)
  | keySyntax (expected : String)
  | wrongType (found expected key : String) (origin : Option String)
  | wrongShape (found expected : String)
  | wrongLength (found : Nat) (expected : String)
  | missingField (name : String)
  deriving DecidableEq, Repr

def SettingsError.message : SettingsError → String
  | .fileMissing path => s!"configuration file \"{path}\" not found"
  | .fileUnreadable reason => reason
  | .fileSyntax path => "could not parse " ++ path
  | .keySyntax expected => expected
  | .wrongType found expected key origin =>
    s!"invalid type: {found}, expected {expected}" ++
      (if key.isEmpty then "" else " for key `" ++ key ++ "`") ++
      (match origin with | some file => " in " ++ file | none => "")
  | .wrongShape found expected => s!"invalid type: {found}, expected {expected}"
  | .wrongLength found expected => s!"invalid length {found}, expected {expected}"
  | .missingField name => "missing field `" ++ name ++ "`"

def Setting.found : Setting → String
  | .scalar _ .nothing => "unit value"
  | .scalar _ (.boolean value) => "boolean `" ++ toString value ++ "`"
  | .scalar _ (.integer value) => "64-bit integer `" ++ toString value ++ "`"
  | .scalar _ (.float value) => "floating point `" ++ value.toText ++ "`"
  | .scalar _ (.text value) => "string " ++ listed value
  | .list .. => "sequence"
  | .table .. => "map"

def Setting.foundShape : Setting → String
  | .scalar _ (.integer value) => "integer `" ++ toString value ++ "`"
  | .scalar _ (.float value) => "floating point `" ++ value.toPointedText ++ "`"
  | setting => setting.found

def Setting.mistyped (setting : Setting) (found expected key : String) : SettingsError :=
  .wrongType found expected key setting.origin

/-- A value as a text. Numbers and booleans are written out. -/
def Setting.toText (key : String) (setting : Setting) : Except SettingsError String :=
  match setting with
  | .scalar _ (.text value) => .ok value
  | .scalar _ (.boolean value) => .ok (toString value)
  | .scalar _ (.integer value) => .ok (toString value)
  | .scalar _ (.float value) => .ok value.toText
  | _ => .error (setting.mistyped setting.found "a string" key)

/-- A value as a truth value. A number is true if it is not zero, and some words are known. -/
def Setting.toBool (key : String) (setting : Setting) : Except SettingsError Bool :=
  match setting with
  | .scalar _ (.boolean value) => .ok value
  | .scalar _ (.integer value) => .ok (value != 0)
  | .scalar _ (.float value) => .ok (!value.isZero)
  | .scalar _ (.text value) =>
    let word := lowerText value
    if ["1", "true", "on", "yes"].contains word then .ok true
    else if ["0", "false", "off", "no"].contains word then .ok false
    else .error (setting.mistyped ("string " ++ listed word) "a boolean" key)
  | _ => .error (setting.mistyped setting.found "a boolean" key)

/-- Numbers of 64 bits with a sign lie below this and not below its negative. -/
def signedLimit : Int :=
  Nat.pow 2 63

def maxUnsigned : Nat :=
  Nat.pow 2 64 - 1

/-- A number of 64 bits in decimal digits, after a plus sign or none. -/
def readUnsigned? (text : String) : Option Nat :=
  let digits := match text.toList with
    | '+' :: rest => rest
    | rest => rest
  (natOfDigits? 10 digits).filter (· ≤ maxUnsigned)

/-- A value as a number that is not negative. Floats are rounded, and some words are known. -/
def Setting.toNat (key : String) (setting : Setting) : Except SettingsError Nat :=
  match setting with
  | .scalar _ (.boolean value) => .ok value.toNat
  | .scalar _ (.integer value) =>
    if 0 ≤ value then .ok value.toNat
    else .error (setting.mistyped setting.found "an unsigned 64 bit or less integer" key)
  | .scalar _ (.float value) => .ok (value.roundTo maxUnsigned)
  | .scalar _ (.text value) =>
    let word := lowerText value
    if ["true", "on", "yes"].contains word then .ok 1
    else if ["false", "off", "no"].contains word then .ok 0
    else match readUnsigned? value with
      | some n => .ok n
      | none => .error (setting.mistyped setting.found "an integer" key)
  | _ => .error (setting.mistyped setting.found "an integer" key)

/-- A list of texts. The key of an item is that of the list with the place of the item. -/
def Setting.toTexts (key : String) (setting : Setting) : Except SettingsError (List String) :=
  match setting with
  | .list _ items =>
    (items.zipIdx).mapM fun (item, i) => item.toText (key ++ "[" ++ toString i ++ "]")
  | _ => .error (.wrongShape setting.foundShape "a sequence")

end RakeOutline
