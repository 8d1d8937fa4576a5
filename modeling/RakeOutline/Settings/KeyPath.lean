import RakeOutline.Settings.Value

namespace RakeOutline

inductive KeyStep
  | child (name : String)
  | item (index : Int)
  deriving DecidableEq, Repr

structure KeyPath where
  first : String
  rest : List KeyStep
  deriving DecidableEq, Repr

def isKeyChar (c : Char) : Bool :=
  c.isAlphanum || c == '_' || c == '-' || c == ' '

def readName? (text : List Char) : Option (String × List Char) :=
  let name := text.takeWhile isKeyChar
  if name.isEmpty then none else some (String.ofList name, text.dropWhile isKeyChar)

def isSpaceOrTab (c : Char) : Bool :=
  c == ' ' || c == '\t'

/-- The index after an opening bracket, to the closing one. The error names what is missing. -/
def readIndex (text : List Char) : Except String (Int × List Char) :=
  let start := text.dropWhile isSpaceOrTab
  let negative := start.head? == some '-'
  let start := if negative then start.tail else start
  let digits := start.takeWhile Char.isDigit
  let n := digitsToNat digits
  let index : Int := if negative then -(n : Int) else n
  if digits.isEmpty then .error "Digit"
  else if index < -signedLimit ∨ signedLimit ≤ index then .error "Map on Result"
  else match (start.dropWhile Char.isDigit).dropWhile isSpaceOrTab with
    | ']' :: rest => .ok (index, rest)
    | _ => .error "Char"

def readStep (text : List Char) : Except String (KeyStep × List Char) :=
  match text with
  | '.' :: rest =>
    match readName? rest with
    | some (name, rest) => .ok (.child name, rest)
    | none => .error "Char"
  | '[' :: rest => (readIndex rest).map fun (index, rest) => (.item index, rest)
  | _ => .error "Char"

/-- The steps of a path; there are not more of them than characters. -/
def readSteps : Nat → List Char → Except String (List KeyStep)
  | _, [] => .ok []
  | 0, _ => .error "Char"
  | fuel + 1, text => do
    let (step, rest) ← readStep text
    return step :: (← readSteps fuel rest)

def KeyPath.parse (text : String) : Except SettingsError KeyPath :=
  match readName? text.toList with
  | none => .error (.keySyntax "IsA")
  | some (name, rest) =>
    match readSteps rest.length rest with
    | .ok steps => .ok ⟨name, steps⟩
    | .error expected => .error (.keySyntax expected)

def Setting.fields : Setting → List (String × Setting)
  | .table _ fields => fields
  | _ => []

def Setting.items : Setting → List Setting
  | .list _ items => items
  | _ => []

def Setting.field? (setting : Setting) (name : String) : Option Setting :=
  (setting.fields.find? (·.1 == name)).map Prod.snd

/-- The value as a table that keeps its origin, or an empty table in its place. -/
def Setting.asTable (setting : Setting) : Setting :=
  if setting.isTable then setting else .table none []

def Setting.asList (setting : Setting) : Setting :=
  match setting with
  | .list .. => setting
  | _ => .list none []

def replaceField (name : String) (value : Setting) :
    List (String × Setting) → List (String × Setting)
  | [] => [(name, value)]
  | field :: rest =>
    if field.1 = name then (name, value) :: rest else field :: replaceField name value rest

def Setting.putField (setting : Setting) (name : String) (value : Setting) : Setting :=
  .table setting.asTable.origin (replaceField name value setting.asTable.fields)

/-- The place that an index stands for; a negative one counts from the end. -/
def placeOf (index : Int) (length : Nat) : Nat :=
  if 0 ≤ index then index.toNat else length - (-index).toNat

/-- Changes the item at an index. A list that is too short is filled up. -/
def Setting.modifyItem (setting : Setting) (index : Int) (change : Setting → Setting) : Setting :=
  let items := setting.asList.items
  let place := placeOf index items.length
  let items := items ++ List.replicate (place + 1 - items.length) (.scalar none .nothing)
  .list setting.asList.origin (items.modify place change)

mutual

/-- Sets the field of a table. A table is merged into what is there, field by field, and any other
value replaces it; names are kept in lower case. -/
def Setting.setField (setting : Setting) (name : String) (value : Setting) : Setting :=
  match value with
  | .table _ fields =>
    let target := (setting.asTable.field? (lowerText name)).getD (.table none [])
    setting.putField (lowerText name) (target.merge fields)
  | .scalar origin content => setting.putField (lowerText name) (.scalar origin content)
  | .list origin items => setting.putField (lowerText name) (.list origin items)

def Setting.merge (setting : Setting) (fields : List (String × Setting)) : Setting :=
  match fields with
  | [] => setting
  | (name, value) :: rest => (setting.setField name value).merge rest

end

/-- Sets a value at the end of a path below a setting. What is not of the right shape on the way is
replaced. -/
def Setting.setAt (setting value : Setting) (steps : List KeyStep) : Setting :=
  match steps with
  | [] => value
  | [.child name] => setting.setField name value
  | .child name :: rest =>
    let inner := (setting.asTable.field? (lowerText name)).getD (.scalar none .nothing)
    setting.putField (lowerText name) (inner.setAt value rest)
  | .item index :: rest => setting.modifyItem index fun inner => inner.setAt value rest

def Setting.set (setting : Setting) (path : KeyPath) (value : Setting) : Setting :=
  setting.setAt value (.child path.first :: path.rest)

end RakeOutline
