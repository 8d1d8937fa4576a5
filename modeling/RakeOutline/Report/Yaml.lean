import RakeOutline.Report.Data
import RakeOutline.Number.Decimal

namespace RakeOutline

def isBreak (c : Char) : Bool :=
  c == '\n' || c == '\r' || c.toNat == 0x85 || c.toNat == 0x2028 || c.toNat == 0x2029

def isScalarChar (c : Char) : Bool :=
  c == '\n' || (0x20 ≤ c.toNat && c.toNat ≤ 0x7E) ||
    (0xA0 ≤ c.toNat && c.toNat != 0xFEFF && c.toNat != 0xFFFE && c.toNat != 0xFFFF)

def isGap (c : Option Char) : Bool :=
  c.all fun c => c == ' ' || c == '\t' || c.toNat == 0 || isBreak c

/-- Whether some character and the one after it, if any, satisfy `test`. -/
def anyPair (test : Char → Option Char → Bool) : List Char → Bool
  | [] => false
  | c :: rest => test c rest.head? || anyPair test rest

inductive ScalarStyle
  | plain
  | single
  | double
  | literal
  deriving DecidableEq, Repr

/-- Texts that stand for something else when they are written plainly. -/
def isReserved (text : String) : Bool :=
  ["", "~", "null", "Null", "NULL", "true", "True", "TRUE", "false", "False", "FALSE"].contains
    text || isNumeral text

/-- Whether a text holds what has a meaning in a plain scalar. -/
def hasIndicator (text : List Char) : Bool :=
  text.head?.any ("#,[]\x7b\x7d&*!|>\x27\"%@`".toList.contains ·) ||
    (text.head?.any ("?:-".toList.contains ·) && isGap text.tail.head?) ||
    "---".toList.isPrefixOf text || "...".toList.isPrefixOf text ||
    anyPair (fun c next => c == ':' && isGap next) text ||
    anyPair (fun c next => isGap (some c) && next == some '#') text

def isMarginal (c : Char) : Bool :=
  c == ' ' || isBreak c

def hasSpaceBeforeBreak (text : List Char) : Bool :=
  anyPair (fun c next => c == ' ' && next.any isBreak) text

def hasSpaceAfterBreak (text : List Char) : Bool :=
  anyPair (fun c next => isBreak c && next == some ' ') text

def allowsPlain (text : List Char) : Bool :=
  !(text.head?.any isMarginal || text.getLast?.any isMarginal || text.any isBreak ||
    !text.all isScalarChar || hasIndicator text)

def allowsSingle (text : List Char) : Bool :=
  text.all isScalarChar && !hasSpaceAfterBreak text && !hasSpaceBeforeBreak text

def allowsLiteral (text : List Char) : Bool :=
  text.all isScalarChar && !hasSpaceBeforeBreak text && text.getLast? != some ' '

/-- Text of several lines is written as a literal block and other text plainly, unless a style
does not allow the text or plain writing would change its meaning. -/
def scalarStyle (text : String) : ScalarStyle :=
  let chars := text.toList
  if chars.contains '\n' then if allowsLiteral chars then .literal else .double
  else if allowsPlain chars && !isReserved text then .plain
  else if allowsSingle chars then .single
  else .double

def upperHex (width n : Nat) : List Char :=
  let digits := (Nat.toDigits 16 n).map Char.toUpper
  List.replicate (width - digits.length) '0' ++ digits

def doubleQuotedChar (c : Char) : List Char :=
  if c == '"' || c == '\\' || isBreak c || !isScalarChar c then
    '\\' :: match c.toNat with
      | 0x00 => ['0']
      | 0x07 => ['a']
      | 0x08 => ['b']
      | 0x09 => ['t']
      | 0x0A => ['n']
      | 0x0B => ['v']
      | 0x0C => ['f']
      | 0x0D => ['r']
      | 0x1B => ['e']
      | 0x22 => ['"']
      | 0x5C => ['\\']
      | 0x85 => ['N']
      | 0xA0 => ['_']
      | 0x2028 => ['L']
      | 0x2029 => ['P']
      | n =>
        if n ≤ 0xFF then 'x' :: upperHex 2 n
        else if n ≤ 0xFFFF then 'u' :: upperHex 4 n
        else 'U' :: upperHex 8 n
  else [c]

def spaces (n : Nat) : List Char :=
  List.replicate n ' '

/-- Puts the margin before what follows a line break, as the first character of its line and
before the end. -/
def singleQuotedFrom (indent : Nat) (afterBreak : Bool) : List Char → List Char
  | [] => if afterBreak then spaces indent else []
  | c :: rest =>
    if isBreak c then c :: singleQuotedFrom indent true rest
    else
      (if afterBreak then spaces indent else []) ++ (if c == '\x27' then [c, c] else [c]) ++
        singleQuotedFrom indent false rest

def literalFrom (indent : Nat) (lineStart : Bool) : List Char → List Char
  | [] => []
  | c :: rest =>
    if isBreak c then c :: literalFrom indent true rest
    else (if lineStart then spaces indent else []) ++ c :: literalFrom indent false rest

/-- What follows the bar of a literal block: the indentation, if the text begins with white space,
and what becomes of the line breaks at its end. -/
def literalHints (text : List Char) : List Char :=
  let indentation := if text.head?.any isMarginal then ['2'] else []
  let chomping := match text.reverse with
    | [] => ['-']
    | [c] => if isBreak c then ['+'] else ['-']
    | c :: d :: _ => if !isBreak c then ['-'] else if isBreak d then ['+'] else []
  indentation ++ chomping

/-- A text as a scalar with the end of its last line; `indent` is the margin of its later lines. -/
def yamlScalar (indent : Nat) (text : String) : String :=
  let chars := text.toList
  match scalarStyle text with
  | .plain => text ++ "\n"
  | .single => String.ofList ('\x27' :: singleQuotedFrom indent false chars ++ ['\x27', '\n'])
  | .double => String.ofList ('"' :: chars.flatMap doubleQuotedChar ++ ['"', '\n'])
  | .literal =>
    let ending := if chars.getLast?.any isBreak then [] else ['\n']
    String.ofList ('|' :: literalHints chars ++ '\n' :: literalFrom indent true chars ++ ending)

mutual

/-- A value after the name of its field, with the line break before or after it. -/
def Data.yamlValue (indent : Nat) : Data → String
  | .text value => " " ++ yamlScalar (indent + 2) value
  | .number value => " " ++ toString value ++ "\n"
  | .flag value => " " ++ (if value then "true" else "false") ++ "\n"
  | .list items => if items.isEmpty then " []\n" else "\n" ++ yamlItems indent items
  | .record fields =>
    if fields.isEmpty then " \x7b\x7d\n" else "\n" ++ yamlFields (indent + 2) false fields

def yamlItems (indent : Nat) : List Data → String
  | [] => ""
  | item :: rest =>
    String.ofList (spaces indent) ++ "-" ++ item.yamlItem indent ++ yamlItems indent rest

/-- A value after the hyphen of a list item. The first field stands on the line of the hyphen. -/
def Data.yamlItem (indent : Nat) : Data → String
  | .text value => " " ++ yamlScalar (indent + 2) value
  | .number value => " " ++ toString value ++ "\n"
  | .flag value => " " ++ (if value then "true" else "false") ++ "\n"
  | .list items => if items.isEmpty then " []\n" else "\n" ++ yamlItems (indent + 2) items
  | .record fields =>
    if fields.isEmpty then " \x7b\x7d\n" else " " ++ yamlFields (indent + 2) true fields

/-- The fields of a record, one below the other; `inline` tells that the first one continues a
line. -/
def yamlFields (indent : Nat) (inline : Bool) : List (String × Data) → String
  | [] => ""
  | (name, value) :: rest =>
    (if inline then "" else String.ofList (spaces indent)) ++ name ++ ":" ++
      value.yamlValue indent ++ yamlFields indent false rest

end

def Data.yaml (data : Data) : String :=
  match data with
  | .record fields => yamlFields 0 false fields
  | other => other.yamlItem 0

end RakeOutline
