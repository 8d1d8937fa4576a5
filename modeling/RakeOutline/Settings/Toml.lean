import RakeOutline.Settings.Value

namespace RakeOutline

namespace Toml

/-- A table under construction. A table is implicit as long as only its inner tables have been
named, and dotted if dotted keys made it. -/
inductive Node
  | value (setting : Setting)
  | table (implicit dotted : Bool) (entries : List (String × Node))
  | tables (items : List (List (String × Node)))

abbrev Table := List (String × Node)

mutual

def Node.toSetting (origin : Option String) : Node → Setting
  | .value setting => setting
  | .table _ _ entries => .table origin (entrySettings origin entries)
  | .tables items => .list origin (tableSettings origin items)

def entrySettings (origin : Option String) : List (String × Node) → List (String × Setting)
  | [] => []
  | (name, node) :: rest => (name, node.toSetting origin) :: entrySettings origin rest

def tableSettings (origin : Option String) : List (List (String × Node)) → List Setting
  | [] => []
  | entries :: rest => .table origin (entrySettings origin entries) :: tableSettings origin rest

end

def find? (name : String) (table : Table) : Option Node :=
  (table.find? (·.1 == name)).map Prod.snd

def replace (name : String) (node : Node) (table : Table) : Table :=
  table.map fun entry => if entry.1 == name then (name, node) else entry

/-- Changes the table at the end of a path. Tables on the way are made if they do not exist;
`dotted` tells whether the path is that of a dotted key, which cannot go into a table that has a
header. The change is told whether its table is dotted. -/
def modifyAt (dotted : Bool) (change : Bool → Table → Option Table) (here : Bool) :
    List String → Table → Option Table
  | [], table => change here table
  | name :: path, table =>
    match find? name table with
    | none =>
      (modifyAt dotted change dotted path []).map fun inner =>
        table ++ [(name, .table true dotted inner)]
    | some (.table implicit isDotted inner) =>
      if dotted ∧ ¬ implicit then none
      else (modifyAt dotted change isDotted path inner).map fun inner =>
        replace name (.table implicit isDotted inner) table
    | some (.tables items) =>
      match items.getLast? with
      | none => none
      | some last => (modifyAt dotted change false path last).map fun last =>
          replace name (.tables (items.dropLast ++ [last])) table
    | some (.value _) => none

/-- Adds a pair to a table. Its key must be new, and the tables of a dotted key must be dotted. -/
def addPair (key : List String) (value : Setting) (table : Table) : Option Table :=
  match key.getLast? with
  | none => none
  | some name =>
    let path := key.dropLast
    modifyAt true (fun isDotted inner =>
      if isDotted = path.isEmpty ∨ (find? name inner).isSome then none
      else some (inner ++ [(name, .value value)])) false path table

/-- Opens the table of a header, which must be new or implicit. -/
def openTable (path : List String) (table : Table) : Option Table :=
  match path.getLast? with
  | none => none
  | some name =>
    modifyAt false (fun _ outer =>
      match find? name outer with
      | none => some (outer ++ [(name, .table false false [])])
      | some (.table true false inner) => some (replace name (.table false false inner) outer)
      | some _ => none) false path.dropLast table

def openListTable (path : List String) (table : Table) : Option Table :=
  match path.getLast? with
  | none => none
  | some name =>
    modifyAt false (fun _ outer =>
      match find? name outer with
      | none => some (outer ++ [(name, .tables [[]])])
      | some (.tables items) => some (replace name (.tables (items ++ [[]])) outer)
      | some _ => none) false path.dropLast table

def isControl (c : Char) : Bool :=
  (c.toNat < 0x20 && c != '\t') || c.toNat == 0x7F

def isSpace (c : Char) : Bool :=
  c == ' ' || c == '\t'

def skipSpace (text : List Char) : List Char :=
  text.dropWhile isSpace

def isBare (c : Char) : Bool :=
  c.isAlphanum || c == '_' || c == '-'

def readBreak? : List Char → Option (List Char)
  | '\n' :: rest => some rest
  | '\r' :: '\n' :: rest => some rest
  | _ => none

def skipComment (text : List Char) : List Char :=
  match text with
  | '#' :: rest => rest.dropWhile (!isControl ·)
  | rest => rest

/-- The text after the end of a line: spaces, a comment and a line break or the end. -/
def endLine? (text : List Char) : Option (List Char) :=
  match skipComment (skipSpace text) with
  | [] => some []
  | rest => readBreak? rest

def skipFiller : Nat → List Char → List Char
  | 0, text => text
  | fuel + 1, text =>
    let rest := skipComment (skipSpace text)
    match readBreak? rest with
    | some rest => skipFiller fuel rest
    | none => rest

def hexChar? (digits : List Char) : Option Char :=
  (natOfDigits? 16 digits).bind fun n =>
    if n < 0xD800 ∨ (0xDFFF < n ∧ n < 0x110000) then some (Char.ofNat n) else none

def simpleEscape? (c : Char) : Option Char :=
  match c with
  | 'b' => some '\x08'
  | 't' => some '\t'
  | 'n' => some '\n'
  | 'f' => some '\x0c'
  | 'r' => some '\r'
  | '"' => some '"'
  | '\\' => some '\\'
  | _ => none

def push (c : Option Char) (read : Option (List Char × List Char)) :
    Option (List Char × List Char) :=
  match c, read with
  | some c, some (text, rest) => some (c :: text, rest)
  | _, _ => none

def readBasic : List Char → Option (List Char × List Char)
  | [] => none
  | '"' :: rest => some ([], rest)
  | '\\' :: 'u' :: a :: b :: c :: d :: rest => push (hexChar? [a, b, c, d]) (readBasic rest)
  | '\\' :: 'U' :: a :: b :: c :: d :: e :: f :: g :: h :: rest =>
    push (hexChar? [a, b, c, d, e, f, g, h]) (readBasic rest)
  | '\\' :: c :: rest => push (simpleEscape? c) (readBasic rest)
  | c :: rest => if isControl c then none else push (some c) (readBasic rest)

/-- A text of several lines after its three opening quotes. After a backslash at the end of a line
white space is skipped, which `folding` tells. -/
def readLongBasic (folding : Bool) : List Char → Option (List Char × List Char)
  | [] => none
  | '"' :: '"' :: '"' :: '"' :: '"' :: rest => some (['"', '"'], rest)
  | '"' :: '"' :: '"' :: '"' :: rest => some (['"'], rest)
  | '"' :: '"' :: '"' :: rest => some ([], rest)
  | '\\' :: 'u' :: a :: b :: c :: d :: rest =>
    push (hexChar? [a, b, c, d]) (readLongBasic false rest)
  | '\\' :: 'U' :: a :: b :: c :: d :: e :: f :: g :: h :: rest =>
    push (hexChar? [a, b, c, d, e, f, g, h]) (readLongBasic false rest)
  | '\\' :: c :: rest =>
    if (readBreak? (skipSpace (c :: rest))).isSome then readLongBasic true (c :: rest)
    else push (simpleEscape? c) (readLongBasic false rest)
  | '\r' :: '\n' :: rest =>
    if folding then readLongBasic true rest else push (some '\n') (readLongBasic false rest)
  | '\n' :: rest =>
    if folding then readLongBasic true rest else push (some '\n') (readLongBasic false rest)
  | c :: rest =>
    if folding && isSpace c then readLongBasic true rest
    else if isControl c then none
    else push (some c) (readLongBasic false rest)

def readLiteral : List Char → Option (List Char × List Char)
  | [] => none
  | c :: rest =>
    if c = '\x27' then some ([], rest)
    else if isControl c then none
    else push (some c) (readLiteral rest)

def readLongLiteral : List Char → Option (List Char × List Char)
  | [] => none
  | '\x27' :: '\x27' :: '\x27' :: '\x27' :: '\x27' :: rest => some (['\x27', '\x27'], rest)
  | '\x27' :: '\x27' :: '\x27' :: '\x27' :: rest => some (['\x27'], rest)
  | '\x27' :: '\x27' :: '\x27' :: rest => some ([], rest)
  | '\r' :: '\n' :: rest => push (some '\n') (readLongLiteral rest)
  | '\n' :: rest => push (some '\n') (readLongLiteral rest)
  | c :: rest => if isControl c then none else push (some c) (readLongLiteral rest)

/-- A line break right after the opening quotes does not count. -/
def skipFirstBreak (text : List Char) : List Char :=
  (readBreak? text).getD text

def readText? : List Char → Option (List Char × List Char)
  | '"' :: '"' :: '"' :: rest => readLongBasic false (skipFirstBreak rest)
  | '"' :: rest => readBasic rest
  | '\x27' :: '\x27' :: '\x27' :: rest => readLongLiteral (skipFirstBreak rest)
  | '\x27' :: rest => readLiteral rest
  | _ => none

def readKeyPart? : List Char → Option (List Char × List Char)
  | '"' :: rest => readBasic rest
  | '\x27' :: rest => readLiteral rest
  | text =>
    let name := text.takeWhile isBare
    if name.isEmpty then none else some (name, text.dropWhile isBare)

/-- Keys have fewer parts than this, and fewer lists and tables in braces are open at once. -/
def nestingLimit : Nat := 80

def readKeyParts? : Nat → List Char → Option (List String × List Char)
  | 0, _ => none
  | fuel + 1, text => do
    let (part, rest) ← readKeyPart? (skipSpace text)
    match skipSpace rest with
    | '.' :: rest =>
      let (parts, rest) ← readKeyParts? fuel rest
      return (String.ofList part :: parts, rest)
    | rest => return ([String.ofList part], rest)

def readKey? (fuel : Nat) (text : List Char) : Option (List String × List Char) :=
  (readKeyParts? fuel text).filter (·.1.length < nestingLimit)

/-- Digits with single underscores between them, without the underscores. -/
def readDigits? (isDigit : Char → Bool) : List Char → Option (List Char)
  | [] => none
  | [c] => if isDigit c then some [c] else none
  | c :: '_' :: d :: rest =>
    if isDigit c then (readDigits? isDigit (d :: rest)).map (c :: ·) else none
  | c :: d :: rest => if isDigit c then (readDigits? isDigit (d :: rest)).map (c :: ·) else none

/-- Decimal digits that do not begin with a needless zero. -/
def readWhole? (text : List Char) : Option (List Char) :=
  (readDigits? Char.isDigit text).filter fun digits =>
    digits.length = 1 ∨ digits.head? ≠ some '0'

def readRadix? (base : Nat) (text : List Char) : Option Int :=
  (readDigits? (digitValue · < base) text).bind fun digits =>
    (natOfDigits? base digits).map fun n => (n : Int)

def readInteger? (text : List Char) : Option Int :=
  let value := match text with
    | '0' :: 'x' :: digits => readRadix? 16 digits
    | '0' :: 'o' :: digits => readRadix? 8 digits
    | '0' :: 'b' :: digits => readRadix? 2 digits
    | '-' :: digits => (readWhole? digits).map fun digits => -(digitsToNat digits : Int)
    | digits => (readWhole? (dropSign digits)).map fun digits => (digitsToNat digits : Int)
  value.filter fun n => -signedLimit ≤ n ∧ n < signedLimit

def isNumberPart (c : Char) : Bool :=
  c.isDigit || c == '_'

def readFraction? (text : List Char) : Option (List Char × List Char) :=
  match text with
  | '.' :: rest =>
    (readDigits? Char.isDigit (rest.takeWhile isNumberPart)).map fun digits =>
      (digits, rest.dropWhile isNumberPart)
  | rest => some ([], rest)

def readPower? (text : List Char) : Option Int :=
  match text with
  | [] => some 0
  | mark :: rest =>
    if mark = 'e' ∨ mark = 'E' then
      (readDigits? Char.isDigit (dropSign rest)).map fun digits =>
        if rest.head? = some '-' then -(digitsToNat digits : Int) else digitsToNat digits
    else none

/-- A float, which has a fraction or a power of ten. One that is too large for a double is refused,
unless it is negative. -/
def readFloat? (text : List Char) : Option Double :=
  let negative := text.head? = some '-'
  let unsigned := dropSign text
  if unsigned = "inf".toList then some (.infinite negative)
  else if unsigned = "nan".toList then some .notANumber
  else do
    let whole ← readWhole? (unsigned.takeWhile isNumberPart)
    let rest := unsigned.dropWhile isNumberPart
    if rest.isEmpty then none
    let (fraction, rest) ← readFraction? rest
    let power ← readPower? rest
    let value := Double.ofDecimal negative ⟨whole ++ fraction, power - fraction.length⟩
    if value = .infinite false then none else some value

def isLeapYear (year : Nat) : Bool :=
  (year % 4 == 0 && year % 100 != 0) || year % 400 == 0

def daysIn (year month : Nat) : Nat :=
  if month = 2 then if isLeapYear year then 29 else 28
  else if [4, 6, 9, 11].contains month then 30
  else 31

def readFixed? (width : Nat) (text : List Char) : Option (Nat × List Char) :=
  let digits := text.take width
  if digits.length = width ∧ digits.all Char.isDigit then
    some (digitsToNat digits, text.drop width)
  else none

def expect? (c : Char) (text : List Char) : Option (List Char) :=
  if text.head? = some c then some text.tail else none

def readDate? (text : List Char) : Option (List Char × List Char) := do
  let (year, rest) ← readFixed? 4 text
  let (month, rest) ← readFixed? 2 (← expect? '-' rest)
  let (day, rest) ← readFixed? 2 (← expect? '-' rest)
  if 1 ≤ month ∧ month ≤ 12 ∧ 1 ≤ day ∧ day ≤ daysIn year month then some (text.take 10, rest)
  else none

/-- A time of day without the zeros at its end; at most nine places count. -/
def readTime? (text : List Char) : Option (List Char × List Char) := do
  let (hour, rest) ← readFixed? 2 text
  let (minute, rest) ← readFixed? 2 (← expect? ':' rest)
  let (second, rest) ← readFixed? 2 (← expect? ':' rest)
  if 24 ≤ hour ∨ 60 ≤ minute ∨ 60 < second then none
  else match rest with
    | '.' :: rest =>
      let places := rest.takeWhile Char.isDigit
      if places.isEmpty then none
      else
        let kept := ((places.take 9).reverse.dropWhile (· == '0')).reverse
        some (text.take 8 ++ (if kept.isEmpty then [] else '.' :: kept),
          rest.dropWhile Char.isDigit)
    | rest => some (text.take 8, rest)

/-- The distance from universal time, at the end of a text. No distance has a plus sign. -/
def readOffset? (text : List Char) : Option (List Char) :=
  match text with
  | [] => some []
  | ['Z'] => some ['Z']
  | ['z'] => some ['Z']
  | sign :: rest =>
    if sign = '+' ∨ sign = '-' then do
      let (hour, rest) ← readFixed? 2 rest
      let (minute, rest) ← readFixed? 2 (← expect? ':' rest)
      if hour < 24 ∧ minute < 60 ∧ rest.isEmpty then
        some (if hour = 0 ∧ minute = 0 then "+00:00".toList else text)
      else none
    else none

/-- A day, a time of day, or both with or without an offset. -/
def readMoment? (text : List Char) : Option (List Char) :=
  match readDate? text with
  | none => (readTime? text).bind fun (time, rest) => if rest.isEmpty then some time else none
  | some (date, []) => some date
  | some (date, mark :: rest) =>
    if mark = 'T' ∨ mark = 't' ∨ mark = ' ' then do
      let (time, rest) ← readTime? rest
      let offset ← readOffset? rest
      return date ++ 'T' :: time ++ offset
    else none

/-- A value that is one word: a truth value, a number or a moment. -/
def readWord? (word : List Char) : Option Scalar :=
  if word = "true".toList then some (.boolean true)
  else if word = "false".toList then some (.boolean false)
  else ((readInteger? word).map .integer) <|> ((readFloat? word).map .float) <|>
    ((readMoment? word).map fun text => .text (String.ofList text))

def isWordChar (c : Char) : Bool :=
  c.isAlphanum || "+-_.:".toList.contains c

/-- The word at the start of a text. A space may stand between a day and a time. -/
def takeWord (text : List Char) : List Char × List Char :=
  let word := text.takeWhile isWordChar
  let rest := text.dropWhile isWordChar
  match rest with
  | ' ' :: c :: later =>
    if c.isDigit ∧ (readDate? word).any (·.2.isEmpty) then
      (word ++ ' ' :: (c :: later).takeWhile isWordChar, (c :: later).dropWhile isWordChar)
    else (word, rest)
  | _ => (word, rest)

mutual

/-- A value inside a number of open lists and tables; the fuel bounds the number of values in it. -/
def readValue? (origin : Option String) (depth : Nat) :
    Nat → List Char → Option (Setting × List Char)
  | 0, _ => none
  | fuel + 1, text =>
    match text with
    | '[' :: rest =>
      if depth + 1 < nestingLimit then
        (readItems? origin (depth + 1) fuel (skipFiller fuel rest)).map fun (items, rest) =>
          (.list origin items, rest)
      else none
    | '\x7b' :: rest =>
      if depth + 1 < nestingLimit then
        match skipSpace rest with
        | '\x7d' :: rest => some (.table origin [], rest)
        | rest => (readPairs? origin (depth + 1) fuel [] rest).map fun (table, rest) =>
            (.table origin (entrySettings origin table), rest)
      else none
    | c :: _ =>
      if c = '"' ∨ c = '\x27' then
        (readText? text).map fun (text, rest) =>
          (.scalar origin (.text (String.ofList text)), rest)
      else
        let (word, rest) := takeWord text
        (readWord? word).map fun value => (.scalar origin value, rest)
    | [] => none

def readItems? (origin : Option String) (depth : Nat) :
    Nat → List Char → Option (List Setting × List Char)
  | 0, _ => none
  | fuel + 1, text =>
    match text with
    | ']' :: rest => some ([], rest)
    | text => do
      let (item, rest) ← readValue? origin depth fuel text
      match skipFiller fuel rest with
      | ',' :: rest =>
        let (items, rest) ← readItems? origin depth fuel (skipFiller fuel rest)
        return (item :: items, rest)
      | ']' :: rest => return ([item], rest)
      | _ => none

def readPairs? (origin : Option String) (depth : Nat) :
    Nat → Table → List Char → Option (Table × List Char)
  | 0, _, _ => none
  | fuel + 1, table, text => do
    let (key, rest) ← readKey? fuel text
    let (value, rest) ← readValue? origin depth fuel (skipSpace (← expect? '=' rest))
    let table ← addPair key value table
    match skipSpace rest with
    | ',' :: rest => readPairs? origin depth fuel table rest
    | '\x7d' :: rest => return (table, rest)
    | _ => none

end

/-- What has been read of a document: its table and the path of the header above. -/
structure Progress where
  table : Table := []
  path : List String := []

def readStatement? (origin : Option String) (fuel : Nat) (progress : Progress)
    (text : List Char) : Option (Progress × List Char) :=
  match skipSpace text with
  | '[' :: '[' :: rest => do
    let (path, rest) ← readKey? fuel rest
    let rest ← endLine? (← expect? ']' (← expect? ']' rest))
    return (⟨← openListTable path progress.table, path⟩, rest)
  | '[' :: rest => do
    let (path, rest) ← readKey? fuel rest
    let rest ← endLine? (← expect? ']' rest)
    return (⟨← openTable path progress.table, path⟩, rest)
  | rest =>
    match endLine? rest with
    | some rest => some (progress, rest)
    | none => do
      let (key, rest) ← readKey? fuel rest
      let (value, rest) ← readValue? origin 0 fuel (skipSpace (← expect? '=' rest))
      let table ← modifyAt false (fun _ => addPair key value) false progress.path progress.table
      return (⟨table, progress.path⟩, ← endLine? rest)

/-- Reads statements to the end; there are not more of them than characters. -/
def readStatements? (origin : Option String) (size : Nat) :
    Nat → Progress → List Char → Option Table
  | _, progress, [] => some progress.table
  | 0, _, _ => none
  | fuel + 1, progress, text => do
    let (progress, rest) ← readStatement? origin size progress text
    readStatements? origin size fuel progress rest

/-- The table that a text describes. A mark of the byte order may stand before it. -/
def parse? (origin : Option String) (text : String) : Option (List (String × Setting)) :=
  let chars := match text.toList with
    | first :: rest => if first.toNat = 0xFEFF then rest else first :: rest
    | [] => []
  let size := chars.length + 1
  (readStatements? origin size size {} chars).map (entrySettings origin)

end Toml

end RakeOutline
