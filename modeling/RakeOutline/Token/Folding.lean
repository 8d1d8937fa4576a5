import RakeOutline.Text.Blank
import RakeOutline.Text.Line
import RakeOutline.Text.Quote

namespace RakeOutline

/-- The line that ends a heredoc: its word, which may be indented if the opener allows it. -/
structure Terminator where
  word : List Char
  indented : Bool
  deriving DecidableEq, Repr

/-- The terminator that an opener such as `<<~EOS` asks for. -/
def Terminator.ofOpener (opener : List Char) : Terminator :=
  match opener.drop 2 with
  | '~' :: word => ⟨unquote word, true⟩
  | '-' :: word => ⟨unquote word, true⟩
  | word => ⟨unquote word, false⟩

/-- Carriage returns at the end of the line do not count. -/
def Terminator.endsAt (terminator : Terminator) (line : List Char) : Bool :=
  let line := trimEndBy (· == '\r') line
  (if terminator.indented then trimStart line else line) == terminator.word

/-- The characters up to the end of the line that closes the last of the heredocs. A line closes
the first heredoc that is still open and no other. -/
def closingOffset : List Terminator → List (List Char) → Option Nat
  | [], _ => none
  | _ :: _, [] => none
  | terminator :: later, line :: rest =>
    if terminator.endsAt (lineContent line) then
      if later.isEmpty then some (lineContent line).length
      else (closingOffset later rest).map (line.length + ·)
    else (closingOffset (terminator :: later) rest).map (line.length + ·)

/-- The length of the bodies of the given heredocs at the start of a text. None if some heredoc
is never closed, or if there is no text to take. -/
def heredocLength? (terminators : List Terminator) (text : List Char) : Option Nat :=
  if terminators.isEmpty then none
  else (closingOffset terminators (lines text)).filter (0 < ·)

/-- A directive stands alone on its line or is followed by white space. -/
def isDirective (directive : String) (line : List Char) : Bool :=
  directive.toList.isPrefixOf line && (line.drop directive.length).head?.all isBlank

/-- The characters up to the end of the first line that is a directive `=end`. -/
def documentEnd : List (List Char) → Option Nat
  | [] => none
  | line :: rest =>
    if isDirective "=end" (lineContent line) then some (lineContent line).length
    else (documentEnd rest).map (line.length + ·)

def documentLength? (text : List Char) : Option Nat :=
  if isDirective "=begin" text then
    match lines text with
    | [] => none
    | first :: rest => (documentEnd rest).map (first.length + ·)
  else none

end RakeOutline
