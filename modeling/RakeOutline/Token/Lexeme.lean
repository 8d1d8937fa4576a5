import RakeOutline.Token.Basic
import RakeOutline.Token.Folding
import RakeOutline.Token.Pattern

namespace RakeOutline

structure Lexeme where
  kind : TokenKind
  text : List Char
  deriving DecidableEq, Repr

/-- The kind and the length of the lexeme at the start of a text. An embedded document begins
with an equals sign at the start of a line. -/
def lexemeAt (lineStart : Bool) (text : List Char) : TokenKind × Nat :=
  let token := tokenAt text
  if token.1 = .assign ∧ lineStart then
    match documentLength? text with
    | some n => (.comment, n)
    | none => token
  else token

def endsLine (text : List Char) : Bool :=
  text.getLast? == some '\n'

def openAfter (kind : TokenKind) (text : List Char) (terminators : List Terminator) :
    List Terminator :=
  match kind with
  | .heredoc => terminators ++ [Terminator.ofOpener text]
  | .newline => []
  | _ => terminators

/-- The lexemes of a text, given whether it starts a line and which heredocs were opened on the
line so far. The bodies of heredocs come after the next line break, as one string. -/
def lexemes (lineStart : Bool) (terminators : List Terminator) : List Char → List Lexeme
  | [] => []
  | c :: rest =>
    let head := lexemeAt lineStart (c :: rest)
    let text := c :: rest.take (head.2 - 1)
    let tail := rest.drop (head.2 - 1)
    let body := if head.1 = .newline then heredocLength? terminators tail else none
    match body with
    | none => ⟨head.1, text⟩ :: lexemes (endsLine text) (openAfter head.1 text terminators) tail
    | some n =>
      ⟨head.1, text⟩ :: ⟨.string, tail.take n⟩ :: lexemes (endsLine (tail.take n)) [] (tail.drop n)
termination_by text => text.length
decreasing_by all_goals simp only [List.length_drop, List.length_cons]; omega

structure Position where
  line : Nat := 1
  column : Nat := 0
  deriving DecidableEq, Repr

def Position.step (position : Position) (c : Char) : Position :=
  if c = '\n' then ⟨position.line + 1, 0⟩ else ⟨position.line, position.column + 1⟩

def Position.advance (position : Position) (text : List Char) : Position :=
  text.foldl Position.step position

def place (position : Position) : List Lexeme → List Token
  | [] => []
  | lexeme :: rest =>
    ⟨lexeme.kind, position.line, position.column, String.ofList lexeme.text⟩ ::
      place (position.advance lexeme.text) rest

def tokenize (source : String) : List Token :=
  place ⟨1, 0⟩ (lexemes true [] source.toList)

end RakeOutline
