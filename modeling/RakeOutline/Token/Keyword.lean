import RakeOutline.Token.Lexeme

namespace RakeOutline

/-- Keywords after a dot or a double colon become identifiers. -/
def demoteMethods (afterCall : Bool) : List Token → List Token
  | [] => []
  | token :: rest =>
    let token := if afterCall && token.kind.isKeyword then { token with kind := .identifier } else token
    token :: demoteMethods token.kind.isCall rest

def TokenKind.namesLabel : TokenKind → Bool
  | .identifier | .constant => true
  | kind => kind.isKeyword

/-- A name and the colon right after it become one label. -/
def mergeLabels : List Token → List Token
  | [] => []
  | [token] => [token]
  | token :: next :: rest =>
    if token.kind.namesLabel && next.kind = .colon then
      { token with kind := .label, text := token.text ++ next.text } :: mergeLabels rest
    else token :: mergeLabels (next :: rest)

/-- What has been seen of a line: the last token that is neither space nor comment, and how many
loops wait for their `do`. -/
structure LineState where
  previous : Option Token := none
  loops : Nat := 0
  deriving DecidableEq, Repr

/-- Identifiers after which an expression begins. -/
def expressionWords : List String :=
  ["and", "or", "not", "then", "else", "elsif", "when", "in"]

/-- Whether the token can end the value that a modifier applies to. -/
def Token.endsValue (token : Token) : Bool :=
  token.kind.endsValue && !(token.kind = .identifier && expressionWords.contains token.text)

def LineState.kindOf (state : LineState) (token : Token) : TokenKind :=
  let afterValue := state.previous.any Token.endsValue
  match token.kind with
  | .ifBlock => if afterValue then .ifModifier else .ifBlock
  | .unlessBlock => if afterValue then .unlessModifier else .unlessBlock
  | .whileLoop => if afterValue then .whileModifier else .whileLoop
  | .untilLoop => if afterValue then .untilModifier else .untilLoop
  | .doBlock => if 0 < state.loops then .doCondition else .doBlock
  | .endOfScript => if token.column = 0 then .endOfScript else .identifier
  | kind => kind

/-- The loops that wait for their `do` after a token with the kind that it has in its line. -/
def LineState.loopsAfter (state : LineState) (token : Token) (kind : TokenKind) : Nat :=
  match token.kind, kind with
  | .doBlock, _ => state.loops - 1
  | _, .whileLoop | _, .untilLoop | _, .forLoop => state.loops + 1
  | _, _ => state.loops

def LineState.after (state : LineState) (token : Token) (kind : TokenKind) : LineState :=
  match token.kind with
  | .newline => {}
  | .space | .comment => state
  | _ =>
    if token.kind = .operator ∧ token.text = ";" then { state with previous := none }
    else ⟨some { token with kind := kind }, state.loopsAfter token kind⟩

def classify (state : LineState) : List Token → List Token
  | [] => []
  | token :: rest =>
    let kind := state.kindOf token
    { token with kind := kind } :: classify (state.after token kind) rest

/-- Gives every keyword the kind that its context asks for. -/
def resolveKeywords (tokens : List Token) : List Token :=
  classify {} (mergeLabels (demoteMethods false tokens))

def lex (source : String) : List Token :=
  resolveKeywords (tokenize source)

end RakeOutline
