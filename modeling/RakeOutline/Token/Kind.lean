namespace RakeOutline

inductive TokenKind
  | doBlock
  | endBlock
  | classBlock
  | moduleBlock
  | defBlock
  | beginBlock
  | ifBlock
  | unlessBlock
  | caseBlock
  | whileLoop
  | untilLoop
  | forLoop
  | endOfScript
  | ifModifier
  | unlessModifier
  | whileModifier
  | untilModifier
  | doCondition
  | label
  | identifier
  | constant
  | instanceVariable
  | globalVariable
  | symbol
  | string
  | heredoc
  | integer
  | comment
  | space
  | newline
  | assoc
  | assign
  | gt
  | lBracket
  | rBracket
  | lParen
  | rParen
  | lBrace
  | rBrace
  | comma
  | dot
  | colonColon
  | colon
  | pipe
  | operator
  | unknown
  deriving DecidableEq, Repr, Inhabited

def TokenKind.all : List TokenKind :=
  [.doBlock, .endBlock, .classBlock, .moduleBlock, .defBlock, .beginBlock, .ifBlock, .unlessBlock,
    .caseBlock, .whileLoop, .untilLoop, .forLoop, .endOfScript, .ifModifier, .unlessModifier,
    .whileModifier, .untilModifier, .doCondition, .label, .identifier, .constant,
    .instanceVariable, .globalVariable, .symbol, .string, .heredoc, .integer, .comment, .space,
    .newline, .assoc, .assign, .gt, .lBracket, .rBracket, .lParen, .rParen, .lBrace, .rBrace,
    .comma, .dot, .colonColon, .colon, .pipe, .operator, .unknown]

def TokenKind.words : TokenKind → List String
  | .doBlock => ["do"]
  | .endBlock => ["end"]
  | .classBlock => ["class"]
  | .moduleBlock => ["module"]
  | .defBlock => ["def"]
  | .beginBlock => ["begin"]
  | .ifBlock => ["if"]
  | .unlessBlock => ["unless"]
  | .caseBlock => ["case"]
  | .whileLoop => ["while"]
  | .untilLoop => ["until"]
  | .forLoop => ["for"]
  | .endOfScript => ["end", "of", "script"]
  | .ifModifier => ["if", "modifier"]
  | .unlessModifier => ["unless", "modifier"]
  | .whileModifier => ["while", "modifier"]
  | .untilModifier => ["until", "modifier"]
  | .doCondition => ["do", "condition"]
  | .label => ["label"]
  | .identifier => ["identifier"]
  | .constant => ["constant"]
  | .instanceVariable => ["instance", "variable"]
  | .globalVariable => ["global", "variable"]
  | .symbol => ["symbol"]
  | .string => ["string"]
  | .heredoc => ["heredoc"]
  | .integer => ["integer"]
  | .comment => ["comment"]
  | .space => ["space"]
  | .newline => ["newline"]
  | .assoc => ["assoc"]
  | .assign => ["assign"]
  | .gt => ["gt"]
  | .lBracket => ["l", "bracket"]
  | .rBracket => ["r", "bracket"]
  | .lParen => ["l", "paren"]
  | .rParen => ["r", "paren"]
  | .lBrace => ["l", "brace"]
  | .rBrace => ["r", "brace"]
  | .comma => ["comma"]
  | .dot => ["dot"]
  | .colonColon => ["colon", "colon"]
  | .colon => ["colon"]
  | .pipe => ["pipe"]
  | .operator => ["operator"]
  | .unknown => ["unknown"]

/-- The name used in data: the words in lower case, joined by hyphens. -/
def TokenKind.name (kind : TokenKind) : String :=
  "-".intercalate kind.words

/-- The name used in listings: the words capitalised and put together. -/
def TokenKind.title (kind : TokenKind) : String :=
  String.join (kind.words.map String.capitalize)

def TokenKind.ofName? (name : String) : Option TokenKind :=
  TokenKind.all.find? fun kind => kind.name == name

/-- Keywords that begin a block which an `end` closes. -/
def TokenKind.opensBlock : TokenKind → Bool
  | .doBlock | .classBlock | .moduleBlock | .defBlock | .beginBlock | .ifBlock | .unlessBlock
  | .caseBlock | .whileLoop | .untilLoop | .forLoop => true
  | _ => false

def TokenKind.closesBlock (kind : TokenKind) : Bool :=
  kind = .endBlock

def TokenKind.isSpace (kind : TokenKind) : Bool :=
  kind = .space

def TokenKind.isKeyword : TokenKind → Bool
  | .endBlock | .endOfScript | .ifModifier | .unlessModifier | .whileModifier | .untilModifier
  | .doCondition => true
  | kind => kind.opensBlock

/-- Kinds that can end a value, so that a keyword after them on a line is a modifier. -/
def TokenKind.endsValue : TokenKind → Bool
  | .identifier | .constant | .instanceVariable | .globalVariable | .symbol | .string | .heredoc
  | .integer | .rParen | .rBracket | .rBrace | .endBlock => true
  | _ => false

/-- A dot or a double colon: the name that follows is a method or a nested constant. -/
def TokenKind.isCall : TokenKind → Bool
  | .dot | .colonColon => true
  | _ => false

end RakeOutline
