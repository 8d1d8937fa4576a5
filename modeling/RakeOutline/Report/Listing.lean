import RakeOutline.Report.Json
import RakeOutline.Token.Basic

namespace RakeOutline

def Token.listing (token : Token) : String :=
  s!"{token.line}:{token.column} " ++ token.kind.title ++ " " ++ listed token.text

def listTokens (tokens : List Token) : String :=
  String.join (tokens.map fun token => token.listing ++ "\n")

def Token.data (token : Token) : Data :=
  .record [("kind", .text token.kind.name), ("line", .number token.line),
    ("column", .number token.column), ("text", .text token.text)]

def tokensJson (tokens : List Token) : String :=
  (Data.list (tokens.map Token.data)).json

end RakeOutline
