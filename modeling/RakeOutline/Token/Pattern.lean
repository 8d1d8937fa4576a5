import RakeOutline.Token.Kind

namespace RakeOutline

/-- The length of the longest start of a text that has a certain form. -/
abbrev Pattern := List Char → Option Nat

def isWordStart (c : Char) : Bool :=
  c.isAlpha || c == '_'

def isWordPart (c : Char) : Bool :=
  c.isAlphanum || c == '_'

def exactly (word : String) : Pattern := fun text =>
  if word.toList.isPrefixOf text then some word.length else none

def oneOf (accept : Char → Bool) : Pattern
  | [] => none
  | c :: _ => if accept c then some 1 else none

/-- A character of the first class and all that follow of the second. -/
def oneThen (first later : Char → Bool) : Pattern
  | [] => none
  | c :: rest => if first c then some (1 + (rest.takeWhile later).length) else none

def after (word : String) (pattern : Pattern) : Pattern := fun text =>
  if word.toList.isPrefixOf text then
    (pattern (text.drop word.length)).map (word.length + ·)
  else none

/-- The pattern and a question or exclamation mark, if one follows. -/
def withMark (pattern : Pattern) : Pattern := fun text =>
  (pattern text).map fun n =>
    match text.drop n with
    | '?' :: _ | '!' :: _ => n + 1
    | _ => n

def either (p q : Pattern) : Pattern := fun text =>
  match p text, q text with
  | some m, some n => some (max m n)
  | some m, none => some m
  | none, n => n

/-- Digits and underscores after a digit, with a fraction if a digit follows the point. -/
def number : Pattern := fun text =>
  (oneThen Char.isDigit (fun c => c.isDigit || c == '_') text).map fun n =>
    match after "." (oneThen Char.isDigit Char.isDigit) (text.drop n) with
    | some m => n + m
    | none => n

def word : Pattern :=
  oneThen isWordStart isWordPart

/-- The kinds with their patterns, those that win a tie first. -/
def tokenPatterns : List (TokenKind × Pattern) :=
  [(.doBlock, exactly "do"), (.endBlock, exactly "end"), (.classBlock, exactly "class"),
    (.moduleBlock, exactly "module"), (.defBlock, exactly "def"), (.beginBlock, exactly "begin"),
    (.ifBlock, exactly "if"), (.unlessBlock, exactly "unless"), (.caseBlock, exactly "case"),
    (.whileLoop, exactly "while"), (.untilLoop, exactly "until"), (.forLoop, exactly "for"),
    (.endOfScript, exactly "__END__"),
    (.identifier, withMark (oneThen (fun c => c.isLower || c == '_') isWordPart)),
    (.constant, oneThen Char.isUpper isWordPart),
    (.instanceVariable, either (after "@" word) (after "@@" word)),
    (.globalVariable, after "$" (oneThen isWordPart isWordPart)),
    (.symbol, after ":" (withMark word)),
    (.heredoc, either (after "<<" word) (either (after "<<~" word) (after "<<-" word))),
    (.integer, number),
    (.comment, oneThen (· == '#') (· != '\n')),
    (.space, oneThen (" \t\r".toList.contains ·) (" \t\r".toList.contains ·)),
    (.newline, exactly "\n"),
    (.assoc, exactly "=>"), (.assign, exactly "="), (.gt, exactly ">"),
    (.lBracket, exactly "["), (.rBracket, exactly "]"), (.lParen, exactly "("),
    (.rParen, exactly ")"), (.lBrace, exactly "\x7b"), (.rBrace, exactly "\x7d"),
    (.comma, exactly ","), (.dot, exactly "."), (.colonColon, exactly "::"),
    (.colon, exactly ":"), (.pipe, exactly "|"),
    (.operator, oneOf ("+-*/%<!&^~?;\\".toList.contains ·))]

def longest : List (TokenKind × Nat) → Option (TokenKind × Nat)
  | [] => none
  | proposal :: later =>
    match longest later with
    | none => some proposal
    | some other => if proposal.2 < other.2 then some other else some proposal

def proposals (text : List Char) : List (TokenKind × Nat) :=
  tokenPatterns.filterMap fun entry => (entry.2 text).map fun n => (entry.1, n)

/-- The number of characters that can stand after an opening quote before the closing one: any
but the quote itself, where a backslash takes the next character with it unless that is a line
feed. -/
def escapedLength (quote : Char) : List Char → Nat
  | [] => 0
  | [c] => if c = quote ∨ c = '\\' then 0 else 1
  | c :: d :: rest =>
    if c = quote then 0
    else if c = '\\' then if d = '\n' then 0 else escapedLength quote rest + 2
    else escapedLength quote (d :: rest) + 1

/-- The number of characters before the quote or the end of the line. -/
def plainLength (quote : Char) (text : List Char) : Nat :=
  (text.takeWhile fun c => c != quote && c != '\n').length

/-- A way to quote text: how it opens, with which quote it closes, and what can stand between. -/
structure QuoteForm where
  kind : TokenKind
  opener : String
  quote : Char
  inner : Char → List Char → Nat

def quoteForms : List QuoteForm :=
  ['"', '\x27'].flatMap fun quote =>
    let mark := String.singleton quote
    [⟨.string, mark, quote, escapedLength⟩, ⟨.symbol, ":" ++ mark, quote, escapedLength⟩,
      ⟨.heredoc, "<<" ++ mark, quote, plainLength⟩, ⟨.heredoc, "<<~" ++ mark, quote, plainLength⟩,
      ⟨.heredoc, "<<-" ++ mark, quote, plainLength⟩]

/-- The token that an opening quote begins, unknown if the quote is not closed. -/
def QuoteForm.token? (form : QuoteForm) (text : List Char) : Option (TokenKind × Nat) :=
  if form.opener.toList.isPrefixOf text then
    let rest := text.drop form.opener.length
    let n := form.inner form.quote rest
    if (rest.drop n).head? = some form.quote then some (form.kind, form.opener.length + n + 1)
    else some (.unknown, form.opener.length + n)
  else none

/-- The kind and the length of the token at the start of a text that is not empty: a text in quotes,
or else the longest proposal of the patterns. A character that no pattern covers is a
token by itself. -/
def tokenAt (text : List Char) : TokenKind × Nat :=
  match quoteForms.findSome? (·.token? text) with
  | some token => token
  | none => (longest (proposals text)).getD (.unknown, 1)

end RakeOutline
