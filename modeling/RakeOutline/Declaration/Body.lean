import RakeOutline.Token.Stream

namespace RakeOutline

/-- What a token adds to the number of open blocks. -/
def TokenKind.blockChange (kind : TokenKind) : Int :=
  if kind.opensBlock then 1 else if kind.closesBlock then -1 else 0

/-- The length of the statement at the start of a run, given whether a block has been opened and
how many more blocks were opened than closed. -/
def statementLength (opened : Bool) (depth : Int) : List Token → Nat
  | [] => 0
  | token :: rest =>
    let openedHere := opened || token.kind.opensBlock
    let depthHere := depth + token.kind.blockChange
    if (token.kind = .newline ∧ ¬ opened) ∨ (openedHere ∧ depthHere = 0) then 1
    else statementLength openedHere depthHere rest + 1

def TokenStream.readBody (stream : TokenStream) : List Token × TokenStream :=
  stream.read (statementLength false 0 stream.tokens)

theorem TokenStream.consumes_readBody (stream : TokenStream) :
    TokenStream.Consumes stream.readBody.1 stream stream.readBody.2 :=
  stream.consumes_read _

end RakeOutline
