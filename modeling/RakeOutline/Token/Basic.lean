import RakeOutline.Text.Quote
import RakeOutline.Token.Kind

namespace RakeOutline

/-- A piece of source with its kind and the place where it begins: lines count from one, columns
count characters from zero. -/
structure Token where
  kind : TokenKind
  line : Nat
  column : Nat
  text : String
  deriving DecidableEq, Repr, Inhabited

def sourceOf (tokens : List Token) : String :=
  String.join (tokens.map Token.text)

@[simp] theorem sourceOf_nil : sourceOf [] = "" :=
  rfl

@[simp] theorem sourceOf_cons (token : Token) (tokens : List Token) :
    sourceOf (token :: tokens) = token.text ++ sourceOf tokens := by
  simp [sourceOf]

@[simp] theorem sourceOf_append (first second : List Token) :
    sourceOf (first ++ second) = sourceOf first ++ sourceOf second := by
  simp [sourceOf, String.join_append]

def unquoteText (text : String) : String :=
  String.ofList (unquote text.toList)

def dropColon (text : List Char) : List Char :=
  if text.head? = some ':' then text.tail else text

def dropLastColon (text : List Char) : List Char :=
  if text.getLast? = some ':' then text.dropLast else text

/-- The name that a token writes: symbols without their colon, strings without their quotes,
labels without the colon at their end. -/
def Token.literalName (token : Token) : String :=
  match token.kind with
  | .symbol => String.ofList (unquote (dropColon token.text.toList))
  | .string => unquoteText token.text
  | .label => String.ofList (dropLastColon token.text.toList)
  | _ => token.text

end RakeOutline
