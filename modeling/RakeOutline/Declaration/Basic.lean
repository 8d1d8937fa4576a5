import RakeOutline.Declaration.Argument
import RakeOutline.Declaration.Body
import RakeOutline.Outline.Reference

namespace RakeOutline

/-- A task as it is declared in one place. The signature runs from the declaring word to the
dependencies, and the body is the rest of the statement. -/
structure Declaration where
  kind : TaskKind
  name : String
  line : Nat
  text : String
  arguments : List String
  dependencies : List String
  signature : List Token
  body : List Token
  deriving DecidableEq, Repr, Inhabited

def Token.isTaskName (token : Token) : Bool :=
  token.kind = .symbol || token.kind = .string || token.kind = .label

/-- The name of a task is the text of its token; a label names the task of the symbol. -/
def Token.taskName (token : Token) : String :=
  if token.kind = .label then ":" ++ token.literalName else token.text

/-- Reads a task declaration after its keyword. None if no name follows. -/
def TokenStream.readDeclaration (kind : TaskKind) (keyword : Token) (stream : TokenStream) :
    Option Declaration × TokenStream :=
  match (stream.startCaptureWith keyword).nextArgument false with
  | (none, stream) => (none, stream.finishCapture.2)
  | (some token, stream) =>
    if token.isTaskName then
      let text := sourceOf stream.captured
      let (arguments, stream) := stream.readTaskArguments kind (token.kind = .label)
      let (signature, stream) := stream.finishCapture
      let (body, stream) := stream.readBody
      (some { kind, name := token.taskName, line := keyword.line, text
              arguments := arguments.arguments, dependencies := arguments.dependencies
              signature, body }, stream)
    else (none, (stream.unget token).finishCapture.2)

/-- Reads the string after a keyword. Any other token is left in place. -/
def TokenStream.readString (crossLines : Bool) (stream : TokenStream) :
    Option Token × TokenStream :=
  match stream.nextArgument crossLines with
  | (none, stream) => (none, stream)
  | (some token, stream) =>
    if token.kind = .string then (some token, stream) else (none, stream.unget token)

def TokenStream.readDescription (stream : TokenStream) : Option String × TokenStream :=
  let (token, stream) := stream.readString true
  (token.map Token.literalName, stream)

def TokenStream.readRequire (relative : Bool) (stream : TokenStream) :
    Option Require × TokenStream :=
  let (token, stream) := stream.readString false
  (token.map fun token => ⟨token.literalName, relative, token.line⟩, stream)

inductive NamespaceHead
  | named (name : String)
  | unnamed
  | missing
  deriving DecidableEq, Repr

def TokenStream.readNamespaceHead (stream : TokenStream) : NamespaceHead × TokenStream :=
  match stream.nextArgument true with
  | (none, stream) => (.missing, stream)
  | (some token, stream) =>
    if token.kind = .symbol ∨ token.kind = .string then
      (.named token.literalName, stream.skipWhitespace false)
    else (.unnamed, stream.unget token)

/-- The constants after double colons at the start of a run, and how many tokens they take. A
double colon without a constant is taken too. -/
def nestedConstants : List Token → List String × Nat
  | separator :: segment :: rest =>
    if separator.kind = .colonColon then
      if segment.kind = .constant then
        let (names, n) := nestedConstants rest
        (segment.text :: names, n + 2)
      else ([], 1)
    else ([], 0)
  | [separator] => ([], if separator.kind = .colonColon then 1 else 0)
  | [] => ([], 0)

/-- Reads the rest of a path of constants and gives its full name. -/
def TokenStream.readConstantPath (token : Token) (stream : TokenStream) : String × TokenStream :=
  let (names, n) := nestedConstants stream.tokens
  (String.join (token.text :: names.map ("::" ++ ·)), (stream.read n).2.peek.2)

/-- Reads the block that ends a run of tokens with its `do`. -/
def TokenStream.readBlockAfter (run : List Token) (stream : TokenStream) : TokenStream :=
  match run.getLast? with
  | none => stream
  | some token => if token.kind = .doBlock then (stream.unget token).readBody.2 else stream

/-- Reads the statement that a constant begins, with its block. A statement of an ignored
constant is read to the end of its line and not recorded. -/
def TokenStream.readBuilder (ignored : List String) (token : Token) (stream : TokenStream) :
    Option Include × TokenStream :=
  let (name, stream) := stream.readConstantPath token
  if ignored.contains name then (none, (stream.readUntil [.newline]).2)
  else
    let (run, stream) := stream.readUntil [.doBlock, .newline]
    (some ⟨name, token.line⟩, stream.readBlockAfter run)

def TokenStream.skipConstantPath (stream : TokenStream) : TokenStream :=
  let stream := stream.skipWhitespace false
  let path := stream.tokens.takeWhile fun token =>
    token.kind = .constant || token.kind = .colonColon
  (stream.read path.length).2.peek.2

/-- Reads past the name of a class or module and the class that it derives from. -/
def TokenStream.skipDefinitionName (stream : TokenStream) : TokenStream :=
  match (stream.skipConstantPath.skipWhitespace false).next with
  | (none, stream) => stream
  | (some token, stream) =>
    if token.kind = .operator ∧ token.text = "<" then stream.skipConstantPath
    else stream.unget token

/-- A capture that was opened with a token holds that token and what was read since, and closing
it leaves the stream as if it had not been open. -/
theorem TokenStream.Consumes.finishCapture {run : List Token} {token : Token}
    {before after : TokenStream}
    (h : TokenStream.Consumes run (before.startCaptureWith token) after) :
    after.captured = token :: run ∧ TokenStream.Consumes run before after.finishCapture.2 := by
  have hc : after.captures = (run.reverse ++ [token]) :: before.captures.map (run.reverse ++ ·) :=
    h.captures
  refine ⟨?_, h.tokens, ?_, h.refusals⟩
  · simp [TokenStream.captured, hc]
  · simp [TokenStream.finishCapture, hc]

/-- A declaration that was read holds the tokens from its keyword to its end: the signature begins
with the keyword, the text is the signature up to the name, and the body follows. -/
theorem TokenStream.readDeclaration_eq_some {kind : TaskKind} {keyword : Token}
    {stream rest : TokenStream} {declaration : Declaration}
    (h : stream.readDeclaration kind keyword = (some declaration, rest)) :
    ∃ gap name later, name.isTaskName = true ∧ declaration.name = name.taskName ∧
      declaration.kind = kind ∧ declaration.line = keyword.line ∧
      declaration.text = sourceOf (keyword :: (gap ++ [name])) ∧
      declaration.signature = keyword :: (gap ++ [name] ++ later) ∧
      TokenStream.Consumes (gap ++ [name] ++ later ++ declaration.body) stream rest := by
  unfold TokenStream.readDeclaration at h
  split at h
  next => simp at h
  next name named hn =>
    split at h
    next hname =>
      obtain ⟨⟨gap, hgap⟩, _⟩ := TokenStream.takes_nextArgument hn
      obtain ⟨later, hlater⟩ := named.reads_readTaskArguments kind (name.kind = .label)
      obtain ⟨hs, hf⟩ := (hgap.trans hlater).finishCapture
      obtain ⟨he, hrest⟩ := Prod.mk.inj h
      subst hrest
      cases Option.some.inj he
      refine ⟨gap, name, later, hname, rfl, rfl, rfl, ?_, hs, ?_⟩
      · exact congrArg sourceOf hgap.finishCapture.1
      · exact hf.trans (TokenStream.consumes_readBody _)
    next => simp at h

theorem TokenStream.reads_readDeclaration (kind : TaskKind) (keyword : Token)
    (stream : TokenStream) : stream.Reads (stream.readDeclaration kind keyword).2 := by
  cases h : stream.readDeclaration kind keyword with
  | mk declaration rest =>
    cases declaration with
    | some declaration =>
      obtain ⟨gap, name, later, _, _, _, _, _, _, hc⟩ := TokenStream.readDeclaration_eq_some h
      exact ⟨_, hc⟩
    | none =>
      unfold TokenStream.readDeclaration at h
      split at h
      next later hn =>
        obtain ⟨run, hr⟩ := TokenStream.reads_nextArgument hn
        obtain ⟨_, rfl⟩ := Prod.mk.inj h
        exact ⟨run, hr.finishCapture.2⟩
      next token later hn =>
        split at h
        next => simp at h
        next =>
          obtain ⟨run, hr⟩ := (TokenStream.takes_nextArgument hn).unget
          obtain ⟨_, rfl⟩ := Prod.mk.inj h
          exact ⟨run, hr.finishCapture.2⟩

theorem TokenStream.reads_readString (crossLines : Bool) (stream : TokenStream) :
    stream.Reads (stream.readString crossLines).2 := by
  unfold TokenStream.readString
  split
  next h => exact TokenStream.reads_nextArgument h
  next h =>
    split
    · exact TokenStream.reads_nextArgument h
    · exact (TokenStream.takes_nextArgument h).unget

theorem TokenStream.reads_readDescription (stream : TokenStream) :
    stream.Reads stream.readDescription.2 :=
  stream.reads_readString true

theorem TokenStream.reads_readRequire (relative : Bool) (stream : TokenStream) :
    stream.Reads (stream.readRequire relative).2 :=
  stream.reads_readString false

theorem TokenStream.reads_readNamespaceHead (stream : TokenStream) :
    stream.Reads stream.readNamespaceHead.2 := by
  unfold TokenStream.readNamespaceHead
  split
  next h => exact TokenStream.reads_nextArgument h
  next h =>
    split
    · exact (TokenStream.reads_nextArgument h).trans (TokenStream.reads_skipWhitespace _ _)
    · exact (TokenStream.takes_nextArgument h).unget

theorem TokenStream.free_read {n : Nat} {stream : TokenStream}
    (h : (stream.read n).1 ≠ []) : (stream.read n).2.pushedBack = none := by
  unfold TokenStream.read at h ⊢
  split at h
  next => simp at h
  next hn => rw [if_neg hn]

theorem TokenStream.reads_readBlockAfter (kinds : List TokenKind) (stream : TokenStream) :
    stream.Reads ((stream.readUntil kinds).2.readBlockAfter (stream.readUntil kinds).1) := by
  have hs := stream.consumes_readUntil kinds
  unfold TokenStream.readBlockAfter
  split
  next => exact ⟨_, hs⟩
  next token h =>
    obtain ⟨initial, he⟩ := List.getLast?_eq_some_iff.mp h
    have hp : (stream.readUntil kinds).2.pushedBack = none :=
      TokenStream.free_read (by rw [← TokenStream.readUntil, he]; simp)
    split
    next =>
      rw [he] at hs
      exact ⟨_, (hs.unget hp).trans (TokenStream.consumes_readBody _)⟩
    next => exact ⟨_, hs⟩

theorem TokenStream.reads_readConstantPath (token : Token) (stream : TokenStream) :
    stream.Reads (stream.readConstantPath token).2 :=
  stream.reads_read_peek _

theorem TokenStream.reads_readBuilder (ignored : List String) (token : Token)
    (stream : TokenStream) : stream.Reads (stream.readBuilder ignored token).2 := by
  have hs := stream.reads_readConstantPath token
  unfold TokenStream.readBuilder
  simp only
  split
  · exact hs.trans (TokenStream.reads_readUntil _ _)
  · exact hs.trans (TokenStream.reads_readBlockAfter _ _)

theorem TokenStream.reads_skipConstantPath (stream : TokenStream) :
    stream.Reads stream.skipConstantPath :=
  (stream.reads_skipWhitespace false).trans (TokenStream.reads_read_peek _ _)

theorem TokenStream.reads_skipDefinitionName (stream : TokenStream) :
    stream.Reads stream.skipDefinitionName := by
  have hs := stream.reads_skipConstantPath
  unfold TokenStream.skipDefinitionName
  split
  next h => exact hs.trans (TokenStream.reads_next_skip h)
  next h =>
    split
    · exact (hs.trans (TokenStream.reads_next_skip h)).trans (TokenStream.reads_skipConstantPath _)
    · exact hs.trans (TokenStream.takes_next_skip h).unget

end RakeOutline
