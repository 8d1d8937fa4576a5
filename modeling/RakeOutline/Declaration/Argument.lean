import RakeOutline.Outline.TaskKind
import RakeOutline.Token.Stream

namespace RakeOutline

structure TaskArguments where
  arguments : List String := []
  dependencies : List String := []
  deriving DecidableEq, Repr

/-- The next token that is no space, or the one after it if it is an opening parenthesis. -/
def TokenStream.nextArgument (crossLines : Bool) (stream : TokenStream) :
    Option Token × TokenStream :=
  match (stream.skipWhitespace crossLines).next with
  | (none, stream) => (none, stream)
  | (some token, stream) =>
    if token.kind = .lParen then (stream.skipWhitespace true).next else (some token, stream)

/-- The name of a dependency: a symbol, or for paths also a string. -/
def Token.dependencyName? (kind : TaskKind) (token : Token) : Option String :=
  if token.kind = .symbol ∨ (token.kind = .string ∧ kind.acceptsPaths) then
    some token.literalName
  else none

def symbolNames (tokens : List Token) : List String :=
  (tokens.filter (·.kind = .symbol)).map Token.literalName

/-- Reads what stands after the arrow: an array of dependencies or a single one. -/
def TokenStream.readDependencies (kind : TaskKind) (stream : TokenStream) :
    List String × TokenStream :=
  match (stream.skipWhitespace true).next with
  | (none, stream) => ([], stream)
  | (some token, stream) =>
    if token.kind = .lBracket then
      let (elements, stream) := stream.readUntil [.rBracket]
      (elements.filterMap (·.dependencyName? kind), stream)
    else match token.dependencyName? kind with
      | some name => ([name], stream)
      | none => ([], stream.unget token)

/-- Reads the dependencies if the token that was read last begins an arrow. -/
def TokenStream.readArrow (kind : TaskKind) (token : Token) (stream : TokenStream) :
    List String × TokenStream :=
  match token.kind with
  | .assoc => stream.readDependencies kind
  | .assign =>
    match stream.next with
    | (none, stream) => ([], stream)
    | (some other, stream) =>
      if other.kind = .gt then stream.readDependencies kind else ([], stream.unget other)
  | _ => ([], stream.unget token)

/-- Reads the array of argument names that follows a comma. None if there is no array. -/
def TokenStream.readArgumentNames (stream : TokenStream) : Option (List String) × TokenStream :=
  match (stream.skipWhitespace true).next with
  | (none, stream) => (none, stream)
  | (some token, stream) =>
    if token.kind = .lBracket then
      let (elements, stream) := stream.readUntil [.rBracket]
      (some (symbolNames elements), stream)
    else (none, stream.unget token)

/-- Reads what follows the name of a task. After a label the dependencies come at once. -/
def TokenStream.readTaskArguments (kind : TaskKind) (labelled : Bool) (stream : TokenStream) :
    TaskArguments × TokenStream :=
  if labelled then
    let (dependencies, stream) := stream.readDependencies kind
    (⟨[], dependencies⟩, stream)
  else match (stream.skipWhitespace false).next with
    | (none, stream) => ({}, stream)
    | (some token, stream) =>
      if token.kind = .comma then
        match stream.readArgumentNames with
        | (none, stream) => ({}, stream)
        | (some names, stream) =>
          match (stream.skipWhitespace false).next with
          | (none, stream) => (⟨names, []⟩, stream)
          | (some token, stream) =>
            let (dependencies, stream) := stream.readArrow kind token
            (⟨names, dependencies⟩, stream)
      else
        let (dependencies, stream) := stream.readArrow kind token
        (⟨[], dependencies⟩, stream)

theorem TokenStream.takes_next_skip {stream rest : TokenStream} {crossLines : Bool}
    {token : Token} (h : (stream.skipWhitespace crossLines).next = (some token, rest)) :
    TokenStream.Takes token stream rest :=
  (stream.reads_skipWhitespace crossLines).takes (TokenStream.takes_next h)

theorem TokenStream.reads_next_skip {stream rest : TokenStream} {crossLines : Bool}
    {token : Option Token} (h : (stream.skipWhitespace crossLines).next = (token, rest)) :
    stream.Reads rest := by
  have hn := TokenStream.reads_next (stream.skipWhitespace crossLines)
  rw [h] at hn
  exact (stream.reads_skipWhitespace crossLines).trans hn

theorem TokenStream.takes_nextArgument {stream rest : TokenStream} {crossLines : Bool}
    {token : Token} (h : stream.nextArgument crossLines = (some token, rest)) :
    TokenStream.Takes token stream rest := by
  unfold TokenStream.nextArgument at h
  split at h
  next => simp at h
  next first later hf =>
    have hl := TokenStream.takes_next_skip hf
    split at h
    · exact hl.toReads.takes (TokenStream.takes_next_skip h)
    · obtain ⟨rfl, rfl⟩ : first = token ∧ later = rest := by simpa using h
      exact hl

theorem TokenStream.reads_nextArgument {stream rest : TokenStream} {crossLines : Bool}
    {token : Option Token} (h : stream.nextArgument crossLines = (token, rest)) :
    stream.Reads rest := by
  unfold TokenStream.nextArgument at h
  split at h
  next later hf =>
    obtain ⟨_, rfl⟩ := Prod.mk.inj h
    exact TokenStream.reads_next_skip hf
  next first later hf =>
    have hl := TokenStream.reads_next_skip hf
    split at h
    · exact hl.trans (TokenStream.reads_next_skip h)
    · obtain ⟨_, rfl⟩ := Prod.mk.inj h
      exact hl

theorem TokenStream.reads_readDependencies (kind : TaskKind) (stream : TokenStream) :
    stream.Reads (stream.readDependencies kind).2 := by
  unfold TokenStream.readDependencies
  split
  next h => exact TokenStream.reads_next_skip h
  next h =>
    split
    · exact (TokenStream.reads_next_skip h).trans (TokenStream.reads_readUntil _ _)
    · split
      · exact TokenStream.reads_next_skip h
      · exact (TokenStream.takes_next_skip h).unget

theorem TokenStream.reads_readArgumentNames (stream : TokenStream) :
    stream.Reads stream.readArgumentNames.2 := by
  unfold TokenStream.readArgumentNames
  split
  next h => exact TokenStream.reads_next_skip h
  next h =>
    split
    · exact (TokenStream.reads_next_skip h).trans (TokenStream.reads_readUntil _ _)
    · exact (TokenStream.takes_next_skip h).unget

theorem TokenStream.Takes.readArrow {stream rest : TokenStream} {token : Token}
    (h : TokenStream.Takes token stream rest) (kind : TaskKind) :
    stream.Reads (rest.readArrow kind token).2 := by
  unfold TokenStream.readArrow
  split
  · exact h.toReads.trans (TokenStream.reads_readDependencies _ _)
  · split
    next hn => exact (TokenStream.next_eq_none hn).1 ▸ h.toReads
    next hn =>
      have ht := h.toReads.takes (TokenStream.takes_next hn)
      split
      · exact ht.toReads.trans (TokenStream.reads_readDependencies _ _)
      · exact ht.unget
  · exact h.unget

theorem TokenStream.reads_readTaskArguments (kind : TaskKind) (labelled : Bool)
    (stream : TokenStream) : stream.Reads (stream.readTaskArguments kind labelled).2 := by
  unfold TokenStream.readTaskArguments
  split
  · exact TokenStream.reads_readDependencies _ _
  · split
    next h => exact TokenStream.reads_next_skip h
    next token later h =>
      split
      · have hl := (TokenStream.reads_next_skip h).trans later.reads_readArgumentNames
        split
        next hr => rw [hr] at hl; exact hl
        next hr =>
          rw [hr] at hl
          split
          next hs => exact hl.trans (TokenStream.reads_next_skip hs)
          next hs => exact hl.trans ((TokenStream.takes_next_skip hs).readArrow kind)
      · exact (TokenStream.takes_next_skip h).readArrow kind

end RakeOutline
