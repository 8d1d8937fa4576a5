import RakeOutline.Declaration.Basic
import RakeOutline.Text.Blank

namespace RakeOutline

inductive Directive
  | describe
  | declare (kind : TaskKind)
  | openNamespace
  | require (relative : Bool)
  deriving DecidableEq, Repr

def Directive.ofIdentifier? (name : String) : Option Directive :=
  match name with
  | "desc" => some .describe
  | "namespace" => some .openNamespace
  | "require" => some (.require false)
  | "require_relative" => some (.require true)
  | _ => (TaskKind.ofName? name).map .declare

inductive Event
  | described (text : String)
  | declared (declaration : Declaration)
  | entered (name : String)
  | left
  | required (file : Require)
  | included (constant : Include)
  deriving DecidableEq, Repr

/-- How the reading of a scope ends: at the `end` of the scope, at a comment that ends the
documented part, or at the end of the script. -/
inductive Flow
  | proceed
  | endOfDocument
  | endOfInput
  deriving DecidableEq, Repr

def Flow.isAbort (flow : Flow) : Bool :=
  flow ≠ .proceed

/-- The number of open blocks outside a namespace, and the number at which the scope around it
ends. -/
structure Level where
  depth : Int
  floor : Int
  deriving DecidableEq, Repr

/-- Reading at some place of a Rakefile. The scope ends at the `end` that takes the number of
open blocks down to its floor; a floor that is not positive is never reached. -/
structure Reader where
  stream : TokenStream
  depth : Int
  floor : Int
  afterCall : Bool := false
  outer : List Level := []
  deriving Repr

structure Reading where
  flow : Flow
  events : List Event
  stream : TokenStream
  depth : Int
  deriving Repr

/-- One token and what belongs to it: go on, or stop. -/
inductive Step
  | more (events : List Event) (reader : Reader)
  | done (flow : Flow) (reader : Reader)
  deriving Repr

inductive Role
  | constant
  | definition
  | method
  | opener
  | closer
  | word
  | scriptEnd
  | comment
  | plain
  deriving DecidableEq, Repr

def TokenKind.role : TokenKind → Role
  | .constant => .constant
  | .classBlock | .moduleBlock => .definition
  | .defBlock => .method
  | .endBlock => .closer
  | .identifier => .word
  | .endOfScript => .scriptEnd
  | .comment => .comment
  | kind => if kind.opensBlock then .opener else .plain

def isEndOfDocument (comment : String) : Bool :=
  trim (comment.toList.dropWhile (· == '#')) == ":enddoc:".toList

def Reader.follow (reader : Reader) (read : List Event × TokenStream) : Step :=
  .more read.1 { reader with stream := read.2 }

/-- The `end` of a block, which may also end the scope. -/
def Reader.closeBlock (reader : Reader) : Step :=
  if 0 < reader.floor ∧ reader.depth - 1 ≤ reader.floor then
    match reader.outer with
    | [] => .done .proceed { reader with depth := reader.depth - 1 }
    | level :: outer =>
      .more [.left] { reader with depth := level.depth, floor := level.floor, outer := outer }
  else .more [] { reader with depth := reader.depth - 1 }

def Reader.openNamespace (reader : Reader) : Step :=
  match reader.stream.readNamespaceHead with
  | (.missing, stream) => .done .endOfInput { reader with stream := stream }
  | (.unnamed, stream) => .more [] { reader with stream := stream }
  | (.named name, stream) =>
    .more [.entered name] { reader with
      stream := stream, depth := reader.depth + 1, floor := reader.depth + 1
      outer := ⟨reader.depth, reader.floor⟩ :: reader.outer }

/-- Reads what a directive asks for; `token` is the word that names it. -/
def Reader.obey (directive : Directive) (token : Token) (reader : Reader) : Step :=
  match directive with
  | .describe =>
    let (text, stream) := reader.stream.readDescription
    reader.follow (text.toList.map .described, stream)
  | .declare kind =>
    let (declaration, stream) := reader.stream.readDeclaration kind token
    reader.follow (declaration.toList.map .declared, stream)
  | .require relative =>
    let (file, stream) := reader.stream.readRequire relative
    reader.follow (file.toList.map .required, stream)
  | .openNamespace => reader.openNamespace

/-- Reads what belongs to a token that has just been read; `called` tells whether a dot or a double
colon stands before it. -/
def Reader.dispatch (ignored : List String) (called : Bool) (token : Token) (reader : Reader) :
    Step :=
  match token.kind.role with
  | .constant =>
    let (constant, stream) := reader.stream.readBuilder ignored token
    reader.follow (constant.toList.map .included, stream)
  | .definition =>
    .more [] { reader with depth := reader.depth + 1, stream := reader.stream.skipDefinitionName }
  | .method =>
    .more [] { reader with
      depth := reader.depth + 1, stream := (reader.stream.skipWhitespace false).next.2 }
  | .opener => .more [] { reader with depth := reader.depth + 1 }
  | .closer => reader.closeBlock
  | .word =>
    if called then .more [] reader
    else match Directive.ofIdentifier? token.text with
      | none => .more [] reader
      | some directive => reader.obey directive token
  | .scriptEnd => .done .endOfInput reader
  | .comment => if isEndOfDocument token.text then .done .endOfDocument reader else .more [] reader
  | .plain => .more [] reader

def Reader.step (ignored : List String) (reader : Reader) : Step :=
  match reader.stream.next with
  | (none, stream) => .done .endOfInput { reader with stream := stream }
  | (some token, stream) =>
    { reader with stream := stream, afterCall := token.kind.isCall }.dispatch ignored
      reader.afterCall token

def Reader.finish (flow : Flow) (reader : Reader) : Reading where
  flow := flow
  events := reader.outer.map fun _ => .left
  stream := reader.stream
  depth := (reader.outer.getLast?.map Level.depth).getD reader.depth

def Step.stream : Step → TokenStream
  | .more _ reader => reader.stream
  | .done _ reader => reader.stream

@[simp] theorem Step.stream_more (events : List Event) (reader : Reader) :
    (Step.more events reader).stream = reader.stream := rfl

@[simp] theorem Reader.stream_follow (reader : Reader) (read : List Event × TokenStream) :
    (reader.follow read).stream = read.2 := rfl

@[simp] theorem Reader.stream_closeBlock (reader : Reader) :
    reader.closeBlock.stream = reader.stream := by
  unfold Reader.closeBlock
  split
  · split <;> rfl
  · rfl

theorem Reader.reads_openNamespace (reader : Reader) :
    reader.stream.Reads reader.openNamespace.stream := by
  have hs := reader.stream.reads_readNamespaceHead
  unfold Reader.openNamespace
  split
  all_goals next h => rw [h] at hs; exact hs

theorem Reader.reads_obey (directive : Directive) (token : Token) (reader : Reader) :
    reader.stream.Reads (reader.obey directive token).stream := by
  cases directive with
  | describe => simpa [Reader.obey] using reader.stream.reads_readDescription
  | declare kind => simpa [Reader.obey] using reader.stream.reads_readDeclaration kind token
  | openNamespace => exact reader.reads_openNamespace
  | require relative => simpa [Reader.obey] using reader.stream.reads_readRequire relative

theorem Reader.reads_dispatch (ignored : List String) (called : Bool) (token : Token)
    (reader : Reader) : reader.stream.Reads (reader.dispatch ignored called token).stream := by
  unfold Reader.dispatch
  split
  · simpa using reader.stream.reads_readBuilder ignored token
  · simpa using reader.stream.reads_skipDefinitionName
  · simpa using (reader.stream.reads_skipWhitespace false).trans (TokenStream.reads_next _)
  · exact .refl reader.stream
  · simpa using .refl reader.stream
  · split
    · exact .refl reader.stream
    · split
      · exact .refl reader.stream
      · exact reader.reads_obey _ token
  · exact .refl reader.stream
  · split <;> exact .refl reader.stream
  · exact .refl reader.stream

/-- A step that goes on has read a token. -/
theorem Reader.length_step {ignored : List String} {reader later : Reader} {events : List Event}
    (h : reader.step ignored = .more events later) :
    later.stream.tokens.length < reader.stream.tokens.length := by
  unfold Reader.step at h
  split at h
  next => simp at h
  next token stream hn =>
    have hs := Reader.reads_dispatch ignored reader.afterCall token
      { reader with stream := stream, afterCall := token.kind.isCall }
    rw [h] at hs
    have hl : later.stream.tokens.length ≤ stream.tokens.length := hs.suffix.length_le
    rw [(TokenStream.consumes_next hn).1.tokens, List.length_append, List.length_singleton]
    omega

def Reader.run (ignored : List String) (reader : Reader) : Reading :=
  match _h : reader.step ignored with
  | .done flow reader => reader.finish flow
  | .more events later =>
    let reading := later.run ignored
    { reading with events := events ++ reading.events }
termination_by reader.stream.tokens.length
decreasing_by exact Reader.length_step _h

/-- Reads a scope that begins with the given number of open blocks. -/
def TokenStream.readScope (ignored : List String) (depth : Int) (stream : TokenStream) : Reading :=
  { stream, depth, floor := depth : Reader }.run ignored

end RakeOutline
