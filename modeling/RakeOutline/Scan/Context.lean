import RakeOutline.Outline.Tally
import RakeOutline.Scan.Event

namespace RakeOutline

structure ScanOptions where
  ignoredConstants : List String := ["ENV"]
  captureTokens : Bool := true
  deriving DecidableEq, Repr

def ScanOptions.ignores (options : ScanOptions) (name : String) : Bool :=
  options.ignoredConstants.contains name

/-- The description that the next task declaration takes. -/
structure PendingDescription where
  text? : Option String := none
  deriving DecidableEq, Repr

def PendingDescription.isEmpty (pending : PendingDescription) : Bool :=
  pending.text?.isNone

def PendingDescription.text (pending : PendingDescription) : String :=
  pending.text?.getD ""

def PendingDescription.set (text : String) : PendingDescription :=
  ⟨some text⟩

def PendingDescription.take (pending : PendingDescription) : String × PendingDescription :=
  (pending.text, ⟨none⟩)

/-- A scan under way: the outline so far, the namespace that declarations go to, the number of open
blocks and the pending description. -/
structure Context where
  document : Document
  tally : Tally
  options : ScanOptions
  container : NamespaceId
  depth : Int
  description : PendingDescription
  deriving DecidableEq, Repr

/-- A scan at the start of a file, which counts the file and its root namespace. -/
def Context.new (file : String) (tally : Tally) (options : ScanOptions) : Context where
  document := Document.new file
  tally := tally.addFile.addNamespace
  options := options
  container := Document.rootId
  depth := 0
  description := {}

def Task.ofDeclaration (container : NamespaceId) (comment : String) (captureTokens : Bool)
    (declaration : Declaration) : Task where
  name := declaration.name
  kind := declaration.kind
  container := container
  dependencies := declaration.dependencies
  arguments := declaration.arguments
  comment := comment
  text := declaration.text
  line := declaration.line
  signature := if captureTokens then declaration.signature else []
  body := if captureTokens then declaration.body else []

/-- A later declaration adds dependencies, and arguments if there are none yet. -/
def Task.merge (task : Task) (declaration : Declaration) : Task :=
  { task with
    dependencies := task.dependencies ++ declaration.dependencies
    arguments := if task.arguments.isEmpty then declaration.arguments else task.arguments }

/-- Declares a task in the current namespace. The pending description is used up even when the
task is known already. -/
def Context.declare (context : Context) (declaration : Declaration) : Context :=
  let (comment, description) := context.description.take
  match context.document.findTask? context.container declaration.name with
  | some id =>
    { context with
      document := context.document.modifyTask id (·.merge declaration)
      description := description }
  | none =>
    { context with
      document := (context.document.addTask
        (.ofDeclaration context.container comment context.options.captureTokens declaration)).2
      tally := context.tally.addTask
      description := description }

/-- Goes into the namespace of the given name, which is made if it is new. -/
def Context.enter (context : Context) (name : String) : Context :=
  match context.document.findChild? context.container name with
  | some id => { context with container := id }
  | none =>
    let (id, document) := context.document.addNamespace context.container name
    { context with document := document, tally := context.tally.addNamespace, container := id }

def Context.leave (context : Context) : Context :=
  let parent := (context.document.namespace? context.container).bind Namespace.parent
  { context with container := parent.getD context.container }

def Context.apply (context : Context) (event : Event) : Context :=
  match event with
  | .described text => { context with description := .set text }
  | .declared declaration => context.declare declaration
  | .entered name => context.enter name
  | .left => context.leave
  | .required file => { context with document := context.document.addRequire file }
  | .included constant =>
    { context with document := context.document.addInclude context.container constant }

def Context.applyAll (context : Context) (events : List Event) : Context :=
  events.foldl Context.apply context

/-- Scans a scope: all that stands before its `end`. -/
def Context.scanScope (context : Context) (stream : TokenStream) : Flow × Context × TokenStream :=
  let reading := stream.readScope context.options.ignoredConstants context.depth
  (reading.flow, { context.applyAll reading.events with depth := reading.depth }, reading.stream)

def Context.scanNamespace (context : Context) (stream : TokenStream) :
    Flow × Context × TokenStream :=
  match stream.readNamespaceHead with
  | (.missing, stream) => (.endOfInput, context, stream)
  | (.unnamed, stream) => (.proceed, context, stream)
  | (.named name, stream) =>
    let inner := context.enter name
    let (flow, inner, stream) := { inner with depth := context.depth + 1 }.scanScope stream
    (flow, { inner.leave with depth := context.depth }, stream)

def Context.scanTask (context : Context) (kind : TaskKind) (keyword : Token)
    (stream : TokenStream) : Option TaskId × Context × TokenStream :=
  match stream.readDeclaration kind keyword with
  | (none, stream) => (none, context, stream)
  | (some declaration, stream) =>
    let context := context.declare declaration
    (context.document.findTask? context.container declaration.name, context, stream)

def Context.scanBuilder (context : Context) (token : Token) (stream : TokenStream) :
    Context × TokenStream :=
  let (constant, stream) := stream.readBuilder context.options.ignoredConstants token
  (context.applyAll (constant.toList.map .included), stream)

def Context.scanDescription (context : Context) (stream : TokenStream) : Context × TokenStream :=
  let (text, stream) := stream.readDescription
  (context.applyAll (text.toList.map .described), stream)

def Context.scanRequire (context : Context) (relative : Bool) (stream : TokenStream) :
    Context × TokenStream :=
  let (file, stream) := stream.readRequire relative
  (context.applyAll (file.toList.map .required), stream)

/-- The outline of a run of tokens, and the tally with what was found added. -/
def scanTokens (file : String) (tokens : List Token) (options : ScanOptions) (tally : Tally) :
    Document × Tally :=
  let (_, context, _) := (Context.new file tally options).scanScope { unread := tokens }
  (context.document, context.tally)

def scanSource (file source : String) (options : ScanOptions) (tally : Tally) :
    Document × Tally :=
  scanTokens file (lex source) options tally

def parseDocument (source : String) : Document :=
  (scanSource "Rakefile" source {} {}).1

end RakeOutline
