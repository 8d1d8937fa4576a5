import RakeOutline.Proofs.Blocks
import RakeOutline.Scan.Context

namespace RakeOutline

/-- A token without the place where it stands. -/
abbrev Word := TokenKind × String

/-- The line and the column of each token that a statement writes itself, in writing order. -/
abbrev Layout := Nat → Nat × Nat

def Layout.token (layout : Layout) (i : Nat) (word : Word) : Token :=
  ⟨word.1, (layout i).1, (layout i).2, word.2⟩

def Layout.spell (layout : Layout) : Nat → List Word → List Token
  | _, [] => []
  | i, word :: words => layout.token i word :: layout.spell (i + 1) words

/-- What stands inside a block: any run in which blocks are closed. -/
structure Block where
  tokens : List Token
  balanced : Balanced tokens

structure Builder where
  constant : String
  recorded : ({} : ScanOptions).ignores constant = false

structure Condition where
  word : String
  plain : Directive.ofIdentifier? word = none

/-- A task as it is written: its dependencies, if it has an arrow, and its block. -/
structure WrittenTask where
  kind : TaskKind
  name : String
  dependencies : Option (List String)
  block : Option Block

inductive Statement
  | describe (layout : Layout) (text : String)
  | declare (layout : Layout) (task : WrittenTask)
  | enclose (layout : Layout) (name : String) (statements : List Statement)
  | require (layout : Layout) (file : String)
  | build (layout : Layout) (builder : Builder) (method : String) (block : Block)
  | guard (layout : Layout) (condition : Condition) (statements : List Statement)

def Word.identifier (name : String) : Word := (.identifier, name)

def Word.symbol (name : String) : Word := (.symbol, ":" ++ name)

def Word.string (text : String) : Word := (.string, text)

def Word.space : Word := (.space, " ")

def Word.newline : Word := (.newline, "\n")

def Word.opener : Word := (.doBlock, "do")

def Word.closer : Word := (.endBlock, "end")

def Word.symbols : List String → List Word
  | [] => []
  | [name] => [Word.symbol name]
  | name :: next :: names =>
    Word.symbol name :: (.comma, ",") :: Word.space :: Word.symbols (next :: names)

def WrittenTask.head (task : WrittenTask) : List Word :=
  [Word.identifier task.kind.name, Word.space, Word.symbol task.name]

def WrittenTask.arrow (task : WrittenTask) : List Word :=
  match task.dependencies with
  | none => []
  | some names =>
    [Word.space, (.assoc, "=>"), Word.space, (.lBracket, "[")] ++
      (Word.symbols names ++ [(.rBracket, "]")])

def WrittenTask.render (task : WrittenTask) (layout : Layout) : List Token :=
  let line := task.head ++ task.arrow
  match task.block with
  | none => layout.spell 0 (line ++ [Word.newline])
  | some block =>
    layout.spell 0 (line ++ [Word.space, Word.opener, Word.newline]) ++ block.tokens ++
      layout.spell (line.length + 3) [Word.closer, Word.newline]

mutual

def Statement.render : Statement → List Token
  | .describe layout text =>
    layout.spell 0 [Word.identifier "desc", Word.space, Word.string text, Word.newline]
  | .declare layout task => task.render layout
  | .enclose layout name statements =>
    layout.spell 0 [Word.identifier "namespace", Word.space, Word.symbol name, Word.space,
        Word.opener, Word.newline] ++
      renderAll statements ++ layout.spell 6 [Word.closer, Word.newline]
  | .require layout file =>
    layout.spell 0 [Word.identifier "require", Word.space, Word.string file, Word.newline]
  | .build layout builder method block =>
    layout.spell 0 [(.constant, builder.constant), (.dot, "."), Word.identifier method,
        Word.space, Word.opener, Word.newline] ++
      block.tokens ++ layout.spell 6 [Word.closer, Word.newline]
  | .guard layout condition statements =>
    layout.spell 0 [(.ifBlock, "if"), Word.space, Word.identifier condition.word,
        Word.newline] ++
      renderAll statements ++ layout.spell 4 [Word.closer, Word.newline]

def renderAll : List Statement → List Token
  | [] => []
  | statement :: statements => statement.render ++ renderAll statements

end

/-- An outline under way and the description that waits for the next task. -/
structure Draft where
  document : Document
  comment : Option String := none

def WrittenTask.tail (task : WrittenTask) : List Word :=
  match task.dependencies, task.block with
  | none, some _ => [Word.space]
  | _, _ => task.arrow

def WrittenTask.signature (task : WrittenTask) (layout : Layout) : List Token :=
  layout.spell 0 (task.head ++ task.tail)

def WrittenTask.body (task : WrittenTask) (layout : Layout) : List Token :=
  let n := (task.head ++ task.arrow).length
  match task.dependencies, task.block with
  | _, none => layout.spell n [Word.newline]
  | none, some block =>
    layout.spell (n + 1) [Word.opener, Word.newline] ++ block.tokens ++
      layout.spell (n + 3) [Word.closer]
  | some _, some block =>
    layout.spell n [Word.space, Word.opener, Word.newline] ++ block.tokens ++
      layout.spell (n + 3) [Word.closer]

def WrittenTask.dependencyNames (task : WrittenTask) : List String :=
  (task.dependencies.getD []).map unquoteText

/-- Adds the task to a namespace, or its dependencies to the task of that name which the namespace
has already. The description is used up in both cases. -/
def Draft.declare (draft : Draft) (container : NamespaceId) (layout : Layout)
    (task : WrittenTask) : Draft where
  document :=
    match draft.document.findTask? container (":" ++ task.name) with
    | some id => draft.document.modifyTask id fun known =>
        { known with dependencies := known.dependencies ++ task.dependencyNames }
    | none => (draft.document.addTask {
        name := ":" ++ task.name
        kind := task.kind
        container := container
        dependencies := task.dependencyNames
        comment := draft.comment.getD ""
        text := task.kind.name ++ " :" ++ task.name
        line := (layout 0).1
        signature := task.signature layout
        body := task.body layout }).2

/-- The namespace of the given name inside another one, which is made if it is new. -/
def Document.subspace (document : Document) (parent : NamespaceId) (name : String) :
    NamespaceId × Document :=
  match document.findChild? parent name with
  | some id => (id, document)
  | none => document.addNamespace parent name

mutual

/-- What a statement adds when it stands in the given namespace. -/
def Statement.interpret (container : NamespaceId) (draft : Draft) : Statement → Draft
  | .describe _ text => { draft with comment := some (unquoteText text) }
  | .declare layout task => draft.declare container layout task
  | .enclose _ name statements =>
    let (inner, document) := draft.document.subspace container (unquoteText name)
    interpretAll inner { draft with document } statements
  | .require layout file =>
    { draft with document := draft.document.addRequire ⟨unquoteText file, false, (layout 2).1⟩ }
  | .build layout builder _ _ =>
    { draft with
      document := draft.document.addInclude container ⟨builder.constant, (layout 0).1⟩ }
  | .guard _ _ statements => interpretAll container draft statements

def interpretAll (container : NamespaceId) (draft : Draft) : List Statement → Draft
  | [] => draft
  | statement :: statements =>
    interpretAll container (statement.interpret container draft) statements

end

end RakeOutline
