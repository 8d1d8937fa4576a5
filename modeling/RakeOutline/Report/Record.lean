import RakeOutline.Outline.Document
import RakeOutline.Report.Data

namespace RakeOutline

structure TaskRecord where
  name : String
  qualifiedName : String
  kind : TaskKind
  line : Nat
  comment : String
  text : String
  dependencies : List String
  arguments : List String
  deriving DecidableEq, Repr

structure NamespaceRecord where
  name : String
  includes : List Include
  tasks : List TaskRecord
  namespaces : List NamespaceRecord
  deriving Repr

structure DocumentRecord where
  file : String
  requires : List Require
  root : NamespaceRecord
  deriving Repr

def Document.taskRecord (document : Document) (task : Task) : TaskRecord where
  name := task.name
  qualifiedName := document.qualifiedName task
  kind := task.kind
  line := task.line
  comment := task.comment
  text := task.text
  dependencies := task.dependencies
  arguments := task.arguments

/-- The record of a namespace. It stands alone in the list, which is empty if there is no such
namespace. -/
def Document.namespaceRecord (document : Document) (id : NamespaceId) : List NamespaceRecord :=
  document.fold (fun id space inner =>
    ⟨space.name, space.includes, (document.tasksIn id).map document.taskRecord, inner⟩) id

def Document.record (document : Document) : DocumentRecord where
  file := document.file
  requires := document.requires
  root := (document.namespaceRecord Document.rootId).headD ⟨rootName, [], [], []⟩

def Include.data (constant : Include) : Data :=
  .record [("name", .text constant.name), ("line", .number constant.line)]

def Require.data (file : Require) : Data :=
  .record [("name", .text file.name), ("relative", .flag file.relative),
    ("line", .number file.line)]

def TaskRecord.data (task : TaskRecord) : Data :=
  .record ([("name", .text task.name), ("qualified_name", .text task.qualifiedName),
    ("kind", .text task.kind.name), ("line", .number task.line), ("comment", .text task.comment),
    ("text", .text task.text), ("dependencies", .texts task.dependencies)] ++
    Data.unlessEmpty "arguments" (task.arguments.map .text))

mutual

def NamespaceRecord.data : NamespaceRecord → Data
  | ⟨name, includes, tasks, namespaces⟩ =>
    .record ([("name", .text name)] ++ Data.unlessEmpty "includes" (includes.map Include.data) ++
      [("tasks", .list (tasks.map TaskRecord.data))] ++
      Data.unlessEmpty "namespaces" (namespaceData namespaces))

def namespaceData : List NamespaceRecord → List Data
  | [] => []
  | first :: rest => first.data :: namespaceData rest

end

def DocumentRecord.data (record : DocumentRecord) : Data :=
  .record [("file", .text record.file), ("requires", .list (record.requires.map Require.data)),
    ("root", record.root.data)]

end RakeOutline
