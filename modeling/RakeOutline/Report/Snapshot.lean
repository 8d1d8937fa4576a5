import RakeOutline.Outline.Document

namespace RakeOutline

inductive NodeKind
  | document
  | scope
  | task (kind : TaskKind)
  | builder
  | require (relative : Bool)
  deriving DecidableEq, Repr

def NodeKind.name : NodeKind → String
  | .document => "Document"
  | .scope => "Namespace"
  | .task .task => "Task"
  | .task .multitask => "Multitask"
  | .task .file => "FileTask"
  | .task .directory => "DirectoryTask"
  | .builder => "Include"
  | .require false => "Require"
  | .require true => "RequireRelative"

structure Node where
  kind : NodeKind
  label : String
  line : Option Nat
  deriving DecidableEq, Repr

structure Snapshot where
  node : Node
  children : List Snapshot
  deriving Repr

def Document.node (document : Document) : Node :=
  ⟨.document, document.file, none⟩

def Namespace.node (space : Namespace) : Node :=
  ⟨.scope, space.name, none⟩

def Task.label (task : Task) : String :=
  if task.dependencies.isEmpty then task.name
  else task.name ++ " => [" ++ ", ".intercalate task.dependencies ++ "]"

def Task.node (task : Task) : Node :=
  ⟨.task task.kind, task.label, some task.line⟩

def Include.node (constant : Include) : Node :=
  ⟨.builder, constant.name, some constant.line⟩

def Require.node (file : Require) : Node :=
  ⟨.require file.relative, file.name, some file.line⟩

def Namespace.toText (space : Namespace) : String :=
  s!"Namespace('{space.name}', {space.tasks.length} tasks, {space.children.length} namespaces)"

def Task.toText (task : Task) : String :=
  s!"Task('{task.name}', {task.dependencies.length} dependencies)"

def Include.toText (constant : Include) : String :=
  s!"Include('{constant.name}')"

def Require.toText (file : Require) : String :=
  s!"Require('{file.name}')"

def Node.leaf (node : Node) : Snapshot :=
  ⟨node, []⟩

/-- The tree of a namespace: includes, then tasks, then the namespaces inside it. -/
def Document.namespaceSnapshot (document : Document) (id : NamespaceId) : List Snapshot :=
  document.fold (fun id space inner =>
    ⟨space.node, space.includes.map (·.node.leaf) ++ (document.tasksIn id).map (·.node.leaf) ++
      inner⟩) id

def Document.snapshot (document : Document) : Snapshot :=
  ⟨document.node, document.requires.map (·.node.leaf) ++
    document.namespaceSnapshot Document.rootId⟩

mutual

def Snapshot.nodeCount : Snapshot → Nat
  | ⟨_, children⟩ => 1 + nodeCounts children

def nodeCounts : List Snapshot → Nat
  | [] => 0
  | first :: rest => first.nodeCount + nodeCounts rest

end

end RakeOutline
