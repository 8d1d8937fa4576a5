import RakeOutline.Declaration.Basic

namespace RakeOutline

abbrev NamespaceId := Nat

abbrev TaskId := Nat

structure Task where
  name : String
  kind : TaskKind
  container : NamespaceId
  dependencies : List String := []
  arguments : List String := []
  comment : String := ""
  text : String
  line : Nat
  signature : List Token := []
  body : List Token := []
  deriving DecidableEq, Repr, Inhabited

/-- The name by which Rake knows the task inside its namespace. -/
def Task.rakeName (task : Task) : String :=
  String.ofList (unquote (dropColon task.name.toList))

def Task.tokens (task : Task) : List Token :=
  task.signature ++ task.body

def Task.hasBlock (task : Task) : Bool :=
  task.body.any (·.kind.opensBlock)

structure Namespace where
  name : String
  parent : Option NamespaceId
  children : List NamespaceId := []
  tasks : List TaskId := []
  includes : List Include := []
  deriving DecidableEq, Repr, Inhabited

def Namespace.isRoot (space : Namespace) : Bool :=
  space.parent.isNone

/-- Namespaces and tasks are known by their place in the order in which they were first seen. The
index finds a task by its namespace and its name; its newest entry stands first. -/
structure Document where
  file : String
  requires : List Require
  namespaces : List Namespace
  tasks : List Task
  taskIndex : List ((NamespaceId × String) × TaskId)
  deriving DecidableEq, Repr

def rootName : String :=
  "Rake Tasks"

def Document.new (file : String) : Document :=
  ⟨file, [], [⟨rootName, none, [], [], []⟩], [], []⟩

def Document.rootId : NamespaceId := 0

def Document.namespaceCount (document : Document) : Nat :=
  document.namespaces.length

def Document.taskCount (document : Document) : Nat :=
  document.tasks.length

def Document.namespace? (document : Document) (id : NamespaceId) : Option Namespace :=
  document.namespaces[id]?

def Document.task? (document : Document) (id : TaskId) : Option Task :=
  document.tasks[id]?

def Document.childrenOf (document : Document) (id : NamespaceId) :
    List (NamespaceId × Namespace) :=
  ((document.namespace? id).elim [] Namespace.children).filterMap fun child =>
    (document.namespace? child).map fun space => (child, space)

def Document.tasksIn (document : Document) (id : NamespaceId) : List Task :=
  ((document.namespace? id).elim [] Namespace.tasks).filterMap document.task?

def Document.findChild? (document : Document) (parent : NamespaceId) (name : String) :
    Option NamespaceId :=
  ((document.childrenOf parent).find? (·.2.name == name)).map Prod.fst

/-- Follows the names from the root down. -/
def Document.findNamespace? (document : Document) (path : List String) : Option NamespaceId :=
  path.foldlM document.findChild? Document.rootId

def Document.findTask? (document : Document) (container : NamespaceId) (name : String) :
    Option TaskId :=
  document.taskIndex.lookup (container, name)

def Document.modifyNamespace (document : Document) (id : NamespaceId)
    (change : Namespace → Namespace) : Document :=
  { document with namespaces := document.namespaces.modify id change }

def Document.modifyTask (document : Document) (id : TaskId) (change : Task → Task) : Document :=
  { document with tasks := document.tasks.modify id change }

def Document.addNamespace (document : Document) (parent : NamespaceId) (name : String) :
    NamespaceId × Document :=
  let id := document.namespaceCount
  let document := document.modifyNamespace parent fun space =>
    { space with children := space.children ++ [id] }
  (id, { document with namespaces := document.namespaces ++ [⟨name, some parent, [], [], []⟩] })

/-- Adds a task to its namespace, unless the namespace has a task of that name. -/
def Document.addTask (document : Document) (task : Task) : TaskId × Document :=
  match document.findTask? task.container task.name with
  | some id => (id, document)
  | none =>
    let id := document.taskCount
    let document := document.modifyNamespace task.container fun space =>
      { space with tasks := space.tasks ++ [id] }
    (id, { document with
      tasks := document.tasks ++ [task]
      taskIndex := ((task.container, task.name), id) :: document.taskIndex })

def Document.addInclude (document : Document) (id : NamespaceId) (constant : Include) : Document :=
  document.modifyNamespace id fun space => { space with includes := space.includes ++ [constant] }

def Document.addRequire (document : Document) (file : Require) : Document :=
  { document with requires := document.requires ++ [file] }

/-- The names of the namespaces from the root down to the given one, the root left out. A parent
is older than its children, so the way up ends. -/
def Document.namespacePath (document : Document) (id : NamespaceId) : List String :=
  match document.namespace? id with
  | none => []
  | some space =>
    match space.parent with
    | none => []
    | some parent =>
      if parent < id then document.namespacePath parent ++ [space.name] else [space.name]
termination_by id

def Document.qualifiedName (document : Document) (task : Task) : String :=
  ":".intercalate (document.namespacePath task.container ++ [task.rakeName])

/-- Builds a value for a namespace from those of the namespaces inside it. Children are younger
than their parent, so the way down ends. -/
def Document.fold {α : Type} (document : Document)
    (node : NamespaceId → Namespace → List α → α) (id : NamespaceId) : List α :=
  if h : id < document.namespaces.length then
    let space := document.namespaces[id]
    [node id space (space.children.flatMap fun child =>
      if id < child then document.fold node child else [])]
  else []
termination_by document.namespaces.length - id
decreasing_by exact Nat.sub_lt_sub_left h ‹_›

/-- Every task once: those of a namespace, then those of the namespaces inside it. -/
def Document.allTasks (document : Document) : List TaskId :=
  (document.fold (fun _ space inner => space.tasks ++ inner.flatten) Document.rootId).flatten

end RakeOutline
