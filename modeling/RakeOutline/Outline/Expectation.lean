import RakeOutline.Outline.Document
import RakeOutline.Text.Listing

namespace RakeOutline

inductive CheckFailure
  | differs (what found expected : String)
  | noNamespace (path : String)
  | noTask (place name : String)
  deriving DecidableEq, Repr

def CheckFailure.message : CheckFailure → String
  | .differs what found expected =>
    "assertion `left == right` failed: " ++ what ++ "\n  left: " ++ found ++ "\n right: " ++ expected
  | .noNamespace path => s!"No namespace '{path}'"
  | .noTask place name => s!"{place}: no task '{name}'"

def expect {α : Type} [DecidableEq α] (what : String) (write : α → String) (found expected : α) :
    Except CheckFailure Unit :=
  if found = expected then .ok () else .error (.differs what (write found) (write expected))

inductive TaskCheck
  | comment (expected : String)
  | text (expected : String)
  | dependencies (expected : List String)
  | arguments (expected : List String)
  | kind (expected : TaskKind)
  | line (expected : Nat)
  | hasBlock (expected : Bool)
  deriving DecidableEq, Repr

inductive NamespaceCheck
  | name (expected : String)
  | taskCount (expected : Nat)
  | taskNames (expected : List String)
  | includeNames (expected : List String)
  | namespaceNames (expected : List String)
  | task (name : String) (checks : List TaskCheck)
  deriving DecidableEq, Repr

inductive DocumentCheck
  | taskCount (expected : Nat)
  | qualifiedTaskNames (expected : List String)
  | requireNames (expected : List String)
  | root (checks : List NamespaceCheck)
  | namespace (path : List String) (checks : List NamespaceCheck)
  deriving DecidableEq, Repr

def Task.check (task : Task) (place : String) (check : TaskCheck) : Except CheckFailure Unit :=
  match check with
  | .comment expected => expect (place ++ ": comment") listed task.comment expected
  | .text expected => expect (place ++ ": text") listed task.text expected
  | .dependencies expected =>
    expect (place ++ ": dependencies") listedAll task.dependencies expected
  | .arguments expected => expect (place ++ ": arguments") listedAll task.arguments expected
  | .kind expected => expect (place ++ ": kind") TaskKind.title task.kind expected
  | .line expected => expect (place ++ ": line") Nat.repr task.line expected
  | .hasBlock expected =>
    expect (place ++ ": has block, body was " ++ listed (sourceOf task.body)) toString
      task.hasBlock expected

def Document.checkNamespace (document : Document) (id : NamespaceId) (place : String)
    (check : NamespaceCheck) : Except CheckFailure Unit :=
  let space := (document.namespace? id).getD default
  match check with
  | .name expected => expect (place ++ ": name") listed space.name expected
  | .taskCount expected =>
    let found := space.tasks.length
    expect s!"{place}: expected {expected} tasks, found {found}" Nat.repr found expected
  | .taskNames expected =>
    expect (place ++ ": task names") listedAll ((document.tasksIn id).map Task.name) expected
  | .includeNames expected =>
    expect (place ++ ": includes") listedAll (space.includes.map Include.name) expected
  | .namespaceNames expected =>
    expect (place ++ ": nested namespaces") listedAll
      ((document.childrenOf id).map (·.2.name)) expected
  | .task name checks =>
    match (document.findTask? id name).bind document.task? with
    | none => .error (.noTask place name)
    | some task => checks.forM (task.check (place ++ "/" ++ name))

def Document.qualifiedNames (document : Document) : List String :=
  document.allTasks.filterMap fun id => (document.task? id).map document.qualifiedName

def Document.check (document : Document) (check : DocumentCheck) : Except CheckFailure Unit :=
  match check with
  | .taskCount expected =>
    let found := document.taskCount
    let names := ", ".intercalate document.qualifiedNames
    expect s!"Expected {expected} tasks, found {found}: [{names}]" Nat.repr found expected
  | .qualifiedTaskNames expected =>
    expect "qualified task names" listedAll document.qualifiedNames expected
  | .requireNames expected =>
    expect "requires" listedAll (document.requires.map Require.name) expected
  | .root checks => checks.forM (document.checkNamespace Document.rootId "root")
  | .namespace path checks =>
    let place := ":".intercalate path
    match document.findNamespace? path with
    | none => .error (.noNamespace place)
    | some id => checks.forM (document.checkNamespace id place)

end RakeOutline
