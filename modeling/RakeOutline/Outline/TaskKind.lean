namespace RakeOutline

inductive TaskKind
  | task
  | multitask
  | file
  | directory
  deriving DecidableEq, Repr, Inhabited

def TaskKind.all : List TaskKind :=
  [.task, .multitask, .file, .directory]

def TaskKind.name : TaskKind → String
  | .task => "task"
  | .multitask => "multitask"
  | .file => "file"
  | .directory => "directory"

def TaskKind.title : TaskKind → String
  | .task => "Task"
  | .multitask => "Multitask"
  | .file => "File"
  | .directory => "Directory"

def TaskKind.ofName? (name : String) : Option TaskKind :=
  TaskKind.all.find? fun kind => kind.name == name

/-- Tasks that stand for a path may depend on paths. -/
def TaskKind.acceptsPaths : TaskKind → Bool
  | .file | .directory => true
  | _ => false

end RakeOutline
