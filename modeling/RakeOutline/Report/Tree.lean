import RakeOutline.Report.Snapshot

namespace RakeOutline

def defaultLabelWidth : Nat := 30

def NodeKind.icon : NodeKind → String
  | .document => "⧉"
  | .scope => "§"
  | .task .task => "⚙"
  | .task .multitask => "⫴"
  | .task .file => "▤"
  | .task .directory => "▣"
  | .builder => "⊕"
  | .require false => "⇲"
  | .require true => "⇱"

/-- A label cut to a number of characters; dots tell that something was cut off. -/
def truncate (width : Nat) (label : String) : String :=
  if width < label.length then String.ofList (label.toList.take width) ++ "..." else label

def Node.title (width : Nat) (node : Node) : String :=
  node.kind.icon ++ " " ++ truncate width node.label

mutual

/-- The lines of the nodes below a node, whose own line begins with `margin`. -/
def Snapshot.lowerLines (width : Nat) (margin : String) : Snapshot → List String
  | ⟨_, children⟩ => treeLines width margin children

def treeLines (width : Nat) (margin : String) : List Snapshot → List String
  | [] => []
  | first :: rest =>
    let branch := if rest.isEmpty then "└─ " else "├─ "
    let below := if rest.isEmpty then "  " else "│ "
    (margin ++ branch ++ first.node.title width) :: first.lowerLines width (margin ++ below) ++
      treeLines width margin rest

end

def Snapshot.lines (width : Nat) (snapshot : Snapshot) : List String :=
  snapshot.node.title width :: snapshot.lowerLines width ""

def Document.tree (document : Document) (width : Nat) : String :=
  String.join ((document.snapshot.lines width).map (· ++ "\n"))

end RakeOutline
