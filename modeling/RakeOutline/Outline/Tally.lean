import RakeOutline.Outline.Document

namespace RakeOutline

structure Tally where
  files : Nat := 0
  namespaces : Nat := 0
  tasks : Nat := 0
  deriving DecidableEq, Repr

def Tally.addFile (tally : Tally) : Tally :=
  { tally with files := tally.files + 1 }

def Tally.addNamespace (tally : Tally) : Tally :=
  { tally with namespaces := tally.namespaces + 1 }

def Tally.addTask (tally : Tally) : Tally :=
  { tally with tasks := tally.tasks + 1 }

def Tally.toText (tally : Tally) : String :=
  s!"{tally.files} files, {tally.namespaces} namespaces, {tally.tasks} tasks"

def padNumber (n : Nat) : String :=
  let digits := Nat.toDigits 10 n
  String.ofList (List.replicate (5 - digits.length) ' ' ++ digits)

def Tally.summary (tally : Tally) : String :=
  "Files:      " ++ padNumber tally.files ++ "\n" ++
  "Namespaces: " ++ padNumber tally.namespaces ++ "\n" ++
  "Tasks:      " ++ padNumber tally.tasks ++ "\n"

end RakeOutline
