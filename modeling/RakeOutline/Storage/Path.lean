import RakeOutline.Text.LowerCase

namespace RakeOutline

/-- The parts of a path that name something: empty parts and single dots do not. -/
def pathParts (path : String) : List String :=
  (path.splitOn "/").filter fun part => part != "" && part != "."

/-- The last part of a path. None if there is no part or if it leads back. -/
def fileName? (path : String) : Option String :=
  (pathParts path).getLast?.filter (· != "..")

def dropTailReversed : List Char → List Char
  | '/' :: rest => dropTailReversed rest
  | '.' :: '/' :: rest => dropTailReversed rest
  | rest => rest

/-- A path up to the end of its last part that names something. -/
def dropTail (path : String) : String :=
  String.ofList (dropTailReversed path.toList.reverse).reverse

/-- Names match without regard to case, also with the Kelvin sign for a `k`. -/
def hasRakefileName (name : String) : Bool :=
  let name := (lowerText name).toList
  "rakefile".toList.isSuffixOf name || "rakefile.rb".toList.isSuffixOf name

def hasRakeExtension (name : String) : Bool :=
  ".rake".toList.isSuffixOf name.toList

def isRakefile (path : String) : Bool :=
  (fileName? path).any fun name => hasRakefileName name || hasRakeExtension name

end RakeOutline
