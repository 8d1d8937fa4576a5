import RakeOutline.Storage.Path

namespace RakeOutline

inductive ReadError
  | notFound
  | isDirectory
  | notDirectory
  | nulByte
  | nameTooLong
  | notText
  | other (reason : String)
  deriving DecidableEq, Repr

def ReadError.reason : ReadError → String
  | .notFound => "No such file or directory (os error 2)"
  | .isDirectory => "Is a directory (os error 21)"
  | .notDirectory => "Not a directory (os error 20)"
  | .nulByte => "file name contained an unexpected NUL byte"
  | .nameTooLong => "File name too long (os error 36)"
  | .notText => "stream did not contain valid UTF-8"
  | .other reason => reason

def decodeText (bytes : ByteArray) : Except ReadError String :=
  match String.fromUTF8? bytes with
  | some text => .ok text
  | none => .error .notText

abbrev ReadFile := String → Except ReadError ByteArray

def readText (read : ReadFile) (path : String) : Except ReadError String := do
  decodeText (← read path)

/-- Whether a path is that of a file. A file may be there and still be closed to the reader. -/
def isFile (read : ReadFile) (path : String) : Bool :=
  match read path with
  | .ok _ => true
  | .error (.other _) => true
  | .error _ => false

inductive Entry
  | file (bytes : ByteArray)
  | directory

/-- The entries by the parts of their paths. A directory exists if something lies below it. -/
structure FileTree where
  entries : List (List String × Entry) := []

def FileTree.addFile (tree : FileTree) (path : String) (bytes : ByteArray) : FileTree :=
  ⟨(pathParts path, .file bytes) :: tree.entries⟩

def FileTree.addDirectory (tree : FileTree) (path : String) : FileTree :=
  ⟨(pathParts path, .directory) :: tree.entries⟩

def FileTree.entryAt? (tree : FileTree) (place : List String) : Option Entry :=
  match tree.entries.find? (·.1 == place) with
  | some entry => some entry.2
  | none =>
    if place.isEmpty || tree.entries.any (place.isPrefixOf ·.1) then some .directory else none

/-- Where a walk along the parts of a path is: below the working directory, or a number of levels
above it. -/
inductive Place
  | inside (parts : List String)
  | above (levels : Nat)

def maxNameSize : Nat := 255

def maxPathSize : Nat := 4095

/-- Goes one part further. Only a directory has something below it. -/
def FileTree.walk (tree : FileTree) (place : Place) (part : String) : Except ReadError Place :=
  match place with
  | .above levels =>
    if part = "" ∨ part = "." then .ok place
    else if part = ".." then .ok (.above (levels + 1))
    else if maxNameSize < part.utf8ByteSize then .error .nameTooLong
    else .error .notFound
  | .inside parts =>
    match tree.entryAt? parts with
    | none => .error .notFound
    | some (.file _) => .error .notDirectory
    | some .directory =>
      if part = "" ∨ part = "." then .ok place
      else if maxNameSize < part.utf8ByteSize then .error .nameTooLong
      else if part = ".." then
        if parts.isEmpty then .ok (.above 1) else .ok (.inside parts.dropLast)
      else if (tree.entryAt? (parts ++ [part])).isSome then .ok (.inside (parts ++ [part]))
      else .error .notFound

def FileTree.read (tree : FileTree) : ReadFile := fun path => do
  if path.toList.contains '\x00' then throw .nulByte
  if maxPathSize < path.utf8ByteSize then throw .nameTooLong
  if path.isEmpty then throw .notFound
  let start := if path.front = '/' then .above 0 else .inside []
  match ← (path.splitOn "/").foldlM tree.walk start with
  | .above _ => throw .isDirectory
  | .inside parts =>
    match tree.entryAt? parts with
    | some (.file bytes) => return bytes
    | some .directory => throw .isDirectory
    | none => throw .notFound

end RakeOutline
