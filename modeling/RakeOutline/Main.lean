import RakeOutline.Command.Basic

namespace RakeOutline

def readErrorOf (error : IO.Error) : ReadError :=
  match error with
  | .noFileOrDirectory .. => .notFound
  | .inappropriateType _ code _ => if code = 21 then .isDirectory else .notDirectory
  | other => .other other.toString

def readFile (path : String) : IO (Except ReadError ByteArray) := do
  if path.toList.contains '\x00' then return .error .nulByte
  try
    return .ok (← IO.FS.readBinFile path)
  catch error =>
    return .error (readErrorOf error)

end RakeOutline

open RakeOutline

def main (arguments : List String) : IO UInt32 := do
  let files ← (pathsToRead arguments).mapM fun path => return (path, ← readFile path)
  let read (path : String) := (files.lookup path).getD (.error .notFound)
  let outcome := runCommand read arguments
  IO.print outcome.output
  IO.eprint outcome.messages
  return outcome.code.toUInt32
