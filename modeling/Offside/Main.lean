import Offside.CommandLine.Commands

/-!
# The program

The command line on real files.
-/

namespace Offside

/-- The reason why a file could not be read. -/
def readFailure : IO.Error → ReadFailure
  | .noFileOrDirectory .. => .missing
  | .inappropriateType _ code _ => if code = 21 then .isFolder else .notFolder
  | .permissionDenied .. => .other "Permission denied (os error 13)"
  | e => .other (toString e)

def readFile (path : String) : IO (Except ReadFailure ByteArray) := do
  try return .ok (← IO.FS.readBinFile path)
  catch e => return .error (readFailure e)

/-- The files below a directory with their paths from it, going down at most `depth` times. -/
def filesBelow (directory : String) : Nat → IO (List (List String))
  | 0 => return []
  | depth + 1 => do
    let entries ← (← IO.FS.realPath directory).readDir
    let found ← entries.toList.mapM fun entry => do
      if ← entry.path.isDir then
        let below ← filesBelow (Path.join directory [entry.fileName]) depth
        return below.map (entry.fileName :: ·)
      else return [[entry.fileName]]
    return found.flatten

/-- The most directories that are looked into one below the other. -/
def deepest : Nat := 4096

def findScripts (path : String) : IO (List String) := do
  try
    if ← (← IO.FS.realPath path).isDir then
      let files ← filesBelow path deepest
      let top : Folder := { files := files.map (·, ByteArray.empty) }
      return (top.scripts ".").map fun script => Path.join path [(script.drop 2).toString]
    else return if (Path.names path).getLast?.any Path.isScript then [path] else []
  catch _ => return []

def realFiles : FileAccess IO where
  read := readFile
  scripts := findScripts

end Offside

def main (args : List String) : IO UInt32 := do
  let outcome ← Offside.CommandLine.run Offside.realFiles args
  (← IO.getStdout).putStr outcome.stdout
  (← IO.getStderr).putStr outcome.stderr
  return outcome.exitCode.toUInt32
