/-!
# Files

A `Folder` is a directory tree in memory, given by the paths of its files. `Folder.read` and
`Folder.scripts` answer as a file system does.
-/

namespace Offside

inductive ReadFailure where
  | missing
  | isFolder
  | notFolder
  | other (reason : String)
  deriving DecidableEq

def ReadFailure.text : ReadFailure → String
  | .missing => "No such file or directory (os error 2)"
  | .isFolder => "Is a directory (os error 21)"
  | .notFolder => "Not a directory (os error 20)"
  | .other reason => reason

namespace Path

/-- The names in a path. Empty names and single points lead nowhere. -/
def names (path : String) : List String := (path.splitOn "/").filter fun s => s != "" && s != "."

/-- Whether a path can only name a folder. -/
def namesFolder (path : String) : Bool :=
  (path.splitOn "/").getLast?.any fun s => s == "" || s == "." || s == ".."

def join (base : String) (below : List String) : String :=
  let gap := if base.isEmpty || base.endsWith "/" then "" else "/"
  base ++ gap ++ "/".intercalate below

/-- Whether a file name ends in `.py` after something else. -/
def isScript (name : String) : Bool := name.endsWith ".py" && name != ".py"

end Path

/-- Files with their paths from the top. A folder is there if there is a file somewhere below. -/
structure Folder where
  files : List (List String × ByteArray)

namespace Folder

def hasFolder (top : Folder) (path : List String) : Bool :=
  path.isEmpty || top.files.any fun file => path.isPrefixOf file.1 && path != file.1

def file? (top : Folder) (path : List String) : Option ByteArray := top.files.lookup path

/-- Follows names from a folder. Two points lead back, and what lies above the top is missing. -/
def follow (top : Folder) : List String → List String → Except ReadFailure (List String)
  | here, [] => .ok here
  | here, name :: rest =>
    if !top.hasFolder here then
      .error (if (top.file? here).isSome then .notFolder else .missing)
    else if name = ".." then
      if here.isEmpty then .error .missing else top.follow here.dropLast rest
    else top.follow (here ++ [name]) rest

def locate (top : Folder) (path : String) : Except ReadFailure (List String) := do
  if path.startsWith "/" then throw .missing
  let place ← top.follow [] (Path.names path)
  if Path.namesFolder path && (top.file? place).isSome then throw .notFolder
  return place

def read (top : Folder) (path : String) : Except ReadFailure ByteArray := do
  let place ← top.locate path
  match top.file? place with
  | some data => return data
  | none => throw (if top.hasFolder place then .isFolder else .missing)

def below (top : Folder) (folder : List String) : List (List String) :=
  top.files.filterMap fun file =>
    if folder.isPrefixOf file.1 && folder != file.1 then some (file.1.drop folder.length) else none

/-- The paths of the scripts below a path, or the path itself if it is one. They are in order name by
name. -/
def scripts (top : Folder) (path : String) : List String :=
  match top.locate path with
  | .error _ => []
  | .ok place =>
    if (top.file? place).isSome then
      if place.getLast?.any Path.isScript then [path] else []
    else
      let found := (top.below place).filter fun names => names.getLast?.any Path.isScript
      (found.mergeSort fun a b => (List.compareLex String.instOrd.compare a b).isLE).map
        (Path.join path)

end Folder

end Offside
