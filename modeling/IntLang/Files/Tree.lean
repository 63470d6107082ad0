import IntLang.Failure
import IntLang.Files.Path
import IntLang.Text.Utf8

/-! Files and directories from the root on, and how names lead to them from a working directory. -/
namespace IntLang

inductive FileEntry where
  | file (bytes : List UInt8)
  | directory
  deriving DecidableEq, Repr

/-- The entries each at its path from the root, and the path of the working directory. -/
structure FileTree where
  directory : List Text := []
  entries : List (List Text × FileEntry) := []
  deriving DecidableEq, Repr

namespace FileTree

/-- The working directory and all on the way to it are directories. -/
def at? (t : FileTree) (path : List Text) : Option FileEntry :=
  if path.isPrefixOf t.directory then some .directory else t.entries.lookup path

def put (t : FileTree) (path : List Text) (e : FileEntry) : FileTree :=
  { t with entries := (path, e) :: t.entries.filter (·.1 ≠ path) }

/-- The directories on the way to a path, shortest first. -/
def ancestors (path : List Text) : List (List Text) :=
  (List.range path.length).map (path.take ·) |>.filter (· ≠ [])

/-- Add an entry below the working directory, and the directories above it. -/
def add (t : FileTree) (path : List Text) (e : FileEntry) : FileTree :=
  let full := t.directory ++ path
  ((ancestors full).foldl (fun t p => if (t.at? p).isSome then t else t.put p .directory) t).put
    full e

def maxComponent : Nat := 255
def maxName : Nat := 4096

def byteLength (t : Text) : Nat := (Utf8.encode t).length

/-- One component on from a directory. Above the root there is only the root. -/
def walkOne (t : FileTree) (path : List Text) (c : Text) : Except FileReason (List Text) :=
  match t.at? path with
  | some .directory =>
    if c = Path.here then .ok path
    else if c = Path.parent then .ok path.dropLast
    else if byteLength c > maxComponent then .error .nameTooLong
    else .ok (path ++ [c])
  | some (.file _) => .error .notDirectory
  | none => .error .noSuchFile

def walk (t : FileTree) (path : List Text) : List Text → Except FileReason (List Text)
  | [] => .ok path
  | c :: rest =>
    match t.walkOne path c with
    | .ok next => t.walk next rest
    | .error e => .error e

/-- What is wrong with a name whatever the files are. -/
def nameProblem? (name : Text) : Option FileReason :=
  if name.contains (.char '\x00') then some .invalidName
  else if name = [] then some .noSuchFile
  else if byteLength name ≥ maxName then some .nameTooLong
  else none

def endsInSlash (name : Text) : Bool := name.getLast? == some Path.slash

/-- Where the walk along a name starts. -/
def startOf (t : FileTree) (name : Text) : List Text :=
  if Path.isAbsolute name then [] else t.directory

/-- What is found under a name. -/
def find (t : FileTree) (name : Text) : Except FileReason FileEntry := do
  if let some reason := nameProblem? name then throw reason
  let path ← t.walk (t.startOf name) (Path.components name)
  match t.at? path with
  | none => throw .noSuchFile
  | some .directory => return .directory
  | some (.file bytes) => if endsInSlash name then throw .notDirectory else return .file bytes

/-- The bytes of a file, if there is one under the name. -/
def read? (t : FileTree) (name : Text) : Option (List UInt8) :=
  match t.find name with
  | .ok (.file bytes) => some bytes
  | _ => none

/-- Make or replace a file. A name that ends in a slash, or that leads to a directory, is refused. -/
def write (t : FileTree) (name : Text) (bytes : List UInt8) : Except FileReason FileTree := do
  if let some reason := nameProblem? name then throw reason
  let cs := Path.components name
  let above ← t.walk (t.startOf name) cs.dropLast
  match t.at? above with
  | none => throw .noSuchFile
  | some (.file _) => throw .notDirectory
  | some .directory => pure ()
  if endsInSlash name then throw .isDirectory
  let path ← t.walk above (cs.drop (cs.length - 1))
  match t.at? path with
  | some .directory => throw .isDirectory
  | _ => return t.put path (.file bytes)

end FileTree
end IntLang
