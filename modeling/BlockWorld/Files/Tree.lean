import BlockWorld.Files.Path
import BlockWorld.Text.Utf8

/-! # File trees

A tree holds plain files and directories, each at the list of names that leads to it from the top. A
path is followed name by name; the first name that leads nowhere decides the error. There are no
links, no permissions and no full disks: an operation fails for one of five reasons, which come from
the shape of the tree and the lengths of the names.
-/

namespace BlockWorld

inductive FileError
  | notFound
  | isDirectory
  | notDirectory
  | alreadyExists
  | nameTooLong
  deriving DecidableEq

def FileError.message : FileError → String
  | .notFound => "no such file or directory"
  | .isDirectory => "is a directory"
  | .notDirectory => "not a directory"
  | .alreadyExists => "file exists"
  | .nameTooLong => "file name too long"

inductive FileNode
  | file (content : Bytes)
  | directory
  deriving DecidableEq

structure FileTree where
  nodes : List (List String × FileNode)

namespace FileTree

def empty : FileTree := ⟨[]⟩

/-- The longest name and the longest path, in octets. -/
def maxName : Nat := 255

def maxPath : Nat := 4095

/-- What stands at a place. The top is a directory. -/
def at? (t : FileTree) (place : List String) : Option FileNode :=
  if place = [] then some .directory else (t.nodes.find? (·.1 = place)).map (·.2)

def put (t : FileTree) (place : List String) (node : FileNode) : FileTree :=
  ⟨(place, node) :: t.nodes.filter (·.1 ≠ place)⟩

theorem at?_put (t : FileTree) {place : List String} (h : place ≠ []) (node : FileNode)
    (k : List String) : (t.put place node).at? k = if place = k then some node else t.at? k := by
  by_cases hk : k = []
  · subst hk
    simp [at?, h]
  · by_cases hp : place = k
    · subst hp
      simp [at?, put, hk]
    · have hf : (fun e : List String × FileNode => !decide (e.1 = place) && decide (e.1 = k)) =
          fun e => decide (e.1 = k) := by
        funext e
        by_cases he : e.1 = k
        · simp [he, Ne.symm hp]
        · simp [he]
      simp [at?, put, hk, hp, hf]

/-- Follows names from a place where `node` stands. -/
def follow (t : FileTree) (place : List String) (node : FileNode) :
    List String → Except FileError FileNode
  | [] => .ok node
  | name :: rest =>
    match node with
    | .file _ => .error .notDirectory
    | .directory =>
      if maxName < (utf8 name).length then .error .nameTooLong
      else
        match t.at? (place ++ [name]) with
        | none => .error .notFound
        | some next => t.follow (place ++ [name]) next rest

def find (t : FileTree) (path : String) : Except FileError FileNode :=
  if maxPath < (utf8 path).length then .error .nameTooLong
  else t.follow [] .directory (Path.names path)

def exists? (t : FileTree) (path : String) : Bool := (t.find path).isOk

def readFile (t : FileTree) (path : String) : Except FileError Bytes :=
  match t.find path with
  | .ok (.file content) => .ok content
  | .ok .directory => .error .isDirectory
  | .error e => .error e

/-- Whether something may be put at the place of these names, where nothing is. -/
def hasParent (t : FileTree) (names : List String) : Bool :=
  match t.follow [] .directory names.dropLast with
  | .ok .directory => names ≠ []
  | _ => false

/-- Writes a file, in place of one already there. Its directory must exist. -/
def writeFile (t : FileTree) (path : String) (content : Bytes) : Except FileError FileTree :=
  let names := Path.names path
  match t.find path with
  | .ok (.file _) => .ok (t.put names (.file content))
  | .ok .directory => .error .isDirectory
  | .error .notFound =>
    if t.hasParent names then .ok (t.put names (.file content)) else .error .notFound
  | .error e => .error e

/-- Makes the directories that these names lead through, the outermost first; the names are given
innermost first. What was made before an error stays. -/
def makeDirectories (t : FileTree) : (reversed : List String) → Except FileError Unit × FileTree
  | [] => (.ok (), t)
  | name :: outer =>
    let place := (name :: outer).reverse
    match t.follow [] .directory place with
    | .ok .directory => (.ok (), t)
    | .ok (.file _) => (.error .alreadyExists, t)
    | .error .notFound =>
      match t.makeDirectories outer with
      | (.ok (), t) =>
        if maxName < (utf8 name).length then (.error .nameTooLong, t)
        else (.ok (), t.put place .directory)
      | failed => failed
    | .error e => (.error e, t)

def createDirectories (t : FileTree) (path : String) : Except FileError Unit × FileTree :=
  if maxPath < (utf8 path).length then (.error .nameTooLong, t)
  else t.makeDirectories (Path.names path).reverse

/-- The names in a directory, in no particular order. -/
def list (t : FileTree) (path : String) : Except FileError (List String) :=
  match t.find path with
  | .ok .directory =>
    let place := Path.names path
    .ok (t.nodes.filterMap fun e =>
      match e.1.getLast? with
      | some name => if e.1.dropLast = place then some name else none
      | none => none)
  | .ok (.file _) => .error .notDirectory
  | .error e => .error e

def files (t : FileTree) : List String :=
  t.nodes.filterMap fun e =>
    match e.2 with
    | .file _ => some ("/".intercalate e.1)
    | .directory => none

end FileTree

end BlockWorld
