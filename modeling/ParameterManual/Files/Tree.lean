import ParameterManual.Error
import ParameterManual.Files.Path
import ParameterManual.Text.Map

/-!
# File trees

A file tree is a value: folders, files and a working folder from which
relative paths start. A path is followed part by part, so that each part but
the last must name a folder that exists.
-/

set_option autoImplicit false

namespace ParameterManual

/-- Text, or bytes that are not the UTF-8 form of any text. -/
inductive Content where
  | text (t : Text)
  | binary (bytes : List UInt8)
  deriving DecidableEq, Repr

def Content.ofBytes (bytes : ByteArray) : Content :=
  match String.fromUTF8? bytes with
  | some s => .text s.toList
  | none => .binary bytes.toList

inductive Entry where
  | file (content : Content)
  | folder (entries : List (Text × Entry))
  deriving Inhabited

namespace Entry

def isFolder : Entry → Bool
  | folder _ => true
  | file _ => false

def child? (name : Text) : Entry → Option Entry
  | folder entries => TextMap.find? name entries
  | file _ => none

/-- The entry at a place, the list of names that leads to it. -/
def get? : Entry → List Text → Option Entry
  | entry, [] => some entry
  | entry, name :: rest => (entry.child? name).bind (get? · rest)

/-- Puts an entry at a place; folders on the way are made if need be. -/
def put (new : Entry) : List Text → Entry → Entry
  | [], _ => new
  | name :: rest, file _ => folder [(name, put new rest (folder []))]
  | name :: rest, folder entries =>
    folder (TextMap.insert name
      (put new rest ((TextMap.find? name entries).getD (folder []))) entries)

mutual

/-- The files below an entry with their paths from it. -/
def files : Entry → List (Path × Content)
  | file content => [([], content)]
  | folder entries => filesOf entries
termination_by structural entry => entry

def filesOf : List (Text × Entry) → List (Path × Content)
  | [] => []
  | (name, entry) :: rest =>
    entry.files.map (fun f => (if f.1.isEmpty then name else name ++ '/' :: f.1, f.2)) ++
      filesOf rest
termination_by structural entries => entries

end

end Entry

structure FileTree where
  root : Entry
  /-- The place of the working folder. -/
  here : List Text
  deriving Inhabited

namespace FileTree

/-- The place reached by following parts from a place. -/
def walk (root : Entry) : (place : List Text) → List Text → Except FileFault (List Text)
  | place, [] => .ok place
  | place, part :: rest =>
    match root.get? place with
    | some (.folder entries) =>
      if part = ['.'] then walk root place rest
      else if part = ['.', '.'] then walk root place.dropLast rest
      else if (TextMap.find? part entries).isSome then walk root (place ++ [part]) rest
      else .error .notFound
    | _ => .error .notDirectory

def start (tree : FileTree) (path : Path) : List Text :=
  if Path.isAbsolute path then [] else tree.here

def place (tree : FileTree) (path : Path) : Except FileFault (List Text) :=
  if path.isEmpty then .error .notFound
  else walk tree.root (tree.start path) (Path.parts path)

def find (tree : FileTree) (path : Path) : Except FileFault Entry := do
  match tree.root.get? (← tree.place path) with
  | some entry => return entry
  | none => throw .notFound

def isFolder (tree : FileTree) (path : Path) : Bool :=
  match tree.find path with
  | .ok (.folder _) => true
  | _ => false

def isFile (tree : FileTree) (path : Path) : Bool :=
  match tree.find path with
  | .ok (.file _) => true
  | _ => false

def holds (tree : FileTree) (path : Path) : Bool := (tree.find path).isOk

def read (tree : FileTree) (path : Path) : Except FileFault Text := do
  match ← tree.find path with
  | .file (.text t) => return t
  | .file (.binary _) => throw .notUtf8
  | .folder _ => throw .isDirectory

/-- The entries directly inside a folder in the order of their names; a file
has none. -/
def list (tree : FileTree) (path : Path) : Except FileFault (List (Text × Entry)) := do
  match ← tree.find path with
  | .folder entries => return entries.foldr (fun e m => TextMap.insert e.1 e.2 m) []
  | .file _ => return []

/-- The place of the folder that is to hold the last part of a path, and that
part. -/
def site (tree : FileTree) (path : Path) : Except FileFault (List Text × Text) := do
  match ((path.splitOn '/').filter (fun part => !part.isEmpty)).reverse with
  | [] => throw (if path.isEmpty then .notFound else .isDirectory)
  | name :: above =>
    let place ← walk tree.root (tree.start path) above.reverse
    match tree.root.get? place with
    | some (.folder _) => return (place, name)
    | _ => throw .notDirectory

def entryAt (tree : FileTree) (site : List Text × Text) : Option Entry :=
  if site.2 = ['.'] ∨ site.2 = ['.', '.'] then some (.folder [])
  else (tree.root.get? site.1).bind (Entry.child? site.2)

def putAt (tree : FileTree) (site : List Text × Text) (entry : Entry) : FileTree :=
  { tree with root := Entry.put entry (site.1 ++ [site.2]) tree.root }

def writeFile (tree : FileTree) (path : Path) (content : Content) :
    Except FileFault FileTree := do
  let site ← tree.site path
  if path.endsWithChar '/' then throw .isDirectory
  else
    match tree.entryAt site with
    | some (.folder _) => throw .isDirectory
    | _ => return tree.putAt site (.file content)

def makeFolder (tree : FileTree) (path : Path) : Except FileFault FileTree :=
  if tree.holds path then .error .alreadyExists
  else do
    let site ← tree.site path
    match tree.entryAt site with
    | some _ => throw .alreadyExists
    | none => return tree.putAt site (.folder [])

/-- Makes a folder after the missing ones above it. The fuel bounds how many
folders up that goes. -/
def makeFoldersFrom : (fuel : Nat) → FileTree → Path → Except FileFault FileTree
  | 0, tree, _ => .ok tree
  | fuel + 1, tree, path =>
    if path.isEmpty then .ok tree
    else
      match tree.makeFolder path, Path.parent? path with
      | .ok made, _ => .ok made
      | .error .notFound, some above => do
        let tree ← makeFoldersFrom fuel tree above
        match tree.makeFolder path with
        | .ok made => return made
        | .error fault => if tree.isFolder path then return tree else throw fault
      | .error fault, _ => if tree.isFolder path then .ok tree else .error fault

def makeFolders (tree : FileTree) (path : Path) : Except FileFault FileTree :=
  makeFoldersFrom (path.length + 1) tree path

/-- Writes a text file after making the folder that is to hold it. -/
def save (tree : FileTree) (path : Path) (t : Text) : Except Failure FileTree := do
  let tree ← match Path.parent? path with
    | none => pure tree
    | some above =>
      if tree.holds above then pure tree
      else
        match tree.makeFolders above with
        | .ok made => pure made
        | .error fault => throw (.file above fault)
  match tree.writeFile path (.text t) with
  | .ok written => return written
  | .error fault => throw (.file path fault)

def readText (tree : FileTree) (path : Path) : Except Failure Text :=
  match tree.read path with
  | .ok t => .ok t
  | .error fault => .error (.file path fault)

/-- The names of the files directly inside a folder that carry an extension,
in order. -/
def namesWithExtension (tree : FileTree) (folder : Path) (extension : Text) :
    Except Failure (List Text) :=
  match tree.list folder with
  | .ok entries =>
    .ok ((entries.filter (fun e => !e.2.isFolder && Path.nameHasExtension extension e.1)).map
      Prod.fst)
  | .error fault => .error (.file folder fault)

/-- The files below the working folder. -/
def files (tree : FileTree) : List (Path × Content) :=
  ((tree.root.get? tree.here).map Entry.files).getD []

/-- The files of the second tree that the first does not hold as they are. -/
def changes (before after : FileTree) : List (Path × Content) :=
  after.files.filter (fun f => !before.files.contains f)

end FileTree

end ParameterManual
