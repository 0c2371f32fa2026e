import ParameterManual.CommandLine

/-!
# The program

Reads the files that a run can need, runs on them as a value, writes the files
that changed, and says why a run failed.
-/

set_option autoImplicit false

namespace ParameterManual.Program

/-- The place that a path means when folders are taken by their names alone. -/
def placeOf (here : List Text) (path : Path) : List Text :=
  (Path.parts path).foldl (fun place part =>
    if part = ['.'] then place else if part = ['.', '.'] then place.dropLast else place ++ [part])
    (if Path.isAbsolute path then [] else here)

def pathOf (place : List Text) : String := String.ofList ('/' :: Text.joined ['/'] place)

/-- Everything at a path, nothing where it cannot be read. -/
partial def readEntry (path : String) : IO (Option Entry) := do
  let path ← IO.FS.realPath path
  if ← path.isDir then
    let mut entries : List (Text × Entry) := []
    for child in ← path.readDir do
      if let some entry ← readEntry child.path.toString then
        entries := TextMap.insert child.fileName.toList entry entries
    return some (.folder entries)
  else if ← path.pathExists then
    return some (.file (.ofBytes (← IO.FS.readBinFile path)))
  else return none

def load (tree : FileTree) (path : Path) : IO FileTree := do
  let place := placeOf tree.here path
  if (tree.root.get? place).isSome then return tree
  let found ← try readEntry (pathOf place) catch _ => pure none
  match found with
  | some entry => return { tree with root := Entry.put entry place tree.root }
  | none => return tree

/-- The paths that a run reads or writes, less those of the settings file. -/
def pathsOf (a : CommandLine.Arguments) (tree : FileTree) : List Path :=
  match a.settings tree with
  | .ok settings =>
    [settings.sourceRoot, settings.translationsPath, settings.outputFolder] ++ a.json.toList
  | .error _ => []

def save (path : Path) (content : Content) : IO Unit := do
  let bytes := match content with
    | .text t => (String.ofList t).toUTF8
    | .binary bytes => ByteArray.mk bytes.toArray
  match Path.parent? path with
  | some folder => IO.FS.createDirAll (String.ofList folder)
  | none => pure ()
  IO.FS.writeBinFile (String.ofList path) bytes

def workingTree : IO FileTree := do
  let here := ((← IO.currentDir).toString.toList.splitOn '/').filter (fun part => !part.isEmpty)
  return ⟨Entry.put (.folder []) here (.folder []), here⟩

end ParameterManual.Program

open ParameterManual Program in
def main (arguments : List String) : IO UInt32 := do
  let arguments := arguments.map String.toList
  let tree ← workingTree
  let before ← match CommandLine.parse arguments with
    | .document a => do
      let tree ← a.config.toList.foldlM load tree
      (pathsOf a tree).foldlM load tree
    | _ => pure tree
  let outcome := CommandLine.execute arguments before
  for (path, content) in
      FileTree.changes { before with here := [] } { outcome.tree with here := [] } do
    save ('/' :: path) content
  if let some said := outcome.said then
    let stream ← if outcome.code = 0 then IO.getStdout else IO.getStderr
    stream.putStrLn (String.ofList said)
  return outcome.code.toUInt32
