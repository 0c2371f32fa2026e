import ParameterManual.Files.Tree

/-!
# Source pairs

A type has a declaration file and a definition file of the same stem. The
base type of a category has the stem that is asked for, or else the shortest
stem that begins with the name of the category less its last three letters.
-/

set_option autoImplicit false

namespace ParameterManual

structure SourcePair where
  name : Text
  header : Path
  source : Path
  deriving DecidableEq, Repr

/-- The extensions of declaration and definition files. -/
structure Extensions where
  header : Text
  source : Text
  deriving DecidableEq, Repr

namespace SourcePair

def stem (fileName : Text) : Text := (Path.cutExtension fileName).1

def withExtension (extension stem : Text) : Text :=
  if extension.isEmpty then stem else stem ++ '.' :: extension

/-- The name of the definition file that belongs to a stem. A single dot has
none: without its extension its header names the folder above. -/
def definitionName (extension stem : Text) : Text :=
  if stem = ['.'] then ['.', '.'] else withExtension extension stem

/-- The pair of a header in a folder. -/
def ofHeader (tree : FileTree) (extensions : Extensions) (folder : Path) (header : Text) :
    Except Failure SourcePair :=
  let source := Path.join folder (definitionName extensions.source (stem header))
  if tree.isFile source then .ok ⟨stem header, Path.join folder header, source⟩
  else .error (.file source .definitionMissing)

/-- The pairs directly inside a folder by the names of their headers. A
folder that does not exist has none. -/
def collect (tree : FileTree) (extensions : Extensions) (folder : Path) :
    Except Failure (List SourcePair) :=
  if tree.isFolder folder then do
    let headers ← tree.namesWithExtension folder extensions.header
    headers.mapM (ofHeader tree extensions folder)
  else .ok []

def basePrefix (category : Text) : Text := category.take (category.length - 3)

def isBefore (a b : Text) : Bool :=
  let m := Text.utf8Length (stem a)
  let n := Text.utf8Length (stem b)
  m < n || (m == n && stem a < stem b)

/-- The first of the headers that none comes before. -/
def shortest? : List Text → Option Text
  | [] => none
  | header :: rest =>
    match shortest? rest with
    | some best => some (if isBefore best header then best else header)
    | none => some header

def baseHeader? (category : Text) (base : Option Text) (headers : List Text) : Option Text :=
  match base with
  | some name => headers.find? (fun header => stem header == name)
  | none => shortest? (headers.filter (fun header =>
      Text.startsWith (basePrefix category) (stem header)))

def findBase (tree : FileTree) (extensions : Extensions) (folder : Path) (category : Text)
    (base : Option Text) : Except Failure SourcePair :=
  if tree.isFolder folder then do
    let headers ← tree.namesWithExtension folder extensions.header
    match baseHeader? category base headers with
    | some header => ofHeader tree extensions folder header
    | none => throw (.missingBase category folder)
  else .error (.missingBase category folder)

end SourcePair

end ParameterManual
