import ParameterManual.Text.Basic

/-!
# Paths

A path is text with slashes between its parts. Empty parts and single dots
carry no name. The stem of a file name is what stands before its last dot,
unless nothing stands there.
-/

set_option autoImplicit false

namespace ParameterManual

abbrev Path := Text

namespace Path

def isAbsolute (path : Path) : Bool := path.head? == some '/'

/-- An absolute second path replaces the first. -/
def join (folder path : Path) : Path :=
  if isAbsolute path then path
  else if folder.isEmpty || folder.endsWithChar '/' then folder ++ path
  else folder ++ '/' :: path

def isIdle (part : Text) : Bool := part.isEmpty || part == ['.']

/-- The parts that a path walks through. A slash at the end asks for a folder,
as a dot does. -/
def parts (path : Path) : List Text :=
  (path.splitOn '/').filter (fun part => !part.isEmpty) ++
    if path.endsWithChar '/' then [['.']] else []

def dropIdleEnd (pieces : List Text) : List Text := (pieces.reverse.dropWhile isIdle).reverse

/-- The path without its last part. The root has no parent, a single part
has the empty one. -/
def parent? (path : Path) : Option Path :=
  match path.splitOn '/' with
  | [] => none
  | first :: others =>
    match dropIdleEnd others with
    | [] => if first.isEmpty then none else some []
    | kept =>
      let above := dropIdleEnd kept.dropLast
      some (if first.isEmpty && above.isEmpty then ['/'] else Text.joined ['/'] (first :: above))

def fileName? (path : Path) : Option Text :=
  match (path.splitOn '/').reverse.dropWhile isIdle with
  | [] => none
  | name :: _ => if name = ['.', '.'] then none else some name

/-- The stem of a file name and what follows its last dot. -/
def cutExtension (name : Text) : Text × Option Text :=
  match (name.reverse.dropWhile (· != '.')).tail.reverse with
  | [] => (name, none)
  | stem => (stem, some (name.reverse.takeWhile (· != '.')).reverse)

def stem? (path : Path) : Option Text := (fileName? path).map (fun name => (cutExtension name).1)

/-- Whether a file name carries an extension; the case of ASCII letters does
not matter. -/
def nameHasExtension (extension name : Text) : Bool :=
  (cutExtension name).2.any (fun e => e.asciiLower == extension.asciiLower)

def hasExtension (extension : Text) (path : Path) : Bool :=
  (fileName? path).any (nameHasExtension extension)

end Path

end ParameterManual
