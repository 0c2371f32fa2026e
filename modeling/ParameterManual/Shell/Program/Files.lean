import ParameterManual.Shell.Program.Options

/-!
# Programs on files

Programs that list, copy, move and remove files and folders. A link is a copy
of what it leads to.
-/

set_option autoImplicit false

namespace ParameterManual.Shell.Program

def say (program t : String) (path : Bytes) (rest : Bytes) : Action Unit :=
  Action.complain ((program ++ ": " ++ t ++ "'").toList ++ path ++ '\x27' :: rest)

def faultOf? (tree : FileTree) (path : Bytes) : Option FileFault :=
  match tree.find (Bytes.toText path) with
  | .ok (.file _) => if path.endsWithChar '/' then some .notDirectory else none
  | .ok _ => none
  | .error fault => some fault

def because (fault : FileFault) : Bytes := ": ".toList ++ reason fault

/-! ## Listing -/

structure Listing where
  showsDots : Bool
  showsHidden : Bool
  isReversed : Bool
  isDeep : Bool
  marksFolders : Bool
  marksPrograms : Bool

def Listing.order (l : Listing) (names : List Bytes) : List Bytes :=
  let sorted := inOrder names
  if l.isReversed then sorted.reverse else sorted

def Listing.mark (l : Listing) (s : Session) (path name : Bytes) : Bytes :=
  if isFolder s.tree path then if l.marksFolders then name ++ ['/'] else name
  else
    match l.marksPrograms, s.tree.place (Bytes.toText path) with
    | true, .ok place => if s.programs.contains place then name ++ ['*'] else name
    | _, _ => name

def below (folder name : Bytes) : Bytes :=
  if folder.endsWithChar '/' then folder ++ name else folder ++ '/' :: name

def Listing.names (l : Listing) (s : Session) (folder : Bytes) : List Bytes :=
  let isDot (name : Bytes) : Bool := name == ['.'] || name == ['.', '.']
  l.order ((namesIn s.tree folder).filter (fun name =>
    if isDot name then l.showsDots else l.showsHidden || name.head? != some '.'))

/-- The blocks of a listing of a folder, and of those below it if asked for. -/
def Listing.blocks (l : Listing) (s : Session) : (fuel : Nat) → (isHeaded : Bool) → Bytes →
    List Bytes
  | 0, _, _ => []
  | fuel + 1, isHeaded, folder =>
    let names := l.names s folder
    let rows := Bytes.ofLines (names.map (fun name => l.mark s (below folder name) name))
    let block := (if isHeaded then folder ++ ":\n".toList else []) ++ rows
    let inner := if l.isDeep then
        (names.filter (fun name => name != ['.'] && name != ['.', '.'] &&
          isFolder s.tree (below folder name))).flatMap (fun name =>
            l.blocks s fuel true (below folder name))
      else []
    block :: inner

def ls : Program := OptionTable.andThen ⟨"ls", "1aAdrRpFCxlhtSiskgnoGUfcqNbQmvuXL", "wI",
    [("all", 'a'), ("almost-all", 'A'), ("directory", 'd'), ("reverse", 'r'),
      ("recursive", 'R'), ("classify", 'F')], 2, false⟩ fun o => do
  let s ← get
  let l : Listing := {
    showsDots := o.has 'a' && o.lastOf? "aA" != some 'A'
    showsHidden := o.has 'a' || o.has 'A'
    isReversed := o.has 'r'
    isDeep := o.has 'R'
    marksFolders := o.has 'p' || o.has 'F'
    marksPrograms := o.has 'F' }
  let operands := if o.operands.isEmpty then [['.']] else o.operands
  let mut found := []
  let mut status := 0
  for path in operands do
    match faultOf? s.tree path with
    | some fault =>
      say "ls" "cannot access " path (because fault)
      status := 2
    | none => found := path :: found
  let isShownFolder (path : Bytes) : Bool := !o.has 'd' && isFolder s.tree path
  let files := l.order (found.filter (fun path => !isShownFolder path))
  let folders := l.order (found.filter isShownFolder)
  let fileBlock := Bytes.ofLines (files.map (fun path => l.mark s path path))
  let isHeaded := 1 < operands.length || o.has 'R'
  let blocks := folders.flatMap (l.blocks s 1000 isHeaded)
  Action.put (Text.joined ['\n'] ((if files.isEmpty then [] else [fileBlock]) ++ blocks))
  return status

/-! ## Copying and moving -/

/-- Where a file goes that is put at a path: into it, if it is a folder. -/
def destination (tree : FileTree) (source target : Bytes) : Bytes :=
  if isFolder tree target then
    below target (Bytes.ofText ((Path.fileName? (Bytes.toText source)).getD []))
  else target

def putEntry (entry : Entry) (path : Bytes) : Action (Option FileFault) :=
  Action.inTree (fun tree => do
    let site ← tree.site (Bytes.toText path)
    if path.endsWithChar '/' && !entry.isFolder then throw .notDirectory
    else return tree.putAt site entry)

def withTarget (program : String) (o : Options) (act : Bytes → Bytes → Action Bool) :
    Action Nat := do
  let (sources, target) ← match o.value? 't' with
    | some folder => pure (o.operands, folder)
    | none => pure (o.operands.dropLast, o.operands.getLast?.getD [])
  if o.operands.isEmpty then return ← missing program "file operand"
  if sources.isEmpty then
    Action.complain ((program ++ ": missing destination file operand after '").toList ++ target ++
      ['\x27'])
    OptionTable.helpHint program
    return 1
  let tree := (← get).tree
  if (1 < sources.length || o.has 't') && !isFolder tree target then
    let what := if o.has 't' then "target directory " else "target "
    say program what target (because ((faultOf? tree target).getD .notDirectory))
    return 1
  let mut ok := true
  for source in sources do
    let tree := (← get).tree
    match faultOf? tree source with
    | some fault =>
      say program "cannot stat " source (because fault)
      ok := false
    | none =>
      let path := if o.has 'T' then target else destination tree source target
      let same := match tree.place (Bytes.toText source), tree.place (Bytes.toText path) with
        | .ok a, .ok b => a == b
        | _, _ => false
      if same then
        say program "" source (" and '".toList ++ path ++ "' are the same file".toList)
        ok := false
      else if !(← act source path) then ok := false
  return statusOf ok

mutual

def merged : Entry → Entry → Entry
  | .folder new, .folder old => .folder (mergedEntries new old)
  | new, _ => new
termination_by structural new => new

def mergedEntries : List (Text × Entry) → List (Text × Entry) → List (Text × Entry)
  | [], old => old
  | (name, entry) :: rest, old =>
    let here := match TextMap.find? name old with
      | some before => merged entry before
      | none => entry
    TextMap.insert name here (mergedEntries rest old)
termination_by structural new => new

end

def copyOne (deep isVerbose keeps : Bool) (source path : Bytes) : Action Bool := do
  let tree := (← get).tree
  match tree.find (Bytes.toText source), tree.find (Bytes.toText path) with
  | .ok entry, old =>
    if entry.isFolder && !deep then
      Action.complain ("cp: -r not specified; omitting directory '".toList ++ source ++ ['\x27'])
      return false
    if keeps && old.isOk then return true
    if entry.isFolder && isFile tree path then
      say "cp" "cannot overwrite non-directory " path
        (" with directory '".toList ++ source ++ ['\x27'])
      return false
    let new := match old with
      | .ok before => merged entry before
      | .error _ => entry
    match ← putEntry new path with
    | none =>
      if isVerbose then
        Action.put ('\x27' :: source ++ "' -> '".toList ++ path ++ "'\n".toList)
      return true
    | some fault =>
      let what := if entry.isFolder then "cannot create directory " else
        "cannot create regular file "
      say "cp" what path (because fault)
      return false
  | .error _, _ => return false

def cp : Program := OptionTable.andThen ⟨"cp", "rRafpvnudiTLPHsl", "tS", [("recursive", 'r'),
    ("archive", 'a'), ("force", 'f'), ("verbose", 'v'), ("no-clobber", 'n'), ("update", 'u'),
    ("target-directory", 't'), ("no-target-directory", 'T')], 1, false⟩ fun o =>
  withTarget "cp" o (copyOne (o.has 'r' || o.has 'R' || o.has 'a') (o.has 'v') (o.has 'n'))

def removeAt (tree : FileTree) (path : Bytes) : Except FileFault FileTree := do
  let (place, name) ← tree.site (Bytes.toText path)
  match tree.root.get? place with
  | some (.folder entries) =>
    let kept := entries.filter (fun e => e.1 != name)
    return { tree with root := Entry.put (.folder kept) place tree.root }
  | _ => throw .notDirectory

def moveEntry (entry : Entry) (isVerbose : Bool) (source path : Bytes) : Action Bool := do
  match ← putEntry entry path with
  | some fault =>
    say "mv" "cannot move " source (" to '".toList ++ path ++ '\x27' :: because fault)
    return false
  | none =>
    let _ ← Action.inTree (removeAt · source)
    if isVerbose then
      Action.put ("renamed '".toList ++ source ++ "' -> '".toList ++ path ++ "'\n".toList)
    return true

def moveOne (isVerbose keeps : Bool) (source path : Bytes) : Action Bool := do
  let tree := (← get).tree
  match tree.find (Bytes.toText source) with
  | .error _ => return false
  | .ok entry =>
    if keeps && holds tree path then return true
    let inside := match tree.place (Bytes.toText source), tree.site (Bytes.toText path) with
      | .ok a, .ok b => a.isPrefixOf b.1
      | _, _ => false
    if entry.isFolder && inside then
      say "mv" "cannot move " source (" to a subdirectory of itself, '".toList ++ path ++ ['\x27'])
      return false
    match tree.find (Bytes.toText path) with
    | .ok (.folder (_ :: _)) =>
      say "mv" "cannot move " source
        (" to '".toList ++ path ++ "': Directory not empty".toList)
      return false
    | .ok (.file _) =>
      if entry.isFolder then
        say "mv" "cannot overwrite non-directory " path
          (" with directory '".toList ++ source ++ ['\x27'])
        return false
      moveEntry entry isVerbose source path
    | _ => moveEntry entry isVerbose source path

def mv : Program := OptionTable.andThen ⟨"mv", "fivnuT", "tS", [("force", 'f'), ("verbose", 'v'),
    ("no-clobber", 'n'), ("target-directory", 't')], 1, false⟩ fun o =>
  withTarget "mv" o (moveOne (o.has 'v') (o.has 'n'))

def linkOne (isSymbolic isForced : Bool) (source path : Bytes) : Action Bool := do
  let tree := (← get).tree
  let kind := if isSymbolic then "symbolic" else "hard"
  if holds tree path && !isForced then
    say "ln" ("failed to create " ++ kind ++ " link ") path (because .alreadyExists)
    return false
  let from_ := if isSymbolic && source.head? != some '/' then
      match Path.parent? (Bytes.toText path) with
      | some folder => Path.join folder (Bytes.toText source)
      | none => Bytes.toText source
    else Bytes.toText source
  match tree.find from_ with
  | .ok entry =>
    match ← putEntry entry path with
    | none => return true
    | some fault =>
      say "ln" ("failed to create " ++ kind ++ " link ") path (because fault)
      return false
  | .error fault =>
    if isSymbolic then return true
    say "ln" "failed to access " source (because fault)
    return false

def ln : Program := OptionTable.andThen ⟨"ln", "sfnvrT", "t", [("symbolic", 's'), ("force", 'f')],
    1, false⟩ fun o => do
  let tree := (← get).tree
  match o.operands with
  | [] => missing "ln" "file operand"
  | [source] =>
    let name := Bytes.ofText ((Path.fileName? (Bytes.toText source)).getD [])
    return statusOf (← linkOne (o.has 's') (o.has 'f') source name)
  | operands =>
    let target := operands.getLast?.getD []
    let mut ok := true
    for source in operands.dropLast do
      let path := destination tree source target
      if !(← linkOne (o.has 's') (o.has 'f') source path) then ok := false
    return statusOf ok

/-! ## Making and removing -/

/-- Applies an action to each operand; the status is 1 if one fails. -/
def forEach (operands : List Bytes) (act : Bytes → Action Bool) : Action Nat := do
  let mut ok := true
  for path in operands do
    if !(← act path) then ok := false
  return statusOf ok

def isDotName (path : Bytes) : Bool :=
  let last := ((path.splitOn '/').filter (!·.isEmpty)).getLast?
  last == some ['.'] || last == some ['.', '.']

def rm : Program := OptionTable.andThen ⟨"rm", "frRdvi", "", [("force", 'f'), ("recursive", 'r'),
    ("dir", 'd'), ("verbose", 'v')], 1, false⟩ fun o => do
  if o.operands.isEmpty && !o.has 'f' then return ← missing "rm" "operand"
  forEach o.operands fun path => do
    let tree := (← get).tree
    let deep := o.has 'r' || o.has 'R'
    let refuse (rest : Bytes) : Action Bool := do
      say "rm" "cannot remove " path rest
      return false
    match faultOf? tree path, tree.find (Bytes.toText path) with
    | some .notFound, _ => if o.has 'f' then return true else refuse (because .notFound)
    | some fault, _ => refuse (because fault)
    | none, .ok (.folder entries) =>
      if deep && isDotName path then
        Action.complain ("rm: refusing to remove '.' or '..' directory: skipping '".toList ++ path ++
          ['\x27'])
        return false
      if !deep && !o.has 'd' then refuse (because .isDirectory)
      else if !deep && !entries.isEmpty then refuse ": Directory not empty".toList
      else
        let _ ← Action.inTree (removeAt · path)
        if o.has 'v' then Action.put ("removed directory '".toList ++ path ++ "'\n".toList)
        return true
    | none, _ =>
      if o.has 'i' then
        say "rm" "remove regular file " path "?".toList
        if !(← Action.readLine).head?.any (fun c => c == 'y' || c == 'Y') then return true
      let _ ← Action.inTree (removeAt · path)
      if o.has 'v' then Action.put ("removed '".toList ++ path ++ "'\n".toList)
      return true

def mkdir : Program := OptionTable.andThen ⟨"mkdir", "pv", "m", [("parents", 'p'), ("verbose", 'v'),
    ("mode", 'm')], 1, false⟩ fun o => do
  if o.operands.isEmpty then return ← missing "mkdir" "operand"
  forEach o.operands fun path => do
    let name := Bytes.toText path
    let existed := holds (← get).tree path
    let fault ← Action.inTree (fun tree =>
      if o.has 'p' then tree.makeFolders name else tree.makeFolder name)
    match fault with
    | none =>
      if o.has 'v' && !existed then
        Action.put ("mkdir: created directory '".toList ++ path ++ "'\n".toList)
      return true
    | some fault =>
      say "mkdir" "cannot create directory " path (because fault)
      return false

def rmdirOne (path : Bytes) : Action Bool := do
  let tree := (← get).tree
  let refuse (rest : Bytes) : Action Bool := do
    say "rmdir" "failed to remove " path rest
    return false
  match tree.find (Bytes.toText path) with
  | .ok (.folder []) =>
    let _ ← Action.inTree (removeAt · path)
    return true
  | .ok (.folder _) => refuse ": Directory not empty".toList
  | .ok _ => refuse (because .notDirectory)
  | .error fault => refuse (because fault)

def rmdirUp : (fuel : Nat) → Bytes → Action Bool
  | 0, _ => return true
  | fuel + 1, path => do
    if !(← rmdirOne path) then return false
    match Path.parent? (Bytes.toText path) with
    | some (c :: above) => rmdirUp fuel (Bytes.ofText (c :: above))
    | _ => return true

def rmdir : Program := OptionTable.andThen ⟨"rmdir", "pv", "", [("parents", 'p'), ("verbose", 'v')],
    1, false⟩ fun o => do
  if o.operands.isEmpty then return ← missing "rmdir" "operand"
  forEach o.operands fun path => do
    if o.has 'v' then Action.put ("rmdir: removing directory, '".toList ++ path ++ "'\n".toList)
    if o.has 'p' then rmdirUp (path.length + 1) path else rmdirOne path

def touch : Program := OptionTable.andThen ⟨"touch", "camfh", "drt", [("no-create", 'c')], 1, false⟩
    fun o => do
  if o.operands.isEmpty then return ← missing "touch" "file operand"
  forEach o.operands fun path => do
    if holds (← get).tree path || o.has 'c' then return true
    match ← Action.inTree (·.writeFile (Bytes.toText path) (.text [])) with
    | none => return true
    | some fault =>
      say "touch" "cannot touch " path (because fault)
      return false

/-- Whether a mode makes files executable, where it says anything about that. -/
def executableMode? (mode : Bytes) : Option Bool :=
  if mode.all Text.isDigit then some (mode.any (fun c => (c.toNat - '0'.toNat) % 2 == 1))
  else if !mode.contains 'x' then none
  else some (!mode.contains '-')

def chmod : Program := fun arguments => do
  let arguments := arguments.filter (fun a => a != ['-', 'R'] && a != ['-', 'v'])
  match arguments with
  | [] => missing "chmod" "operand"
  | [mode] => misused "chmod" ("missing operand after '".toList ++ mode ++ ['\x27'])
  | mode :: paths =>
    if !mode.all "01234567ugoarwxXst+-=,".toList.contains then
      return ← misused "chmod" ("invalid mode: '".toList ++ mode ++ ['\x27'])
    forEach paths fun path => do
      let s ← get
      match s.tree.place (Bytes.toText path) with
      | .error fault =>
        say "chmod" "cannot access " path (because fault)
        return false
      | .ok place =>
        match executableMode? mode with
        | some true => set { s with programs := place :: s.programs }
        | some false => set { s with programs := s.programs.filter (· != place) }
        | none => pure ()
        return true

/-! ## Names -/

def withoutSlashes (t : Bytes) : Bytes := (t.reverse.dropWhile (· == '/')).reverse

def baseName (path suffix : Bytes) : Bytes :=
  let kept := withoutSlashes path
  if kept.isEmpty then if path.isEmpty then [] else ['/']
  else
    let name := (kept.reverse.takeWhile (· != '/')).reverse
    match Text.beforeTail? suffix name with
    | some [] => name
    | some stem => stem
    | none => name

def dirName (path : Bytes) : Bytes :=
  let kept := withoutSlashes path
  if kept.isEmpty then if path.isEmpty then ['.'] else ['/']
  else
    let above := (kept.reverse.dropWhile (· != '/')).reverse
    if above.isEmpty then ['.']
    else
      let above := withoutSlashes above
      if above.isEmpty then ['/'] else above

def basename : Program := OptionTable.andThen ⟨"basename", "az", "s", [("multiple", 'a'),
    ("suffix", 's')], 1, true⟩ fun o => do
  match o.operands with
  | [] => missing "basename" "operand"
  | path :: rest =>
    if o.has 'a' || o.has 's' then
      let suffix := (o.value? 's').getD []
      Action.put (Bytes.ofLines (o.operands.map (baseName · suffix)))
      return 0
    match rest with
    | [] => Action.put (baseName path [] ++ ['\n']); return 0
    | [suffix] => Action.put (baseName path suffix ++ ['\n']); return 0
    | _ :: extra :: _ =>
      Action.complain ("basename: extra operand '".toList ++ extra ++ ['\x27'])
      OptionTable.helpHint "basename"
      return 1

def dirname : Program := fun operands => do
  if operands.isEmpty then return ← missing "dirname" "operand"
  Action.put (Bytes.ofLines (operands.map dirName))
  return 0

/-! ## Comparing -/

def firstDifference : (byte line : Nat) → Bytes → Bytes → Option (Nat × Nat × Bool)
  | _, _, [], [] => none
  | byte, line, [], _ => some (byte, line, true)
  | byte, line, _, [] => some (byte, line, true)
  | byte, line, c :: a, d :: b =>
    if c = d then firstDifference (byte + 1) (if c = '\n' then line + 1 else line) a b
    else some (byte, line, false)

def cmp : Program := OptionTable.andThen ⟨"cmp", "s", "", [("quiet", 's'), ("silent", 's')], 2,
    false⟩ fun o => do
  let (texts, ok) ← readOperands "cmp" o.operands
  match texts, ok with
  | [(x, a), (y, b)], true =>
    match firstDifference 1 1 a b with
    | none => return 0
    | some (byte, line, isEnd) =>
      if !o.has 's' then
        if isEnd then
          let shorter := if a.length < b.length then x else y
          Action.complain ("cmp: EOF on ".toList ++ shorter ++ " after byte ".toList ++
            Text.ofNat (byte - 1) ++ ", line ".toList ++ Text.ofNat line)
        else
          Action.put (x ++ ' ' :: y ++ " differ: char ".toList ++ Text.ofNat byte ++
            ", line ".toList ++ Text.ofNat line ++ ['\n'])
      return 1
  | _, _ =>
    if o.operands.isEmpty then
      Action.complain "cmp: missing operand after 'cmp'".toList
      Action.complain "cmp: Try 'cmp --help' for more information.".toList
    return 2

end ParameterManual.Shell.Program
