import ParameterManual.Proofs.Assembly.Building
import ParameterManual.Proofs.Files.SourcePair

/-!
# What a build reads

A build looks at the folders of its category and at the pairs of files that
it finds there. Two trees in which these paths show the same give the same
build.
-/

set_option autoImplicit false

namespace ParameterManual.Assembly
open FileTree

def childPaths (extensions : Extensions) (tree : FileTree) :
    (levels : Nat) → (folder : Path) → List Path
  | 0, _ => []
  | levels + 1, folder =>
    folder :: match tree.namesWithExtension folder extensions.header with
      | .ok headers => headers.flatMap (fun header =>
          SourcePair.paths extensions folder header ++
            childPaths extensions tree levels (Path.join folder (SourcePair.stem header)))
      | .error _ => []

/-- The paths that the build of a category reads. -/
def readPaths (settings : Settings) (tree : FileTree) (category : Category) : List Path :=
  let extensions : Extensions := ⟨settings.headerExtension, settings.sourceExtension⟩
  let folder := Path.join settings.sourceRoot category.folder
  folder :: match SourcePair.baseChoice? extensions tree folder category.folder category.base with
    | some header => SourcePair.paths extensions folder header ++
        childPaths extensions tree (levels category) (Path.join folder settings.childrenFolder)
    | none => []

section alike
variable (extensions : Extensions) (tree tree' : FileTree)

def SamePair (pair : SourcePair) : Prop :=
  tree'.readText pair.header = tree.readText pair.header ∧
    tree'.readText pair.source = tree.readText pair.source

/-- A header has the same pair in two trees, and if there is one, its files
read the same and what is said of the folder of its name holds. -/
structure HeaderAlike (below : Path → Prop) (folder : Path) (header : Text) : Prop where
  found : SourcePair.ofHeader tree' extensions folder header =
    SourcePair.ofHeader tree extensions folder header
  files : ∀ pair, SourcePair.ofHeader tree extensions folder header = .ok pair →
    SamePair tree tree' pair
  below : ∀ pair, SourcePair.ofHeader tree extensions folder header = .ok pair →
    below (Path.join folder pair.name)

/-- A folder has the same headers in two trees, and these have the same pairs,
as many levels down as given. -/
def Alike : (levels : Nat) → (folder : Path) → Prop
  | 0, _ => True
  | levels + 1, folder =>
    SourcePair.headersIn extensions tree' folder = SourcePair.headersIn extensions tree folder ∧
      ∀ header ∈ SourcePair.headersIn extensions tree folder,
        HeaderAlike extensions tree tree' (Alike levels) folder header

end alike

section children
variable (corpus : Corpus) (tree' : FileTree)

theorem scan_same (pair : SourcePair) (parentMembers : MemberTable)
    (inherited : TextMap Variable) (h : SamePair corpus.tree tree' pair) :
    scan { corpus with tree := tree' } pair parentMembers inherited =
      scan corpus pair parentMembers inherited := by
  rw [scan, scan, h.1, h.2]

theorem attachPair_same (below below' : Path → MemberTable → Grown → Except Failure Grown)
    (folder : Path) (members : MemberTable) (grown : Grown) (pair : SourcePair)
    (h : SamePair corpus.tree tree' pair)
    (hbelow : ∀ members grown, below' (Path.join folder pair.name) members grown =
      below (Path.join folder pair.name) members grown) :
    attachPair { corpus with tree := tree' } below' folder members grown pair =
      attachPair corpus below folder members grown pair := by
  rw [attachPair, attachPair, scan_same corpus tree' pair members _ h]
  simp only [hbelow]

theorem attachChildren_same (levels : Nat) (folder : Path) (members : MemberTable) (grown : Grown)
    (h : Alike corpus.extensions corpus.tree tree' levels folder) :
    attachChildren { corpus with tree := tree' } levels folder members grown =
      attachChildren corpus levels folder members grown := by
  induction levels generalizing folder members grown with
  | zero => rfl
  | succ levels ih =>
    obtain ⟨hheaders, halike⟩ := h
    have hcollect : SourcePair.collect tree' corpus.extensions folder =
        SourcePair.collect corpus.tree corpus.extensions folder := by
      rw [SourcePair.collect_headers, SourcePair.collect_headers, hheaders]
      exact mapM_congr _ _ _ (fun header hm => (halike header hm).found)
    rw [attachChildren, attachChildren, hcollect]
    cases hpairs : SourcePair.collect corpus.tree corpus.extensions folder with
    | error fault => rfl
    | ok pairs =>
      refine foldlM_congr _ _ pairs ?_ grown
      intro pair hm own
      rw [SourcePair.collect_headers] at hpairs
      obtain ⟨header, hheader, hpair⟩ := mem_mapM _ _ pairs hpairs pair hm
      have hsame := halike header hheader
      exact attachPair_same corpus tree' _ _ folder members own pair (hsame.files pair hpair)
        (fun members grown => ih _ members grown (hsame.below pair hpair))

end children

theorem build_alike (settings : Settings) (translations : TranslationTable) (tree tree' : FileTree)
    (category : Category)
    (hbase : basePair settings tree' category = basePair settings tree category)
    (hbelow : ∀ base, basePair settings tree category = .ok base →
      SamePair tree tree' base ∧
        Alike ⟨settings.headerExtension, settings.sourceExtension⟩ tree tree' (levels category)
          (Path.join (Path.join settings.sourceRoot category.folder) settings.childrenFolder)) :
    build settings translations tree' category = build settings translations tree category := by
  change (basePair settings tree' category >>= _) = (basePair settings tree category >>= _)
  rw [hbase]
  cases hfound : basePair settings tree category with
  | error fault => rfl
  | ok base =>
    obtain ⟨hfiles, halike⟩ := hbelow base hfound
    let own := corpus settings translations tree
    change (scan { own with tree := tree' } base MemberTable.framework seed >>= _) =
      (scan own base MemberTable.framework seed >>= _)
    rw [scan_same own tree' base MemberTable.framework seed hfiles]
    cases scan own base MemberTable.framework seed with
    | error fault => rfl
    | ok scanned =>
      have hchildren (members : MemberTable) (grown : Grown) :=
        attachChildren_same own tree' (levels category) _ members grown halike
      change (attachChildren { own with tree := tree' } _ _ scanned.members _ >>= _) =
        (attachChildren own _ _ scanned.members _ >>= _)
      rw [hchildren]

section views
variable (extensions : Extensions) (tree tree' : FileTree)

theorem pair_views (folder : Path) (header : Text) (pair : SourcePair)
    (h : SameViews extensions.header tree tree' (SourcePair.paths extensions folder header))
    (hpair : SourcePair.ofHeader tree extensions folder header = .ok pair) :
    SamePair tree tree' pair := by
  obtain ⟨-, hpaths⟩ := SourcePair.ofHeader_pair extensions tree folder header pair hpair
  rw [hpaths] at h
  constructor
  · rw [readText_view extensions.header, readText_view extensions.header, h pair.header (by simp)]
  · rw [readText_view extensions.header, readText_view extensions.header, h pair.source (by simp)]

theorem headersIn_view (folder : Path)
    (h : tree'.view extensions.header folder = tree.view extensions.header folder) :
    SourcePair.headersIn extensions tree' folder = SourcePair.headersIn extensions tree folder := by
  rw [SourcePair.headersIn, SourcePair.headersIn, names_view, names_view, h]

theorem childPaths_headers (levels : Nat) (folder : Path) :
    childPaths extensions tree (levels + 1) folder =
      folder :: (SourcePair.headersIn extensions tree folder).flatMap (fun header =>
        SourcePair.paths extensions folder header ++
          childPaths extensions tree levels (Path.join folder (SourcePair.stem header))) := by
  rw [childPaths, SourcePair.headersIn]
  cases tree.namesWithExtension folder extensions.header with
  | ok headers => rfl
  | error fault => rfl

theorem alike_views (levels : Nat) (folder : Path)
    (h : SameViews extensions.header tree tree' (childPaths extensions tree levels folder)) :
    Alike extensions tree tree' levels folder := by
  induction levels generalizing folder with
  | zero => trivial
  | succ levels ih =>
    rw [childPaths_headers] at h
    refine ⟨headersIn_view extensions tree tree' folder (h folder List.mem_cons_self), ?_⟩
    intro header hheader
    have hbelow (path : Path) (hp : path ∈ SourcePair.paths extensions folder header ++
        childPaths extensions tree levels (Path.join folder (SourcePair.stem header))) :
        tree'.view extensions.header path = tree.view extensions.header path :=
      h path (List.mem_cons_of_mem _ (List.mem_flatMap.mpr ⟨header, hheader, hp⟩))
    have hpaths : SameViews extensions.header tree tree'
        (SourcePair.paths extensions folder header) :=
      fun path hp => hbelow path (List.mem_append_left _ hp)
    refine ⟨SourcePair.ofHeader_same extensions tree tree' folder header hpaths, ?_, ?_⟩
    · exact fun pair hpair => pair_views extensions tree tree' folder header pair hpaths hpair
    · intro pair hpair
      obtain ⟨hname, -⟩ := SourcePair.ofHeader_pair extensions tree folder header pair hpair
      rw [hname]
      exact ih _ (fun path hp => hbelow path (List.mem_append_right _ hp))

end views

/-- A build is decided by what the paths show that it reads. -/
theorem build_same (settings : Settings) (translations : TranslationTable) (tree tree' : FileTree)
    (category : Category)
    (h : SameViews settings.headerExtension tree tree' (readPaths settings tree category)) :
    build settings translations tree' category = build settings translations tree category := by
  let extensions : Extensions := ⟨settings.headerExtension, settings.sourceExtension⟩
  let folder := Path.join settings.sourceRoot category.folder
  have hfolder : SameViews extensions.header tree tree' [folder] :=
    fun path hp => h path (by rw [List.mem_singleton.mp hp]; exact List.mem_cons_self)
  have hbelow (header : Text) (hchoice : SourcePair.baseChoice? extensions tree folder
        category.folder category.base = some header) (path : Path)
      (hp : path ∈ SourcePair.paths extensions folder header ++ childPaths extensions tree
        (levels category) (Path.join folder settings.childrenFolder)) :
      tree'.view settings.headerExtension path = tree.view settings.headerExtension path := by
    refine h path (List.mem_cons_of_mem _ ?_)
    change path ∈ (match SourcePair.baseChoice? extensions tree folder category.folder
      category.base with
      | some header => _
      | none => _)
    rw [hchoice]
    exact hp
  apply build_alike settings translations tree tree' category
  · exact SourcePair.findBase_same extensions tree tree' folder category.folder category.base
      hfolder (fun header hchoice path hp => hbelow header hchoice path (List.mem_append_left _ hp))
  · intro base hfound
    obtain ⟨header, hchoice, hpair⟩ :=
      SourcePair.findBase_pair extensions tree folder category.folder category.base base hfound
    exact ⟨pair_views extensions tree tree' folder header base
        (fun path hp => hbelow header hchoice path (List.mem_append_left _ hp)) hpair,
      alike_views extensions tree tree' _ _
        (fun path hp => hbelow header hchoice path (List.mem_append_right _ hp))⟩

end ParameterManual.Assembly
