import ParameterManual.Proofs.Assembly.Reading
import ParameterManual.Proofs.Files.Below

/-!
# Where a build looks

A header and its definition file are read in the folder that they lie in, and
the folders that a build comes to are that of its category, the children folder
in it and the folders in that. So a build depends on what is below the folder
of its category, and each subtype on a few of the files there.
-/

set_option autoImplicit false

namespace ParameterManual.Assembly
open FileTree

section folders
variable (extensions : Extensions) (tree tree' : FileTree)

def SameFiles (folder : Path) : Prop := ∀ name, tree'.held folder [name] = tree.held folder [name]

theorem headers_same (folder : Path) (h : SameFiles tree tree' folder) :
    SourcePair.headersIn extensions tree' folder = SourcePair.headersIn extensions tree folder := by
  apply TextMap.ordered_ext _ _ (SourcePair.headersIn_sorted extensions tree' folder)
    (SourcePair.headersIn_sorted extensions tree folder)
  intro header
  rw [SourcePair.mem_headersIn, SourcePair.mem_headersIn, h header]

theorem nested_files (folder : Path) (children : Text) (hfolder : folder ≠ [])
    (hchildren : Path.IsName children) (header : Text) (hname : '/' ∉ header)
    (hheader : header ∈ SourcePair.headersIn extensions tree (Path.join folder children))
    (hdot : SourcePair.stem header ≠ ['.'])
    (hown : tree'.held folder [children, header] = tree.held folder [children, header])
    (hfiles : SameFiles tree tree' folder)
    (hnested : ∀ name, tree'.held folder [children, SourcePair.stem header, name] =
      tree.held folder [children, SourcePair.stem header, name]) :
    SameFiles tree tree' (Path.join (Path.join folder children) (SourcePair.stem header)) := by
  obtain ⟨hextension, hfile⟩ :=
    (SourcePair.mem_headersIn extensions tree (Path.join folder children) header).mp hheader
  have hjoin := Path.join_nonempty folder children hchildren.noSlash hchildren.nonempty
  rw [held_join tree folder children hchildren hfolder] at hfile
  intro name
  by_cases hdots : SourcePair.stem header = ['.', '.']
  -- the subtypes are then read from the folder of the category once more
  · obtain ⟨entries, he⟩ := held_above tree folder [children] header hfile
    obtain ⟨entries', he'⟩ := held_above tree' folder [children] header (by
      rw [List.singleton_append, hown]
      exact hfile)
    rw [hdots, held, held, below_parent tree folder children hchildren hfolder entries he,
      below_parent tree' folder children hchildren hfolder entries' he']
    exact hfiles name
  · have hstem : Path.IsName (SourcePair.stem header) :=
      ⟨SourcePair.stem_nonempty extensions.header header hextension,
        SourcePair.stem_names header hname, hdot, hdots⟩
    rw [held_join tree' _ _ hstem hjoin, held_join tree _ _ hstem hjoin,
      held_join tree' folder children hchildren hfolder,
      held_join tree folder children hchildren hfolder]
    exact hnested name

variable (hslash : '/' ∉ extensions.source)
include hslash

theorem header_alike (below : Path → Prop) (folder : Path) (hfolder : folder ≠ [])
    (header : Text) (hname : '/' ∉ header)
    (hheader : header ∈ SourcePair.headersIn extensions tree folder)
    (hown : tree'.held folder [header] = tree.held folder [header])
    (hdefinition : tree'.held folder
        [SourcePair.definitionName extensions.source (SourcePair.stem header)] =
      tree.held folder [SourcePair.definitionName extensions.source (SourcePair.stem header)])
    (hbelow : SourcePair.stem header ≠ ['.'] → below (Path.join folder (SourcePair.stem header))) :
    HeaderAlike extensions tree tree' below folder header := by
  obtain ⟨hextension, hfile⟩ := (SourcePair.mem_headersIn extensions tree folder header).mp hheader
  by_cases hup : SourcePair.definitionName extensions.source (SourcePair.stem header) = ['.', '.']
  -- the definition is sought in the folder above, where it is no file in either tree
  · have hnone := SourcePair.ofHeader_up extensions tree folder header hfolder hup
    refine ⟨?_, ?_, ?_⟩
    · rw [hnone, SourcePair.ofHeader_up extensions tree' folder header hfolder hup]
    · intro pair hpair
      cases hnone.symm.trans hpair
    · intro pair hpair
      cases hnone.symm.trans hpair
  · have hheld := SourcePair.header_name extensions header hname hextension hup
    have hplain := (SourcePair.definition_name extensions.source (SourcePair.stem header) hslash
      (SourcePair.stem_names header hname)
      (SourcePair.stem_nonempty extensions.header header hextension)).resolve_right hup
    have hfound := SourcePair.ofHeader_held extensions tree folder header hfolder hplain
    refine ⟨?_, ?_, ?_⟩
    · rw [hfound, SourcePair.ofHeader_held extensions tree' folder header hfolder hplain,
        hdefinition]
    · intro pair hpair
      rw [hfound] at hpair
      split at hpair
      · rename_i hsource
        obtain rfl := Except.ok.inj hpair
        exact ⟨readText_join tree tree' folder header hheld hfolder hown hfile,
          readText_join tree tree' folder _ hplain hfolder hdefinition hsource⟩
      · cases hpair
    · intro pair hpair
      obtain ⟨hstem, -⟩ := SourcePair.ofHeader_pair extensions tree folder header pair hpair
      rw [hstem]
      apply hbelow
      intro hdot
      exact hup (if_pos hdot)

variable (hnamed : Named tree)
include hnamed

theorem files_alike (folder : Path) (hfolder : folder ≠ []) (h : SameFiles tree tree' folder) :
    Alike extensions tree tree' 1 folder := by
  refine ⟨headers_same extensions tree tree' folder h, ?_⟩
  intro header hheader
  exact header_alike extensions tree tree' hslash _ folder hfolder header
    (SourcePair.header_noSlash extensions tree folder header hnamed hheader) hheader (h _) (h _)
    (fun _ => trivial)

theorem child_alike (levels : Nat) (hlevels : levels ≤ 1) (folder : Path) (children : Text)
    (hfolder : folder ≠ []) (hchildren : Path.IsName children) (header : Text)
    (hheader : header ∈ SourcePair.headersIn extensions tree (Path.join folder children))
    (hfiles : SameFiles tree tree' folder)
    (hown : tree'.held folder [children, header] = tree.held folder [children, header])
    (hdefinition : tree'.held folder
        [children, SourcePair.definitionName extensions.source (SourcePair.stem header)] =
      tree.held folder
        [children, SourcePair.definitionName extensions.source (SourcePair.stem header)])
    (hnested : ∀ name, tree'.held folder [children, SourcePair.stem header, name] =
      tree.held folder [children, SourcePair.stem header, name]) :
    HeaderAlike extensions tree tree' (Alike extensions tree tree' levels)
      (Path.join folder children) header := by
  have hjoin := Path.join_nonempty folder children hchildren.noSlash hchildren.nonempty
  have hname := SourcePair.header_noSlash extensions tree _ header hnamed hheader
  have hin (t : FileTree) (place : List Text) := held_join t folder children hchildren hfolder place
  apply header_alike extensions tree tree' hslash _ _ hjoin header hname hheader
  · rw [hin, hin, hown]
  · rw [hin, hin, hdefinition]
  · intro hdot
    have hsame := nested_files extensions tree tree' folder children hfolder hchildren header hname
      hheader hdot hown hfiles hnested
    have hstem := SourcePair.stem_nonempty extensions.header header
      ((SourcePair.mem_headersIn extensions tree _ header).mp hheader).1
    rcases Nat.le_one_iff_eq_zero_or_eq_one.mp hlevels with rfl | rfl
    · trivial
    · exact files_alike extensions tree tree' hslash hnamed _
        (Path.join_nonempty _ _ (SourcePair.stem_names header hname) hstem) hsame

end folders

section base
variable (settings : Settings) (tree tree' : FileTree) (category : Category)

theorem folder_nonempty (folder : Path) (h : tree.isFolder folder = true) : folder ≠ [] := by
  rintro rfl
  cases h

theorem base_same (hslash : '/' ∉ settings.sourceExtension) (hnamed : Named tree)
    (hkind : tree'.isFolder (Path.join settings.sourceRoot category.folder) =
      tree.isFolder (Path.join settings.sourceRoot category.folder))
    (hfiles : SameFiles tree tree' (Path.join settings.sourceRoot category.folder)) :
    basePair settings tree' category = basePair settings tree category ∧
      ∀ base, basePair settings tree category = .ok base → SamePair tree tree' base := by
  let extensions : Extensions := ⟨settings.headerExtension, settings.sourceExtension⟩
  let folder := Path.join settings.sourceRoot category.folder
  rw [basePair, basePair, SourcePair.findBase_headers, SourcePair.findBase_headers, hkind,
    headers_same extensions tree tree' folder hfiles]
  by_cases hfolder : tree.isFolder folder = true
  · rw [if_pos hfolder, if_pos hfolder]
    cases hchoice : SourcePair.baseHeader? category.folder category.base
        (SourcePair.headersIn extensions tree folder) with
    | none =>
      refine ⟨rfl, ?_⟩
      intro base hbase
      cases hbase
    | some header =>
      have hheader := SourcePair.baseHeader_mem _ _ _ header hchoice
      have halike := header_alike extensions tree tree' hslash (fun _ => True) folder
        (folder_nonempty tree folder hfolder) header
        (SourcePair.header_noSlash extensions tree folder header hnamed hheader) hheader
        (hfiles _) (hfiles _) (fun _ => trivial)
      exact ⟨halike.found, halike.files⟩
  · rw [if_neg hfolder, if_neg hfolder]
    refine ⟨rfl, ?_⟩
    intro base hbase
    cases hbase

theorem base_folder (base : SourcePair) (h : basePair settings tree category = .ok base) :
    Path.join settings.sourceRoot category.folder ≠ [] := by
  rw [basePair, SourcePair.findBase_headers] at h
  by_cases hfolder : tree.isFolder (Path.join settings.sourceRoot category.folder) = true
  · exact folder_nonempty tree _ hfolder
  · rw [if_neg hfolder] at h
    cases h

end base

/-- Below a folder, two trees have the same folders, and the same files with
the same contents. -/
def SameBelow (tree tree' : FileTree) (folder : Path) : Prop :=
  ∀ place, tree'.shown folder place = tree.shown folder place

/-- A build depends on what is below the folder of its category. -/
theorem build_below (settings : Settings) (translations : TranslationTable) (tree tree' : FileTree)
    (category : Category) (hchildren : Path.IsName settings.childrenFolder)
    (hslash : '/' ∉ settings.sourceExtension) (hnamed : Named tree)
    (h : SameBelow tree tree' (Path.join settings.sourceRoot category.folder)) :
    build settings translations tree' category = build settings translations tree category := by
  let extensions : Extensions := ⟨settings.headerExtension, settings.sourceExtension⟩
  let folder := Path.join settings.sourceRoot category.folder
  have hheld (place : List Text) : tree'.held folder place = tree.held folder place := by
    rw [held_shown, held_shown, h place]
  have hkind : tree'.isFolder folder = tree.isFolder folder := by
    rw [isFolder_shown, isFolder_shown, h []]
  obtain ⟨hbase, hfiles⟩ := base_same settings tree tree' category hslash hnamed hkind
    (fun name => hheld [name])
  apply build_alike settings translations tree tree' category hbase
  intro base hfound
  have hfolder := base_folder settings tree category base hfound
  have hin (t : FileTree) := held_join t folder settings.childrenFolder hchildren hfolder
  obtain ⟨n, hn, hlevels⟩ := levels_bound category
  rw [hlevels]
  refine ⟨hfiles base hfound, ?_, ?_⟩
  · apply headers_same
    intro name
    rw [hin, hin, hheld]
  · intro header hheader
    exact child_alike extensions tree tree' hslash hnamed n hn folder settings.childrenFolder
      hfolder hchildren header hheader (fun name => hheld [name]) (hheld _) (hheld _)
      (fun name => hheld _)

end ParameterManual.Assembly
