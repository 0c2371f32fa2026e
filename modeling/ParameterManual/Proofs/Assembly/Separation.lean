import ParameterManual.Proofs.Assembly.Locality
import ParameterManual.Proofs.Assembly.Siblings

/-!
# Types are built apart

The node of a subtype depends on the files of the base type and on its own.
What is said of one subtype in the children folder does not reach another,
unless a definition file of the one has the stem of the other.
-/

set_option autoImplicit false

namespace ParameterManual.Assembly
open FileTree

section types
variable (tree tree' : FileTree) (folder : Path) (children type : Text)

/-- Whether a place below the folder of a category belongs to a type: it is
that of a file of this stem in the children folder, or that of the folder of
this name there, or below it. -/
def belongs : List Text → Bool
  | first :: name :: _ => first == children &&
      match tree.shown folder [first, name] with
      | some (some _) => SourcePair.stem name == type
      | some none => name == type
      | none => false
  | _ => false

def besides (place : List Text) : Option (Option Content) :=
  if belongs tree folder children type place then none else tree.shown folder place

/-- Below the folder of a category, two trees differ in nothing but what
belongs to a type. -/
def SameBesides : Prop :=
  ∀ place, besides tree' folder children type place = besides tree folder children type place

variable {tree tree' folder children type}

theorem besides_held (h : SameBesides tree tree' folder children type) (place : List Text)
    (content : Content) (hbelongs : belongs tree folder children type place = false)
    (hheld : tree.held folder place = some content) :
    tree'.held folder place = some content := by
  have hshown := h place
  rw [held_shown, Option.join_eq_some_iff] at hheld ⊢
  rw [besides, besides, hbelongs, hheld] at hshown
  split at hshown
  · cases hshown
  · exact hshown

theorem held_besides (h : SameBesides tree tree' folder children type) (place : List Text)
    (hbelongs : ∀ t : FileTree, (t.held folder place).isSome = true →
      belongs t folder children type place = false) :
    tree'.held folder place = tree.held folder place := by
  apply Option.ext
  intro content
  constructor
  · intro hheld
    have hback : SameBesides tree' tree folder children type := fun place => (h place).symm
    exact besides_held hback place content (hbelongs tree' (by rw [hheld]; rfl)) hheld
  · intro hheld
    exact besides_held h place content (hbelongs tree (by rw [hheld]; rfl)) hheld

theorem besides_base (h : SameBesides tree tree' folder children type) :
    SameFiles tree tree' folder :=
  fun name => held_besides h [name] (fun _ _ => rfl)

theorem besides_own (h : SameBesides tree tree' folder children type) (name : Text)
    (hname : SourcePair.stem name ≠ type) :
    tree'.held folder [children, name] = tree.held folder [children, name] := by
  apply held_besides h
  intro t hfile
  obtain ⟨content, hcontent⟩ := Option.isSome_iff_exists.mp hfile
  rw [held_shown, Option.join_eq_some_iff] at hcontent
  rw [belongs, hcontent]
  simpa using hname

theorem besides_nested (h : SameBesides tree tree' folder children type) (own name : Text)
    (hown : own ≠ type) :
    tree'.held folder [children, own, name] = tree.held folder [children, own, name] := by
  apply held_besides h
  intro t hfile
  obtain ⟨entries, hentries⟩ := held_above t folder [children, own] name hfile
  rw [belongs, shown, hentries]
  change (children == children && own == type) = false
  simpa using hown

end types

section siblings
variable (corpus : Corpus) (tree' : FileTree)

theorem yields_alike (levels : Nat) (folder : Path) (members : MemberTable) (node : ClassNode)
    (header : Text) (built : Grown)
    (h : HeaderAlike corpus.extensions corpus.tree tree'
      (Alike corpus.extensions corpus.tree tree' levels) folder header)
    (hbuilt : Yields { corpus with tree := tree' } levels folder members node header built) :
    Yields corpus levels folder members node header built := by
  obtain ⟨pair, hpair, scanned, hscanned, hchildren⟩ := hbuilt
  have hfound : SourcePair.ofHeader corpus.tree corpus.extensions folder header = .ok pair :=
    h.found.symm.trans hpair
  rw [scan_same corpus tree' pair members _ (h.files pair hfound)] at hscanned
  rw [attachChildren_same corpus tree' levels _ _ _ (h.below pair hfound)] at hchildren
  exact ⟨pair, hfound, scanned, hscanned, hchildren⟩

theorem yields_unique (levels : Nat) (folder : Path) (members : MemberTable) (node : ClassNode)
    (header : Text) (built other : Grown)
    (h : Yields corpus levels folder members node header built)
    (h' : Yields corpus levels folder members node header other) : built = other := by
  obtain ⟨pair, hpair, scanned, hscanned, hbuilt⟩ := h
  obtain ⟨pair', hpair', scanned', hscanned', hother⟩ := h'
  obtain rfl := Except.ok.inj (hpair.symm.trans hpair')
  obtain rfl := Except.ok.inj (hscanned.symm.trans hscanned')
  exact Except.ok.inj (hbuilt.symm.trans hother)

theorem yields_named (levels : Nat) (folder : Path) (members : MemberTable) (node : ClassNode)
    (name : Text) (headers : List Text) (built : List Grown)
    (h : List.Forall₂ (Yields corpus levels folder members node) headers built) :
    List.Forall₂ (Yields corpus levels folder members node)
      (headers.filter (fun header => SourcePair.stem header = name))
      (built.filter (fun b => b.1.name = name)) := by
  refine List.rel_filter ?_ h
  intro header b hyields
  have hname := yields_name corpus levels folder members node header b hyields
  simp only [hname]

theorem entries_named (name : Text) (built : List Grown) :
    TextMap.find? name (TextMap.ofEntries (entriesOf built)) = TextMap.find? name
      (TextMap.ofEntries (entriesOf (built.filter (fun b => b.1.name = name)))) := by
  have hown := TextMap.find?_insertAll_own (entriesOf built) [] [] name rfl
  rw [entriesOf, List.filter_map] at hown
  exact hown

theorem children_named (levels : Nat) (folder : Path) (members : MemberTable)
    (grown result result' : Grown) (hempty : grown.1.children = []) (name : Text)
    (h : attachChildren corpus (levels + 1) folder members grown = .ok result)
    (h' : attachChildren { corpus with tree := tree' } (levels + 1) folder members grown =
      .ok result')
    (hheaders : (SourcePair.headersIn corpus.extensions tree' folder).filter
        (fun header => SourcePair.stem header = name) =
      (SourcePair.headersIn corpus.extensions corpus.tree folder).filter
        (fun header => SourcePair.stem header = name))
    (halike : ∀ header ∈ SourcePair.headersIn corpus.extensions corpus.tree folder,
      SourcePair.stem header = name → HeaderAlike corpus.extensions corpus.tree tree'
        (Alike corpus.extensions corpus.tree tree' levels) folder header) :
    TextMap.find? name result'.1.children = TextMap.find? name result.1.children := by
  obtain ⟨built, hbuilt, rfl⟩ :=
    (attachChildren_ok corpus levels folder members grown result).mp h
  obtain ⟨built', hbuilt', rfl⟩ :=
    (attachChildren_ok { corpus with tree := tree' } levels folder members grown result').mp h'
  have hown := yields_named corpus levels folder members grown.1 name _ built hbuilt
  have hown' := yields_named { corpus with tree := tree' } levels folder members grown.1 name _
    built' hbuilt'
  change List.Forall₂ _ ((SourcePair.headersIn corpus.extensions tree' folder).filter _) _ at hown'
  rw [hheaders] at hown'
  have hsame := forall₂_unique _ _ _ (by
    intro header hm b c hb hc
    obtain ⟨hheader, hstem⟩ := List.mem_filter.mp hm
    have hback := yields_alike corpus tree' levels folder members grown.1 header c
      (halike header hheader (by simpa using hstem)) hc
    exact yields_unique corpus levels folder members grown.1 header b c hb hback) hown hown'
  rw [attachAll_children grown built hempty, attachAll_children grown built' hempty,
    entries_named name built', entries_named name built, hsame]

end siblings

/-- No other type of the children folder has its definition file among the
files of a type's stem. -/
def DefinedApart (extensions : Extensions) (tree : FileTree) (folder : Path) (type : Text) : Prop :=
  ∀ header ∈ SourcePair.headersIn extensions tree folder, SourcePair.stem header ≠ type →
    SourcePair.stem (SourcePair.definitionName extensions.source (SourcePair.stem header)) ≠ type

theorem defined_apart (extensions : Extensions) (tree : FileTree) (folder : Path) (type : Text)
    (hne : extensions.source ≠ []) (hdot : '.' ∉ extensions.source) :
    DefinedApart extensions tree folder type := by
  intro header hheader hother
  have hextension := ((SourcePair.mem_headersIn extensions tree folder header).mp hheader).1
  rw [SourcePair.definition_stem extensions.source _ hne hdot
    (SourcePair.stem_nonempty extensions.header header hextension)]
  exact hother

section apart
variable (extensions : Extensions) (tree tree' : FileTree) (folder : Path) (children type : Text)
  (hfolder : folder ≠ []) (hchildren : Path.IsName children)
  (h : SameBesides tree tree' folder children type)
include hfolder hchildren h

theorem headers_besides (name : Text) (hname : name ≠ type) :
    (SourcePair.headersIn extensions tree' (Path.join folder children)).filter
        (fun header => SourcePair.stem header = name) =
      (SourcePair.headersIn extensions tree (Path.join folder children)).filter
        (fun header => SourcePair.stem header = name) := by
  apply TextMap.ordered_ext _ _
    ((SourcePair.headersIn_sorted extensions tree' _).sublist List.filter_sublist)
    ((SourcePair.headersIn_sorted extensions tree _).sublist List.filter_sublist)
  intro header
  simp only [List.mem_filter, SourcePair.mem_headersIn, decide_eq_true_eq]
  apply and_congr_left
  rintro rfl
  rw [held_join tree' folder children hchildren hfolder,
    held_join tree folder children hchildren hfolder, besides_own h header hname]

theorem child_besides (hslash : '/' ∉ extensions.source) (hnamed : Named tree)
    (hapart : DefinedApart extensions tree (Path.join folder children) type) (levels : Nat)
    (hlevels : levels ≤ 1) (header : Text)
    (hheader : header ∈ SourcePair.headersIn extensions tree (Path.join folder children))
    (hother : SourcePair.stem header ≠ type) :
    HeaderAlike extensions tree tree' (Alike extensions tree tree' levels)
      (Path.join folder children) header :=
  child_alike extensions tree tree' hslash hnamed levels hlevels folder children hfolder hchildren
    header hheader (besides_base h) (besides_own h header hother)
    (besides_own h _ (hapart header hheader hother))
    (fun name => besides_nested h (SourcePair.stem header) name hother)

end apart

/-- Where two trees differ in nothing but what belongs to a type, their builds
differ in nothing but the subtype of this name. -/
theorem build_besides (settings : Settings) (translations : TranslationTable)
    (tree tree' : FileTree) (category : Category) (type : Text)
    (hchildren : Path.IsName settings.childrenFolder) (hslash : '/' ∉ settings.sourceExtension)
    (hnamed : Named tree)
    (h : SameBesides tree tree' (Path.join settings.sourceRoot category.folder)
      settings.childrenFolder type)
    (hapart : DefinedApart ⟨settings.headerExtension, settings.sourceExtension⟩ tree
      (Path.join (Path.join settings.sourceRoot category.folder) settings.childrenFolder) type)
    (hierarchy hierarchy' : Hierarchy) (statistics statistics' : Statistics)
    (hbuild : build settings translations tree category = .ok (hierarchy, statistics))
    (hbuild' : build settings translations tree' category = .ok (hierarchy', statistics')) :
    SameButChildren hierarchy.root hierarchy'.root ∧ ∀ name, name ≠ type →
      TextMap.find? name hierarchy'.root.children = TextMap.find? name hierarchy.root.children := by
  let folder := Path.join settings.sourceRoot category.folder
  let own := corpus settings translations tree
  have hkind : tree'.isFolder folder = tree.isFolder folder := by
    have hshown : tree'.shown folder [] = tree.shown folder [] := h []
    rw [isFolder_shown, isFolder_shown, hshown]
  obtain ⟨hsame, hfiles⟩ := base_same settings tree tree' category hslash hnamed hkind
    (besides_base h)
  obtain ⟨base, scanned, root, counted, hbase, hscanned, hroot, rfl, -⟩ :=
    (build_ok settings translations tree category hierarchy statistics).mp hbuild
  obtain ⟨base', scanned', root', counted', hbase', hscanned', hroot', rfl, -⟩ :=
    (build_ok settings translations tree' category hierarchy' statistics').mp hbuild'
  obtain rfl : base' = base := Except.ok.inj (hbase'.symm.trans (hsame.trans hbase))
  have hscan := scan_same own tree' base' MemberTable.framework seed (hfiles base' hbase)
  obtain rfl : scanned' = scanned := Except.ok.inj (hscanned'.symm.trans (hscan.trans hscanned))
  have hfolder := base_folder settings tree category base' hbase
  have hempty := bareRoot_children base' scanned'
  obtain ⟨hkept, -⟩ := attachChildren_assembled own _ _ _ _ _ hempty hroot
  obtain ⟨hkept', -⟩ := attachChildren_assembled { own with tree := tree' } _ _ _ _ _ hempty hroot'
  refine ⟨same_trans _ _ _ (same_symm _ _ hkept) hkept', ?_⟩
  intro name hname
  obtain ⟨n, hn, hlevels⟩ := levels_bound category
  rw [hlevels] at hroot hroot'
  refine children_named own tree' n _ _ _ _ _ hempty name hroot hroot' ?_ ?_
  · exact headers_besides own.extensions tree tree' folder settings.childrenFolder type hfolder
      hchildren h name hname
  · intro header hheader hstem
    exact child_besides own.extensions tree tree' folder settings.childrenFolder type hfolder
      hchildren h hslash hnamed hapart n hn header hheader (hstem.trans_ne hname)

theorem put_besides (tree : FileTree) (folder : Path) (p : List Text) (children file type : Text)
    (content : Content) (hfolder : tree.place folder = .ok p)
    (hchildren : tree.root.kind (p ++ [children]) = some true)
    (hold : tree.root.kind (p ++ [children] ++ [file]) ≠ some true)
    (htype : SourcePair.stem file = type) :
    SameBesides tree (tree.putAt (p ++ [children], file) (.file content)) folder children type := by
  have hshown := put_shown tree folder p children file content hfolder hchildren hold
  intro q
  match q with
  | [] => exact (hshown []).trans (if_neg (by simp))
  | [first] => exact (hshown [first]).trans (if_neg (by simp))
  | first :: name :: rest =>
    by_cases hsite : [first, name] = [children, file]
    -- in the old tree the place may be empty, and then it belongs to no type
    · obtain ⟨rfl, hname⟩ := List.cons.inj hsite
      obtain ⟨rfl, -⟩ := List.cons.inj hname
      have hnew := hshown [first, name]
      rw [if_pos rfl] at hnew
      rw [besides, besides, belongs, hnew, if_pos (by simpa using htype)]
      rcases old_shown tree folder p first name hfolder hold rest with hnone | ⟨found, hfound⟩
      · rw [hnone, ite_self]
      · rw [belongs, hfound, if_pos (by simpa using htype)]
    · have hrest : first :: name :: rest ≠ [children, file] := by
        intro heq
        exact hsite (congrArg (List.take 2) heq)
      rw [besides, besides, belongs, belongs, hshown, hshown, if_neg hsite, if_neg hrest]

/-- Types and categories are built apart. A build depends on what is below the
folder of its category alone. If two trees differ there in nothing but what
belongs to a type, and no other type is defined in a file of that type's stem,
their builds have the same root and the same subtypes of all other names. -/
theorem types_separate (settings : Settings) (translations : TranslationTable)
    (tree tree' : FileTree) (category : Category)
    (hchildren : Path.IsName settings.childrenFolder) (hslash : '/' ∉ settings.sourceExtension)
    (hnamed : Named tree) :
    (SameBelow tree tree' (Path.join settings.sourceRoot category.folder) →
      build settings translations tree' category = build settings translations tree category) ∧
    ∀ type, SameBesides tree tree' (Path.join settings.sourceRoot category.folder)
        settings.childrenFolder type →
      DefinedApart ⟨settings.headerExtension, settings.sourceExtension⟩ tree
        (Path.join (Path.join settings.sourceRoot category.folder) settings.childrenFolder) type →
      ∀ hierarchy hierarchy' statistics statistics',
        build settings translations tree category = .ok (hierarchy, statistics) →
        build settings translations tree' category = .ok (hierarchy', statistics') →
        SameButChildren hierarchy.root hierarchy'.root ∧
          ∀ name, name ≠ type → TextMap.find? name hierarchy'.root.children =
            TextMap.find? name hierarchy.root.children := by
  constructor
  · exact build_below settings translations tree tree' category hchildren hslash hnamed
  · intro type h hapart hierarchy hierarchy' statistics statistics' hbuild hbuild'
    exact build_besides settings translations tree tree' category type hchildren hslash hnamed h
      hapart hierarchy hierarchy' statistics statistics' hbuild hbuild'

def siblingFolder (extension : String) : Entry :=
  .folder [
    ("Children".toList, .folder [
      (("Ageing." ++ extension).toList, .file (.text "Ageing::Ageing() \x7b\n\x7d\n".toList)),
      ("Ageing.h".toList, .file (.text "class Ageing \x7b\n\x7d;\n".toList)),
      (("Growth." ++ extension).toList, .file (.text "Growth::Growth() \x7b\n\x7d\n".toList)),
      ("Growth.h".toList, .file (.text "class Growth \x7b\n  Double rate_;\n\x7d;\n".toList))]),
    (("Process." ++ extension).toList, .file (.text "Process::Process() \x7b\n\x7d\n".toList)),
    ("Process.h".toList, .file (.text "class Process \x7b\n\x7d;\n".toList))]

def siblingTree (extension : String) : FileTree :=
  ⟨.folder [("source".toList, .folder [("Processes".toList, siblingFolder extension)])], []⟩

def boundGrowth : Content :=
  .text ("Growth::Growth() \x7b\n" ++
    "  parameters_.Bind<Double>(PARAM_RATE, &rate_, \"Rate\", \"\");\n\x7d\n").toList

def boundTree (extension : String) : FileTree :=
  (siblingTree extension).putAt
    (["source".toList, "Processes".toList] ++ ["Children".toList], ("Growth." ++ extension).toList)
    (.file boundGrowth)

def neighbourTree : FileTree :=
  ⟨.folder [("source".toList, .folder [("Deaths".toList, .folder []),
    ("Processes".toList, siblingFolder "cpp")])], []⟩

theorem types_separate_siblings :
    build Settings.standard labelTable neighbourTree (Category.ofFolder "Processes".toList) =
        build Settings.standard labelTable (siblingTree "cpp")
          (Category.ofFolder "Processes".toList) ∧
      ∃ hierarchy hierarchy' statistics statistics',
        build Settings.standard labelTable (siblingTree "cpp")
            (Category.ofFolder "Processes".toList) = .ok (hierarchy, statistics) ∧
        build Settings.standard labelTable (boundTree "cpp")
            (Category.ofFolder "Processes".toList) = .ok (hierarchy', statistics') ∧
        statistics.documentedVariables = 2 ∧ statistics'.documentedVariables = 3 ∧
        SameButChildren hierarchy.root hierarchy'.root ∧
        TextMap.find? "Ageing".toList hierarchy'.root.children =
          TextMap.find? "Ageing".toList hierarchy.root.children := by
  have hnamed : Named (siblingTree "cpp") := named_plain _ (by decide)
  obtain ⟨hsame, -⟩ := types_separate Settings.standard labelTable (siblingTree "cpp")
    neighbourTree (Category.ofFolder "Processes".toList) (by decide) (by decide) hnamed
  refine ⟨hsame (fun _ => rfl), ?_⟩
  obtain ⟨built, hbuild, hcount⟩ := ok_measured (fun b => b.2.documentedVariables) 2
    (by decide +kernel : ((build Settings.standard labelTable (siblingTree "cpp")
      (Category.ofFolder "Processes".toList)).map _).toOption = _)
  obtain ⟨built', hbuild', hcount'⟩ := ok_measured (fun b => b.2.documentedVariables) 3
    (by decide +kernel : ((build Settings.standard labelTable (boundTree "cpp")
      (Category.ofFolder "Processes".toList)).map _).toOption = _)
  obtain ⟨-, hbesides⟩ := types_separate Settings.standard labelTable (siblingTree "cpp")
    (boundTree "cpp") (Category.ofFolder "Processes".toList) (by decide) (by decide) hnamed
  have hwritten : SameBesides (siblingTree "cpp") (boundTree "cpp") "source/Processes".toList
      "Children".toList "Growth".toList :=
    put_besides _ _ _ _ _ _ _ rfl rfl (by decide) rfl
  obtain ⟨hroot, hchildren⟩ := hbesides "Growth".toList hwritten
    (defined_apart _ _ _ _ (by decide) (by decide)) built.1 built'.1 built.2 built'.2 hbuild hbuild'
  exact ⟨built.1, built'.1, built.2, built'.2, hbuild, hbuild', hcount, hcount', hroot,
    hchildren "Ageing".toList (by decide)⟩

def dottedSettings : Settings := { Settings.standard with sourceExtension := "impl.cpp".toList }

/-- With a dot in the extension the definition file of one type may have the
stem of another, and what differs in this stem alone reaches the first. -/
theorem dotted_extension_reaches :
    Path.IsName dottedSettings.childrenFolder ∧ '/' ∉ dottedSettings.sourceExtension ∧
      Named (siblingTree "impl.cpp") ∧
      SameBesides (siblingTree "impl.cpp") (boundTree "impl.cpp")
        (Path.join dottedSettings.sourceRoot "Processes".toList) dottedSettings.childrenFolder
        "Growth.impl".toList ∧
      ∃ hierarchy hierarchy' statistics statistics',
        build dottedSettings labelTable (siblingTree "impl.cpp")
            (Category.ofFolder "Processes".toList) = .ok (hierarchy, statistics) ∧
        build dottedSettings labelTable (boundTree "impl.cpp")
            (Category.ofFolder "Processes".toList) = .ok (hierarchy', statistics') ∧
        TextMap.find? "Growth".toList hierarchy'.root.children ≠
          TextMap.find? "Growth".toList hierarchy.root.children := by
  refine ⟨by decide, by decide, named_plain _ (by decide), ?_, ?_⟩
  · exact put_besides _ _ _ _ _ _ _ rfl rfl (by decide) rfl
  · let order (b : Hierarchy × Statistics) : Option (List Text) :=
      (TextMap.find? "Growth".toList b.1.root.children).map (fun child => child.order)
    obtain ⟨built, hbuild, horder⟩ := ok_measured order (some [])
      (by decide +kernel : ((build dottedSettings labelTable (siblingTree "impl.cpp")
        (Category.ofFolder "Processes".toList)).map _).toOption = _)
    obtain ⟨built', hbuild', horder'⟩ := ok_measured order (some ["PARAM_RATE".toList])
      (by decide +kernel : ((build dottedSettings labelTable (boundTree "impl.cpp")
        (Category.ofFolder "Processes".toList)).map _).toOption = _)
    refine ⟨built.1, built'.1, built.2, built'.2, hbuild, hbuild', ?_⟩
    intro heq
    have hsame : order built' = order built := by
      change Option.map _ _ = Option.map _ _
      rw [heq]
    rw [horder, horder'] at hsame
    cases hsame

end ParameterManual.Assembly
