import Mathlib.Algebra.BigOperators.Ring.List
import Mathlib.Algebra.Ring.Nat
import Mathlib.Data.List.Nodup
import ParameterManual.Proofs.Assembly.Siblings

/-!
# Headers that a build visits

Every header that a build comes to in the children folder and in the folders
below it yields a type, and two files are read for it. The type is a node of
the tree as long as no later header of its folder has the same stem. So nodes
and files agree exactly if the stems in each of these folders differ.
-/

set_option autoImplicit false

namespace ParameterManual.Assembly
open ClassNode

section visits
variable (extensions : Extensions) (tree : FileTree)

/-- The headers that are read to attach the types of a folder and of the
folders below it, each with the folder that it lies in. -/
def visits : (levels : Nat) → (folder : Path) → List (Path × Text)
  | 0, _ => []
  | levels + 1, folder =>
    (SourcePair.headersIn extensions tree folder).flatMap (fun header =>
      (folder, header) :: visits levels (Path.join folder (SourcePair.stem header)))

/-- No other header of the folder has the stem. -/
def Alone (v : Path × Text) : Prop :=
  ∀ other ∈ SourcePair.headersIn extensions tree v.1,
    SourcePair.stem other = SourcePair.stem v.2 → other = v.2

def Last (v : Path × Text) : Prop :=
  ∀ other ∈ SourcePair.headersIn extensions tree v.1,
    SourcePair.stem other = SourcePair.stem v.2 → ¬ v.2 < other

theorem alone_last (v : Path × Text) (h : Alone extensions tree v) : Last extensions tree v := by
  intro other hother hstem
  rw [h other hother hstem]
  exact List.lt_irrefl v.2

theorem visits_length (levels : Nat) (folder : Path) :
    (visits extensions tree (levels + 1) folder).length =
      ((SourcePair.headersIn extensions tree folder).map (fun header =>
        1 + (visits extensions tree levels
          (Path.join folder (SourcePair.stem header))).length)).sum := by
  rw [visits, List.length_flatMap]
  simp only [List.length_cons, Nat.add_comm]

theorem mem_visits (levels : Nat) (folder : Path) (v : Path × Text) :
    v ∈ visits extensions tree (levels + 1) folder ↔
      ∃ header ∈ SourcePair.headersIn extensions tree folder, v = (folder, header) ∨
        v ∈ visits extensions tree levels (Path.join folder (SourcePair.stem header)) := by
  simp only [visits, List.mem_flatMap, List.mem_cons]

theorem visits_all (P : Path × Text → Prop) (levels : Nat) (folder : Path) :
    (∀ v ∈ visits extensions tree (levels + 1) folder, P v) ↔
      (∀ header ∈ SourcePair.headersIn extensions tree folder, P (folder, header)) ∧
        ∀ header ∈ SourcePair.headersIn extensions tree folder,
          ∀ v ∈ visits extensions tree levels (Path.join folder (SourcePair.stem header)), P v := by
  constructor
  · intro h
    constructor
    · intro header hheader
      exact h _ ((mem_visits extensions tree levels folder _).mpr ⟨header, hheader, Or.inl rfl⟩)
    · intro header hheader v hv
      exact h v ((mem_visits extensions tree levels folder v).mpr ⟨header, hheader, Or.inr hv⟩)
  · rintro ⟨hown, hbelow⟩ v hv
    obtain ⟨header, hheader, rfl | hv⟩ := (mem_visits extensions tree levels folder v).mp hv
    · exact hown header hheader
    · exact hbelow header hheader v hv

theorem stems_nodup (folder : Path) :
    ((SourcePair.headersIn extensions tree folder).map SourcePair.stem).Nodup ↔
      ∀ header ∈ SourcePair.headersIn extensions tree folder,
        Alone extensions tree (folder, header) := by
  have hnodup : (SourcePair.headersIn extensions tree folder).Nodup := by
    apply (SourcePair.headersIn_sorted extensions tree folder).imp
    rintro a b hlt rfl
    exact List.lt_irrefl a hlt
  rw [List.nodup_map_iff_inj_on hnodup]
  constructor
  · intro h header hheader other hother hstem
    exact h other hother header hheader hstem
  · intro h a ha b hb hstem
    exact h b hb a ha hstem

end visits

section counts
variable (corpus : Corpus)

theorem attachChildren_files (levels : Nat) (folder : Path) (members : MemberTable)
    (grown result : Grown)
    (h : attachChildren corpus levels folder members grown = .ok result) :
    result.2.filesRead = grown.2.filesRead +
      2 * (visits corpus.extensions corpus.tree levels folder).length := by
  induction levels generalizing folder members grown result with
  | zero =>
    obtain rfl := Except.ok.inj h
    rfl
  | succ levels ih =>
    obtain ⟨built, hbuilt, rfl⟩ :=
      (attachChildren_ok corpus levels folder members grown result).mp h
    have heach : List.Forall₂ (fun header (b : Grown) => b.2.filesRead = 2 * (1 + (visits
        corpus.extensions corpus.tree levels (Path.join folder (SourcePair.stem header))).length))
        (SourcePair.headersIn corpus.extensions corpus.tree folder) built := by
      apply hbuilt.imp
      rintro header b ⟨pair, hpair, scanned, -, hbelow⟩
      obtain ⟨hname, -⟩ :=
        SourcePair.ofHeader_pair corpus.extensions corpus.tree folder header pair hpair
      rw [ih _ _ _ b hbelow, hname, Nat.mul_add]
      rfl
    rw [attachAll_files, visits_length, sums_eq _ built heach, List.sum_map_mul_left]

/-- A node has at most a subtype for each visited header, and as many exactly
if no stem comes twice in a folder. -/
theorem attachChildren_types (levels : Nat) (folder : Path) (members : MemberTable)
    (grown result : Grown) (hempty : grown.1.children = [])
    (h : attachChildren corpus levels folder members grown = .ok result) :
    result.1.typeCount ≤ 1 + (visits corpus.extensions corpus.tree levels folder).length ∧
      (result.1.typeCount = 1 + (visits corpus.extensions corpus.tree levels folder).length ↔
        ∀ v ∈ visits corpus.extensions corpus.tree levels folder,
          Alone corpus.extensions corpus.tree v) := by
  induction levels generalizing folder members grown result with
  | zero =>
    obtain rfl := Except.ok.inj h
    rw [typeCount_sum, hempty]
    simp [visits]
  | succ levels ih =>
    obtain ⟨built, hbuilt, rfl⟩ :=
      (attachChildren_ok corpus levels folder members grown result).mp h
    have heach : List.Forall₂ (fun header (b : Grown) =>
        b.1.typeCount ≤ 1 + (visits corpus.extensions corpus.tree levels
            (Path.join folder (SourcePair.stem header))).length ∧
          (b.1.typeCount = 1 + (visits corpus.extensions corpus.tree levels
              (Path.join folder (SourcePair.stem header))).length ↔
            ∀ v ∈ visits corpus.extensions corpus.tree levels
              (Path.join folder (SourcePair.stem header)), Alone corpus.extensions corpus.tree v))
        (SourcePair.headersIn corpus.extensions corpus.tree folder) built := by
      apply hbuilt.imp
      rintro header b ⟨pair, hpair, scanned, -, hbelow⟩
      obtain ⟨hname, -⟩ :=
        SourcePair.ofHeader_pair corpus.extensions corpus.tree folder header pair hpair
      rw [← hname]
      exact ih _ _ _ b (layer_children _ scanned.documented) hbelow
    obtain ⟨hle, heq⟩ := sums_le _ built heach
    have hpositive (e : Text × ClassNode) : 0 < e.2.typeCount := by
      rw [typeCount_sum]
      omega
    obtain ⟨hkept, hall⟩ := TextMap.insertAll_sum (fun e : Text × ClassNode => e.2.typeCount)
      hpositive (entriesOf built) [] List.Pairwise.nil
    have hentries : (entriesOf built).map (fun e => e.2.typeCount) =
        built.map (fun b => b.1.typeCount) := by
      rw [entriesOf, List.map_map]
      rfl
    rw [hentries, entries_names corpus levels folder members grown.1 _ built hbuilt,
      stems_nodup] at hall
    rw [hentries] at hkept
    rw [typeCount_sum, attachAll_children grown built hempty, TextMap.ofEntries, visits_length,
      visits_all, ← heq]
    simp only [List.map_nil, List.sum_nil, Nat.add_zero, TextMap.find?, implies_true,
      and_true] at hkept hall
    refine ⟨by omega, ?_⟩
    rw [← hall]
    omega

theorem last_found (levels : Nat) (folder : Path) (members : MemberTable) (node : ClassNode)
    (headers : List Text) (built : List Grown) (m : TextMap ClassNode)
    (hsorted : headers.Pairwise (· < ·))
    (h : List.Forall₂ (Yields corpus levels folder members node) headers built)
    (header : Text) (hheader : header ∈ headers)
    (hlast : ∀ other ∈ headers,
      SourcePair.stem other = SourcePair.stem header → ¬ header < other) :
    ∃ b, Yields corpus levels folder members node header b ∧
      TextMap.find? (SourcePair.stem header) (TextMap.insertAll (entriesOf built) m) =
        some b.1 := by
  induction h generalizing m with
  | nil => cases hheader
  | @cons first b rest others hfirst hrest ih =>
    obtain ⟨hlt, hsorted⟩ := List.pairwise_cons.mp hsorted
    have hname := yields_name corpus levels folder members node first b hfirst
    rcases List.mem_cons.mp hheader with rfl | hheader
    · refine ⟨b, hfirst, ?_⟩
      have hother : ∀ e ∈ entriesOf others, e.1 ≠ SourcePair.stem header := by
        intro e he hkey
        have hmem : e.1 ∈ (entriesOf others).map Prod.fst := List.mem_map.mpr ⟨e, he, rfl⟩
        rw [entries_names corpus levels folder members node rest others hrest] at hmem
        obtain ⟨other, hm, hstem⟩ := List.mem_map.mp hmem
        exact hlast other (List.mem_cons_of_mem header hm) (hstem.trans hkey) (hlt other hm)
      rw [← hname] at hother ⊢
      exact (TextMap.find?_insertAll_other (entriesOf others) _ b.1.name hother).trans
        (TextMap.find?_insert_self b.1.name b.1 m)
    · exact ih _ hsorted hheader (fun other hm => hlast other (List.mem_cons_of_mem first hm))

theorem stem_found (levels : Nat) (folder : Path) (members : MemberTable) (node : ClassNode)
    (headers : List Text) (built : List Grown)
    (h : List.Forall₂ (Yields corpus levels folder members node) headers built)
    (header : Text) (hheader : header ∈ headers) :
    ∃ other b, SourcePair.stem other = SourcePair.stem header ∧
      Yields corpus levels folder members node other b ∧
      TextMap.find? (SourcePair.stem header) (TextMap.ofEntries (entriesOf built)) =
        some b.1 := by
  have hkey : ∃ e ∈ entriesOf built, e.1 = SourcePair.stem header := by
    apply List.mem_map.mp
    rw [entries_names corpus levels folder members node headers built h]
    exact List.mem_map.mpr ⟨header, hheader, rfl⟩
  obtain ⟨child, hchild, hfind⟩ := TextMap.find?_insertAll_some (entriesOf built) [] _ hkey
  obtain ⟨b, hb, heq⟩ := List.mem_map.mp hchild
  obtain ⟨hname, rfl⟩ := Prod.mk.inj heq
  obtain ⟨other, -, hother⟩ := forall₂_mem headers built h b hb
  refine ⟨other, b, ?_, hother, hfind⟩
  rw [← hname, yields_name corpus levels folder members node other b hother]

/-- The last header of each stem in a folder is where a node is read from. -/
theorem attachChildren_listed (levels : Nat) (folder : Path) (members : MemberTable)
    (grown result : Grown) (hempty : grown.1.children = [])
    (h : attachChildren corpus levels folder members grown = .ok result) (v : Path × Text)
    (hv : v ∈ visits corpus.extensions corpus.tree levels folder)
    (hlast : Last corpus.extensions corpus.tree v) :
    ∃ e ∈ listings result.1.children, e.2.filePath = some (Path.join v.1 v.2) := by
  induction levels generalizing folder members grown result with
  | zero => cases hv
  | succ levels ih =>
    obtain ⟨built, hbuilt, rfl⟩ :=
      (attachChildren_ok corpus levels folder members grown result).mp h
    rw [attachAll_children grown built hempty]
    obtain ⟨header, hheader, hown | hbelow⟩ :=
      (mem_visits corpus.extensions corpus.tree levels folder v).mp hv
    · subst hown
      obtain ⟨b, hb, hfind⟩ := last_found corpus levels folder members grown.1 _ built []
        (SourcePair.headersIn_sorted corpus.extensions corpus.tree folder) hbuilt header hheader
        hlast
      obtain ⟨pair, scanned, -, -, hsame⟩ :=
        yields_derived corpus levels folder members grown.1 header b hb
      have hfile : b.1.filePath = some (Path.join folder header) := by rw [hsame]
      have hmem := TextMap.mem_of_find? _ _ _ hfind
      exact ⟨([SourcePair.stem header], b.1), (mem_listings _ _ _).mpr
        ⟨_, hmem, [], rfl, by rw [listing_cons]; exact List.mem_cons_self⟩, hfile⟩
    · obtain ⟨other, b, hstem, ⟨pair, hpair, scanned, -, hb⟩, hfind⟩ :=
        stem_found corpus levels folder members grown.1 _ built hbuilt header hheader
      obtain ⟨hname, -⟩ :=
        SourcePair.ofHeader_pair corpus.extensions corpus.tree folder other pair hpair
      rw [← hstem, ← hname] at hbelow
      obtain ⟨e, he, hfile⟩ := ih _ _ _ b (layer_children _ scanned.documented) hb hbelow
      have hmem := TextMap.mem_of_find? _ _ _ hfind
      exact ⟨(SourcePair.stem header :: e.1, e.2), (mem_listings _ _ _).mpr
        ⟨_, hmem, e.1, rfl, by rw [listing_cons]; exact List.mem_cons_of_mem _ he⟩, hfile⟩

end counts

def visited (settings : Settings) (tree : FileTree) (category : Category) : List (Path × Text) :=
  visits ⟨settings.headerExtension, settings.sourceExtension⟩ tree (levels category)
    (Path.join (Path.join settings.sourceRoot category.folder) settings.childrenFolder)

/-- A build counts the nodes of its tree, and the last header of each stem in
a folder is that of a node. All visited headers are, and two files are read
for each node, exactly if each visited header is alone with its stem. -/
theorem headers_kept (settings : Settings) (translations : TranslationTable) (tree : FileTree)
    (category : Category) (hierarchy : Hierarchy) (statistics : Statistics)
    (h : build settings translations tree category = .ok (hierarchy, statistics)) :
    statistics.types = hierarchy.root.listing.length ∧
      (∀ v ∈ visited settings tree category,
        Last ⟨settings.headerExtension, settings.sourceExtension⟩ tree v →
          ∃ e ∈ hierarchy.root.listing, e.2.filePath = some (Path.join v.1 v.2)) ∧
      ((∀ v ∈ visited settings tree category,
          ∃ e ∈ hierarchy.root.listing, e.2.filePath = some (Path.join v.1 v.2)) ∧
        statistics.filesRead = 2 * statistics.types ↔
          ∀ v ∈ visited settings tree category,
            Alone ⟨settings.headerExtension, settings.sourceExtension⟩ tree v) := by
  obtain ⟨base, scanned, root, counts, -, -, hroot, rfl, rfl⟩ :=
    (build_ok settings translations tree category hierarchy statistics).mp h
  have hempty := bareRoot_children base scanned
  obtain ⟨-, htypes⟩ := attachChildren_types _ _ _ _ _ _ hempty hroot
  change root.typeCount = _ ↔ _ at htypes
  have hfiles := attachChildren_files _ _ _ _ _ _ hroot
  have hlast (v : Path × Text) (hv : v ∈ visited settings tree category)
      (hlast : Last ⟨settings.headerExtension, settings.sourceExtension⟩ tree v) :
      ∃ e ∈ root.listing, e.2.filePath = some (Path.join v.1 v.2) := by
    obtain ⟨e, he, hfile⟩ := attachChildren_listed _ _ _ _ _ _ hempty hroot v hv hlast
    exact ⟨e, by rw [listing_cons]; exact List.mem_cons_of_mem _ he, hfile⟩
  have hcounts : counts.filesRead = 2 * root.typeCount ↔
      ∀ v ∈ visited settings tree category,
        Alone ⟨settings.headerExtension, settings.sourceExtension⟩ tree v := by
    refine Iff.trans ?_ htypes
    change counts.filesRead = 2 + 2 * _ at hfiles
    rw [hfiles]
    omega
  refine ⟨(listing_length root).symm, hlast, ?_⟩
  constructor
  · rintro ⟨-, hread⟩
    exact hcounts.mp hread
  · intro halone
    exact ⟨fun v hv => hlast v hv (alone_last _ _ v (halone v hv)), hcounts.mpr halone⟩

theorem headers_kept_layered :
    ∃ hierarchy statistics,
      build Settings.standard labelTable layeredTree (Category.ofFolder "Processes".toList) =
        .ok (hierarchy, statistics) ∧
      statistics.types = 3 ∧ statistics.filesRead = 6 ∧
      (visited Settings.standard layeredTree (Category.ofFolder "Processes".toList)).length = 2 ∧
      ∀ v ∈ visited Settings.standard layeredTree (Category.ofFolder "Processes".toList),
        Alone ⟨"h".toList, "cpp".toList⟩ layeredTree v ∧
          ∃ e ∈ hierarchy.root.listing, e.2.filePath = some (Path.join v.1 v.2) := by
  have halone : ∀ v ∈ visited Settings.standard layeredTree (Category.ofFolder "Processes".toList),
      Alone ⟨"h".toList, "cpp".toList⟩ layeredTree v := by
    unfold Alone
    decide +kernel
  obtain ⟨built, h, hcounts⟩ := ok_measured (fun b => (b.2.types, b.2.filesRead)) (3, 6)
    (by decide +kernel : ((build Settings.standard labelTable layeredTree
      (Category.ofFolder "Processes".toList)).map _).toOption = _)
  obtain ⟨htypes, hfiles⟩ := Prod.mk.inj hcounts
  obtain ⟨-, -, hkept⟩ := headers_kept Settings.standard labelTable layeredTree
    (Category.ofFolder "Processes".toList) built.1 built.2 h
  exact ⟨built.1, built.2, h, htypes, hfiles, by decide +kernel,
    fun v hv => ⟨halone v hv, (hkept.mpr halone).1 v hv⟩⟩

def twinTree : FileTree :=
  ⟨.folder [("source".toList, .folder [
    ("Processes".toList, .folder [
      ("Children".toList, .folder [
        ("Growth.H".toList, .file (.text "class Growth \x7b\n\x7d;\n".toList)),
        ("Growth.cpp".toList, .file (.text "Growth::Growth() \x7b\n\x7d\n".toList)),
        ("Growth.h".toList, .file (.text "class Growth \x7b\n\x7d;\n".toList))]),
      ("Process.cpp".toList, .file (.text "Process::Process() \x7b\n\x7d\n".toList)),
      ("Process.h".toList, .file (.text "class Process \x7b\n\x7d;\n".toList))])])], []⟩

/-- Six files are read for two types: the node of the first header gives way
to that of the second. -/
theorem twin_lost :
    ∃ hierarchy statistics,
      build Settings.standard labelTable twinTree (Category.ofFolder "Processes".toList) =
        .ok (hierarchy, statistics) ∧
      ("source/Processes/Children".toList, "Growth.H".toList) ∈
        visited Settings.standard twinTree (Category.ofFolder "Processes".toList) ∧
      (∀ e ∈ hierarchy.root.listing,
        e.2.filePath ≠ some "source/Processes/Children/Growth.H".toList) ∧
      statistics.types = 2 ∧ statistics.filesRead = 6 := by
  obtain ⟨built, h, hmeasured⟩ := ok_measured
    (fun b => (b.1.root.listing.map (fun e => e.2.filePath), b.2.types, b.2.filesRead))
    ([some "source/Processes/Process.h".toList,
      some "source/Processes/Children/Growth.h".toList], 2, 6)
    (by decide +kernel : ((build Settings.standard labelTable twinTree
      (Category.ofFolder "Processes".toList)).map _).toOption = _)
  obtain ⟨hfiles, hcounts⟩ := Prod.mk.inj hmeasured
  obtain ⟨htypes, hread⟩ := Prod.mk.inj hcounts
  refine ⟨built.1, built.2, h, by decide +kernel, ?_, htypes, hread⟩
  intro e he hfile
  have hmem : e.2.filePath ∈ built.1.root.listing.map (fun e => e.2.filePath) :=
    List.mem_map.mpr ⟨e, he, rfl⟩
  rw [hfiles, hfile] at hmem
  revert hmem
  decide

end ParameterManual.Assembly
