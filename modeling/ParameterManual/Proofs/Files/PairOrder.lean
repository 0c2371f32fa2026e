import ParameterManual.Proofs.Files.Below

/-!
# The pairs of a folder and their order

Headers are listed in the order of their file names, and pairs are named by
stems. The two orders agree but for a header whose stem goes on from that of
another one with a character that comes before what the other file name has
there, its dot and its extension.
-/

set_option autoImplicit false

namespace ParameterManual.SourcePair
open FileTree

structure IsHeader (extensions : Extensions) (tree : FileTree) (folder : Path) (header : Text) :
    Prop where
  present : ∃ content, tree.held folder [header] = some content
  extended : Path.nameHasExtension extensions.header header = true

def pairOf (extensions : Extensions) (folder : Path) (header : Text) : SourcePair :=
  ⟨stem header, Path.join folder header,
    Path.join folder (definitionName extensions.source (stem header))⟩

def lastPart (fileName : Text) : Text := (Path.cutExtension fileName).2.getD []

/-- The stem of one file name goes on from that of another one with a character
that comes before the dot there, or with a dot and what comes before the
extension. -/
def Overtakes (long short : Text) : Prop :=
  ∃ c more, stem long = stem short ++ c :: more ∧
    (c < '.' ∨ c = '.' ∧ more ++ '.' :: lastPart long < lastPart short)

def NonDecreasing (names : List Text) : Prop := names.Pairwise (fun a b => ¬ b < a)

theorem extension_cut (name extension : Text) (h : (Path.cutExtension name).2 = some extension) :
    name = stem name ++ '.' :: lastPart name := by
  have hdot : name.reverse.takeWhile (· != '.') ++ name.reverse.dropWhile (· != '.') =
      name.reverse := List.takeWhile_append_dropWhile
  rw [lastPart, stem, h, Option.getD_some]
  rw [Path.cutExtension] at h ⊢
  cases hbehind : name.reverse.dropWhile (· != '.') with
  | nil =>
    rw [hbehind] at h
    cases h
  | cons d behind =>
    have hd : d = '.' := by
      have hfirst := List.head_dropWhile_not (p := (· != '.')) (l := name.reverse)
        (by simp [hbehind])
      simpa [hbehind] using hfirst
    rw [hbehind] at h hdot
    rw [List.tail_cons] at h ⊢
    split at h
    · cases h
    · rename_i stem hstem
      obtain rfl := Option.some.inj h
      have hname := congrArg List.reverse hdot
      simp only [List.reverse_append, List.reverse_cons, List.reverse_reverse, hd,
        List.append_assoc, List.singleton_append] at hname
      exact hname.symm

theorem header_cut (extension header : Text)
    (h : Path.nameHasExtension extension header = true) :
    header = stem header ++ '.' :: lastPart header := by
  rw [Path.nameHasExtension] at h
  cases hcut : (Path.cutExtension header).2 with
  | none =>
    rw [hcut] at h
    cases h
  | some last => exact extension_cut header last hcut

/-- Two texts whose order is turned round by what is put behind them: the
greater one goes on from the other. -/
theorem turned_round (long short x y : Text) :
    long ++ '.' :: x < short ++ '.' :: y ∧ short < long ↔
      ∃ c more, long = short ++ c :: more ∧ (c < '.' ∨ c = '.' ∧ more ++ '.' :: x < y) := by
  induction short generalizing long with
  | nil =>
    cases long with
    | nil => simp
    | cons c more => simp [List.cons_lt_cons_iff]
  | cons d short ih =>
    cases long with
    | nil => simp
    | cons c long =>
      have hrest := ih long
      simp only [List.cons_append, List.cons_lt_cons_iff, List.cons.injEq]
      constructor
      · rintro ⟨hcd | ⟨rfl, hlt⟩, hdc | ⟨hdc, hshort⟩⟩
        · exact absurd hdc (Char.lt_asymm hcd)
        · exact absurd hcd (hdc ▸ Char.lt_irrefl c)
        · exact absurd hdc (Char.lt_irrefl c)
        · obtain ⟨e, more, rfl, hearly⟩ := hrest.mp ⟨hlt, hshort⟩
          exact ⟨e, more, ⟨rfl, rfl⟩, hearly⟩
      · rintro ⟨e, more, ⟨rfl, rfl⟩, hearly⟩
        obtain ⟨hlt, hshort⟩ := hrest.mpr ⟨e, more, rfl, hearly⟩
        exact ⟨Or.inr ⟨rfl, hlt⟩, Or.inr ⟨rfl, hshort⟩⟩

theorem overtakes_iff (extension long short : Text)
    (hlong : Path.nameHasExtension extension long = true)
    (hshort : Path.nameHasExtension extension short = true) :
    Overtakes long short ↔ long < short ∧ stem short < stem long := by
  rw [Overtakes, ← turned_round, ← header_cut extension long hlong,
    ← header_cut extension short hshort]

theorem ordered_pairwise (R : Text → Text → Prop) (list : List Text)
    (h : list.Pairwise (· < ·)) :
    list.Pairwise R ↔ ∀ k ∈ list, ∀ l ∈ list, k < l → R k l := by
  constructor
  · intro hR
    induction list with
    | nil => simp
    | cons first rest ih =>
      obtain ⟨hfirst, hrest⟩ := List.pairwise_cons.mp h
      obtain ⟨hRfirst, hRrest⟩ := List.pairwise_cons.mp hR
      intro k hk l hl hlt
      rcases List.mem_cons.mp hk with rfl | hkrest
      · rcases List.mem_cons.mp hl with rfl | hlrest
        · exact absurd hlt (List.lt_irrefl l)
        · exact hRfirst l hlrest
      · rcases List.mem_cons.mp hl with rfl | hlrest
        · exact absurd (hfirst k hkrest) (List.lt_asymm hlt)
        · exact ih hrest hRrest k hkrest l hlrest hlt
  · intro hR
    exact h.imp_of_mem (fun hk hl hlt => hR _ hk _ hl hlt)

section folders
variable (extensions : Extensions) (tree : FileTree) (folder : Path)

theorem headersIn_iff (header : Text) :
    header ∈ headersIn extensions tree folder ↔ IsHeader extensions tree folder header := by
  rw [mem_headersIn, Option.isSome_iff_exists]
  exact ⟨fun ⟨extended, present⟩ => ⟨present, extended⟩, fun h => ⟨h.extended, h.present⟩⟩

theorem ofHeader_defined (header : Text)
    (h : tree.isFile (pairOf extensions folder header).source = true) :
    ofHeader tree extensions folder header = .ok (pairOf extensions folder header) := by
  rw [pairOf] at h
  rw [ofHeader, if_pos h, pairOf]

/-- Stems come in order exactly if no header overtakes another one. -/
theorem stems_ordered :
    NonDecreasing ((headersIn extensions tree folder).map stem) ↔
      ∀ long short, IsHeader extensions tree folder long →
        IsHeader extensions tree folder short → ¬ Overtakes long short := by
  rw [NonDecreasing, List.pairwise_map,
    ordered_pairwise _ _ (headersIn_sorted extensions tree folder)]
  simp only [headersIn_iff]
  constructor
  · intro h long short hlong hshort hovertakes
    obtain ⟨hlt, hstems⟩ :=
      (overtakes_iff extensions.header long short hlong.extended hshort.extended).mp hovertakes
    exact h long hlong short hshort hlt hstems
  · intro h long hlong short hshort hlt hstems
    exact h long short hlong hshort
      ((overtakes_iff extensions.header long short hlong.extended hshort.extended).mpr
        ⟨hlt, hstems⟩)

/-- Where every header has its definition file, each has one pair, and the
names of the pairs do not decrease exactly if no header overtakes another. -/
theorem collect_complete
    (hdefined : ∀ header, IsHeader extensions tree folder header →
      tree.isFile (pairOf extensions folder header).source = true) :
    ∃ (headers : List Text) (pairs : List SourcePair), headers.Nodup ∧
      (∀ header, header ∈ headers ↔ IsHeader extensions tree folder header) ∧
      collect tree extensions folder = .ok pairs ∧
      pairs = headers.map (pairOf extensions folder) ∧
      (NonDecreasing (pairs.map SourcePair.name) ↔
        ∀ long short, IsHeader extensions tree folder long →
          IsHeader extensions tree folder short → ¬ Overtakes long short) := by
  have hheaders := headersIn_iff extensions tree folder
  refine ⟨headersIn extensions tree folder, _, ?_, hheaders, ?_, rfl, ?_⟩
  · exact TextMap.ordered_nodup _ (headersIn_sorted extensions tree folder)
  · rw [collect_headers, mapM_ok, List.forall₂_map_right_iff, List.forall₂_same]
    intro header hheader
    exact ofHeader_defined extensions tree folder header
      (hdefined header ((hheaders header).mp hheader))
  · rw [List.map_map]
    exact stems_ordered extensions tree folder

end folders

def plainExtensions : Extensions := ⟨"h".toList, "cpp".toList⟩

def folderOf (names : List String) : FileTree :=
  ⟨.folder [("Children".toList,
    .folder (names.map (fun name => (name.toList, .file (.text [])))))], []⟩

def growthTree : FileTree :=
  folderOf ["GrowthRate.cpp", "Growth.h", "GrowthRate.H", "Growth.H", "Growth.cpp"]

theorem collect_complete_growth :
    (∀ header, IsHeader plainExtensions growthTree "Children".toList header →
      growthTree.isFile (pairOf plainExtensions "Children".toList header).source = true) ∧
    ∃ (headers : List Text) (pairs : List SourcePair), headers.Nodup ∧
      (∀ header, header ∈ headers ↔
        IsHeader plainExtensions growthTree "Children".toList header) ∧
      collect growthTree plainExtensions "Children".toList = .ok pairs ∧
      pairs = headers.map (pairOf plainExtensions "Children".toList) ∧
      pairs.map SourcePair.name =
        ["Growth".toList, "Growth".toList, "GrowthRate".toList] ∧
      ∀ long short, IsHeader plainExtensions growthTree "Children".toList long →
        IsHeader plainExtensions growthTree "Children".toList short → ¬ Overtakes long short := by
  have hdefined : ∀ header, IsHeader plainExtensions growthTree "Children".toList header →
      growthTree.isFile (pairOf plainExtensions "Children".toList header).source = true := by
    intro header hheader
    rw [← headersIn_iff] at hheader
    revert header
    decide
  obtain ⟨headers, pairs, hnodup, hheaders, hcollect, hpairs, hordered⟩ :=
    collect_complete plainExtensions growthTree "Children".toList hdefined
  have hread : (collect growthTree plainExtensions "Children".toList).toOption.map
      (fun pairs => pairs.map SourcePair.name) =
        some ["Growth".toList, "Growth".toList, "GrowthRate".toList] := by decide
  rw [hcollect] at hread
  have hnames : pairs.map SourcePair.name =
      ["Growth".toList, "Growth".toList, "GrowthRate".toList] := Option.some.inj hread
  refine ⟨hdefined, headers, pairs, hnodup, hheaders, hcollect, hpairs, hnames, ?_⟩
  rw [← hordered, hnames, NonDecreasing]
  decide

def helperTree : FileTree := folderOf ["Growth.Impl.cpp", "Growth.Impl.h", "Growth.cpp", "Growth.h"]

/-- Every header has its definition file, but the pair of the longer name
comes first. -/
theorem longer_name_first :
    (∀ header, IsHeader plainExtensions helperTree "Children".toList header →
      helperTree.isFile (pairOf plainExtensions "Children".toList header).source = true) ∧
    ∃ pairs, collect helperTree plainExtensions "Children".toList = .ok pairs ∧
      ¬ NonDecreasing (pairs.map SourcePair.name) := by
  constructor
  · intro header hheader
    rw [← headersIn_iff] at hheader
    revert header
    decide
  · refine ⟨_, rfl, ?_⟩
    unfold NonDecreasing
    decide

end ParameterManual.SourcePair
