import ParameterManual.Files.SourcePair
import ParameterManual.Proofs.Files.View
import ParameterManual.Proofs.Outcome

/-!
# What is read to find pairs

Finding the pairs of a folder takes a look at the folder and at the files of
its pairs. Two trees in which these paths show the same have the same pairs.
-/

set_option autoImplicit false

namespace ParameterManual

def FileTree.SameViews (extension : Text) (tree tree' : FileTree) (paths : List Path) : Prop :=
  ∀ path ∈ paths, tree'.view extension path = tree.view extension path

namespace SourcePair
open FileTree

def paths (extensions : Extensions) (folder : Path) (header : Text) : List Path :=
  [Path.join folder header,
    Path.join folder (definitionName extensions.source (stem header))]

variable (extensions : Extensions) (tree tree' : FileTree)

theorem ofHeader_same (folder : Path) (header : Text)
    (h : SameViews extensions.header tree tree' (paths extensions folder header)) :
    ofHeader tree' extensions folder header = ofHeader tree extensions folder header := by
  have hsource := h (Path.join folder (definitionName extensions.source (stem header)))
    (by simp [paths])
  rw [ofHeader, ofHeader, isFile_view extensions.header tree', isFile_view extensions.header tree,
    hsource]

theorem ofHeader_pair (folder : Path) (header : Text) (pair : SourcePair)
    (h : ofHeader tree extensions folder header = .ok pair) :
    pair.name = stem header ∧ paths extensions folder header = [pair.header, pair.source] := by
  rw [ofHeader] at h
  split at h
  · obtain rfl := Except.ok.inj h
    exact ⟨rfl, rfl⟩
  · simp at h

def headersIn (folder : Path) : List Text :=
  match tree.namesWithExtension folder extensions.header with
  | .ok headers => headers
  | .error _ => []

theorem headersIn_sorted (folder : Path) :
    (headersIn extensions tree folder).Pairwise (· < ·) := by
  rw [headersIn, names_view, view]
  cases tree.find folder with
  | error fault => exact List.Pairwise.nil
  | ok entry =>
    cases entry with
    | file content => exact List.Pairwise.nil
    | folder entries => exact TextMap.keysWhere_sorted _ entries

theorem collect_headers (folder : Path) :
    collect tree extensions folder =
      (headersIn extensions tree folder).mapM (ofHeader tree extensions folder) := by
  rw [collect, headersIn, names_view, isFolder_view extensions.header tree]
  cases view extensions.header tree folder with
  | error fault => rfl
  | ok shown => cases shown <;> rfl

theorem mem_collect (folder : Path) (pairs : List SourcePair) (pair : SourcePair)
    (h : collect tree extensions folder = .ok pairs) (hm : pair ∈ pairs) :
    ∃ headers, tree.namesWithExtension folder extensions.header = .ok headers ∧
      ∃ header ∈ headers, ofHeader tree extensions folder header = .ok pair := by
  rw [collect] at h
  split at h
  · obtain ⟨headers, hheaders, h⟩ := bind_ok h
    obtain ⟨header, hheader, hpair⟩ := mem_mapM _ headers pairs h pair hm
    exact ⟨headers, hheaders, header, hheader, hpair⟩
  · obtain rfl : [] = pairs := Except.ok.inj h
    simp at hm

def baseChoice? (folder : Path) (category : Text) (base : Option Text) : Option Text :=
  match tree.namesWithExtension folder extensions.header with
  | .ok headers => baseHeader? category base headers
  | .error _ => none

/-- The base type of a category is told by the headers of its folder. -/
theorem findBase_headers (folder : Path) (category : Text) (base : Option Text) :
    findBase tree extensions folder category base =
      if tree.isFolder folder then
        match baseHeader? category base (headersIn extensions tree folder) with
        | some header => ofHeader tree extensions folder header
        | none => .error (.missingBase category folder)
      else .error (.missingBase category folder) := by
  rw [findBase, headersIn, names_view, isFolder_view extensions.header tree]
  cases view extensions.header tree folder with
  | error fault => rfl
  | ok shown => cases shown <;> rfl

theorem findBase_same (folder : Path) (category : Text) (base : Option Text)
    (hfolder : SameViews extensions.header tree tree' [folder])
    (hpair : ∀ header, baseChoice? extensions tree folder category base = some header →
      SameViews extensions.header tree tree' (paths extensions folder header)) :
    findBase tree' extensions folder category base = findBase tree extensions folder category base := by
  have hview := hfolder folder (by simp)
  have hnames : tree'.namesWithExtension folder extensions.header =
      tree.namesWithExtension folder extensions.header := by
    rw [names_view, names_view, hview]
  rw [findBase, findBase, isFolder_view extensions.header tree',
    isFolder_view extensions.header tree, hview, hnames]
  cases hheaders : tree.namesWithExtension folder extensions.header with
  | error fault => rfl
  | ok headers =>
    cases hbase : baseHeader? category base headers with
    | none => simp [bind, Except.bind, hbase]
    | some header =>
      have hsame := ofHeader_same extensions tree tree' folder header
        (hpair header (by rw [baseChoice?, hheaders]; exact hbase))
      simp [bind, Except.bind, hbase, hsame]

theorem findBase_pair (folder : Path) (category : Text) (base : Option Text) (pair : SourcePair)
    (h : findBase tree extensions folder category base = .ok pair) :
    ∃ header, baseChoice? extensions tree folder category base = some header ∧
      ofHeader tree extensions folder header = .ok pair := by
  rw [findBase] at h
  split at h
  · obtain ⟨headers, hheaders, h⟩ := bind_ok h
    cases hbase : baseHeader? category base headers with
    | none =>
      rw [hbase] at h
      cases h
    | some header =>
      rw [hbase] at h
      exact ⟨header, by rw [baseChoice?, hheaders]; exact hbase, h⟩
  · cases h

end SourcePair

end ParameterManual
