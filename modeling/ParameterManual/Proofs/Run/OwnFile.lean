import ParameterManual.Proofs.Assembly.Inheritance
import ParameterManual.Proofs.Files.Naming
import ParameterManual.Proofs.Run.Sections

/-!
# A file for each category

The section of a category goes to the file that bears the name of its base
type. It is there in the end if no later category has a base type of that
name, and is lost otherwise.
-/

set_option autoImplicit false

namespace ParameterManual.Run
open FileTree

theorem build_named (settings : Settings) (translations : TranslationTable) (tree : FileTree)
    (category : Category) (hierarchy : Hierarchy) (statistics : Statistics) (hnamed : Named tree)
    (h : Assembly.build settings translations tree category = .ok (hierarchy, statistics)) :
    '/' ∉ hierarchy.root.name := by
  obtain ⟨base, scanned, hbase, -, hsame, -⟩ :=
    Assembly.build_root settings translations tree category hierarchy statistics h
  rw [Assembly.root_name base scanned.documented hierarchy.root hsame]
  exact SourcePair.findBase_named _ tree hnamed _ category.folder category.base base hbase

theorem section_target (settings : Settings) (tree : FileTree) (hierarchy : Hierarchy)
    (hname : '/' ∉ hierarchy.root.name) :
    tree.target (sectionPath settings hierarchy) =
      tree.target settings.outputFolder ++ [hierarchy.root.name ++ ".tex".toList] := by
  have hlong : 4 ≤ (Manual.fileName hierarchy).length := by simp [Manual.fileName]
  apply target_join
  · simpa [Manual.fileName] using hname
  · intro hempty
    simp [hempty] at hlong
  · constructor
    · intro hdot
      simp [hdot] at hlong
    · intro hdots
      simp [hdots] at hlong

theorem section_apart (settings : Settings) (tree : FileTree) (first second : Hierarchy)
    (hfirst : '/' ∉ first.root.name) (hsecond : '/' ∉ second.root.name)
    (hne : first.root.name ≠ second.root.name) :
    tree.target (sectionPath settings first) ≠ tree.target (sectionPath settings second) := by
  rw [section_target settings tree first hfirst, section_target settings tree second hsecond]
  simpa using hne

theorem section_same (settings : Settings) (tree : FileTree) (first second : Hierarchy)
    (hfirst : '/' ∉ first.root.name) (hsecond : '/' ∉ second.root.name) :
    sectionPath settings first = sectionPath settings second ↔
      first.root.name = second.root.name := by
  constructor
  · intro hpath
    by_contra hne
    exact section_apart settings tree first second hfirst hsecond hne (by rw [hpath])
  · intro hname
    rw [sectionPath, sectionPath, Manual.fileName, Manual.fileName, hname]

theorem writeJson_ok (path : Option Path) (hierarchies : List Hierarchy) (tree saved : FileTree)
    (h : writeJson path hierarchies tree = .ok () saved) :
    Stands tree saved ∧ ∀ p, (∀ json, path = some json → tree.target json ≠ p) →
      saved.contents p = tree.contents p := by
  cases path with
  | none =>
    cases h
    exact ⟨stands_refl tree, fun _ _ => rfl⟩
  | some json =>
    rw [writeJson, saveFile_outcome] at h
    split at h
    · rename_i written hs
      cases h
      refine ⟨save_stands tree saved _ _ hs, ?_⟩
      intro p hp
      rw [save_contents tree saved _ _ hs]
      exact Function.update_of_ne (Ne.symm (hp json rfl)) _ _
    · cases h

theorem typeset_idle (typesetter : Typesetter) (folder : Path) (files : List Path)
    (tree left : FileTree)
    (hidle : ∀ folder files tree, (typesetter folder files tree).2 = tree)
    (h : typeset typesetter folder files tree = .ok () left) : left = tree := by
  rw [typeset_outcome, hidle folder files tree] at h
  split at h
  · cases h
    rfl
  · cases h

/-- A run that succeeds has written its sections, the json and the document. -/
theorem run_ok (settings : Settings) (options : Options) (typesetter : Typesetter)
    (tree left : FileTree) (summary : Summary)
    (h : run settings options typesetter tree = .ok summary left) :
    ∃ categories translations outputs written saved,
      Started settings options.categories tree categories translations ∧
      Written settings (options.mode.builds (Assembly.build settings translations) tree) categories
        tree outputs written ∧
      summary = Summary.ofOutputs outputs ∧
      writeJson options.json summary.hierarchies written = .ok () saved ∧
      typeset typesetter settings.outputFolder (Summary.ofOutputs outputs).files saved =
        .ok () left := by
  rcases run_start settings options typesetter tree with
    ⟨categories, translations, hstarted⟩ | ⟨stage, f, -, herror⟩
  · rw [run_outputs settings options typesetter tree categories translations hstarted] at h
    obtain ⟨outputs, written, houtputs, h⟩ := action_ok h
    obtain ⟨⟨⟩, saved, hjson, h⟩ := action_ok h
    obtain ⟨⟨⟩, last, htypeset, h⟩ := action_ok h
    cases h
    rw [outputs_turns] at houtputs
    exact ⟨categories, translations, outputs, written, saved, hstarted,
      (turns_ok settings _ categories tree written outputs).mp houtputs, rfl, hjson, htypeset⟩
  · rw [herror] at h
    cases h

theorem written_named (settings : Settings) (translations : TranslationTable) (mode : Mode)
    (tree left : FileTree) (categories : List Category) (outputs : List Output)
    (hnamed : Named tree)
    (h : Written settings (mode.builds (Assembly.build settings translations) tree) categories tree
      outputs left) (output : Output) (hm : output ∈ outputs) :
    '/' ∉ output.hierarchy.root.name ∧ output.file = sectionPath settings output.hierarchy := by
  obtain ⟨category, -, middle, hmiddle, hbuild, hfile⟩ :=
    written_built h Named save_named hnamed output hm
  refine ⟨?_, hfile⟩
  cases mode with
  | oneByOne => exact build_named settings translations middle category _ _ hmiddle hbuild
  | parallel finishing => exact build_named settings translations tree category _ _ hnamed hbuild

theorem files_nodup (settings : Settings) (tree : FileTree) (outputs : List Output)
    (hown : ∀ output ∈ outputs, '/' ∉ output.hierarchy.root.name ∧
      output.file = sectionPath settings output.hierarchy) :
    (outputs.map Output.file).Nodup ↔
      (outputs.map (fun output => output.hierarchy.root.name)).Nodup := by
  unfold List.Nodup
  rw [List.pairwise_map, List.pairwise_map]
  apply List.Pairwise.iff_of_mem
  intro first second hfirst hsecond
  obtain ⟨hname, hfile⟩ := hown first hfirst
  obtain ⟨hname', hfile'⟩ := hown second hsecond
  rw [hfile, hfile']
  exact not_congr (section_same settings tree _ _ hname hname')

/-- A section that no later one replaces is read back as long as its place
holds what was written there. -/
theorem section_read (settings : Settings) (build : FileTree → Category → Built)
    (tree written left : FileTree) (categories : List Category) (outputs : List Output)
    (hwritten : Written settings build categories tree outputs written)
    (hown : ∀ output ∈ outputs, '/' ∉ output.hierarchy.root.name ∧
      output.file = sectionPath settings output.hierarchy)
    (i : Nat) (category : Category) (output : Output)
    (hc : categories[i]? = some category) (ho : outputs[i]? = some output)
    (hlater : ∀ j later, i < j → outputs[j]? = some later →
      later.hierarchy.root.name ≠ output.hierarchy.root.name)
    (hstands : Stands written left)
    (hsame : left.contents (tree.target output.file) = written.contents (tree.target output.file)) :
    left.read output.file =
      .ok (Manual.render settings.style category output.hierarchy) := by
  have hm := List.mem_of_getElem? ho
  have hplace := place_stands written left hstands output.file _ (written_places hwritten output hm)
  apply read_contents left output.file _ _ hplace
  rw [hsame]
  apply written_kept hwritten i category output hc ho
  intro j later hj hl
  obtain ⟨hname, hfile⟩ := hown output hm
  obtain ⟨hname', hfile'⟩ := hown later (List.mem_of_getElem? hl)
  rw [hfile, hfile']
  exact section_apart settings tree _ _ hname' hname (hlater j later hj hl)

/-- After a run that succeeds, and that writes the json elsewhere, the files
of its sections are all different if and only if the base types of the
categories are. Each file holds the section of its category, unless a later
category has a base type of the same name. -/
theorem sections_kept (settings : Settings) (options : Options) (typesetter : Typesetter)
    (tree left : FileTree) (summary : Summary) (hnamed : Named tree)
    (hidle : ∀ folder files tree, (typesetter folder files tree).2 = tree)
    (hjson : ∀ json, options.json = some json →
      ∀ file ∈ summary.files, tree.target json ≠ tree.target file)
    (h : run settings options typesetter tree = .ok summary left) :
    ∃ categories, settings.select options.categories = .ok categories ∧
      summary.hierarchies.length = categories.length ∧
      summary.files.length = categories.length ∧
      (summary.files.Nodup ↔ (summary.hierarchies.map (fun own => own.root.name)).Nodup) ∧
      ∀ (i : Nat) category hierarchy file, categories[i]? = some category →
        summary.hierarchies[i]? = some hierarchy → summary.files[i]? = some file →
        (∀ (j : Nat) (later : Hierarchy), i < j → summary.hierarchies[j]? = some later →
          later.root.name ≠ hierarchy.root.name) →
          left.read file = .ok (Manual.render settings.style category hierarchy) := by
  obtain ⟨categories, translations, outputs, written, saved, hstarted, hwritten, rfl, hsaved,
    htypeset⟩ := run_ok settings options typesetter tree left summary h
  have hown := written_named settings translations options.mode tree written categories outputs
    hnamed hwritten
  have hlength := written_length hwritten
  obtain rfl := typeset_idle typesetter settings.outputFolder _ saved left hidle htypeset
  obtain ⟨hstands, hsame⟩ := writeJson_ok options.json _ written left hsaved
  refine ⟨categories, hstarted.selected, ?_, ?_, ?_, ?_⟩
  · simpa [Summary.ofOutputs] using hlength
  · simpa [Summary.ofOutputs] using hlength
  · rw [Summary.ofOutputs, List.map_map]
    exact files_nodup settings tree outputs hown
  · intro i category hierarchy file hc hh hf hlater
    obtain ⟨output, ho, rfl⟩ : ∃ output, outputs[i]? = some output ∧
        output.hierarchy = hierarchy := by
      simpa [Summary.ofOutputs] using hh
    obtain rfl : output.file = file := by
      simpa [Summary.ofOutputs, ho] using hf
    apply section_read settings _ tree written left categories outputs hwritten hown i category
      output hc ho _ hstands
    · apply hsame
      intro json hj
      rw [target_here tree written json (written_stands hwritten).here]
      exact hjson json hj output.file (List.mem_map_of_mem (List.mem_of_getElem? ho))
    · intro j later hj hl
      exact hlater j later.hierarchy hj (by simp [Summary.ofOutputs, hl])

def typeFiles (name symbol : Text) : List (Text × Entry) :=
  [(name ++ ".cpp".toList, .file (.text (name ++ "::".toList ++ name ++ "() \x7b\n".toList ++
      "  parameters_.Bind<Double>(".toList ++ symbol ++ ", &value_, \"\", \"\");\n\x7d\n".toList))),
    (name ++ ".h".toList,
      .file (.text ("class ".toList ++ name ++ " \x7b\n  Double value_;\n\x7d;\n".toList)))]

def growths (base : Text) : Category := ⟨"Growths".toList, some base, false, []⟩

def deaths (base : Text) : Category := ⟨"Deaths".toList, some base, false, []⟩

def twinSettings (first second : Text) : Settings :=
  { Settings.standard with
    outputFolder := "out".toList
    categories := [growths first, deaths second] }

def twinTree (first second : Text) : FileTree :=
  ⟨.folder [("source".toList, .folder [
    ("Deaths".toList, .folder (typeFiles second "PARAM_SIZE".toList)),
    ("Growths".toList, .folder (typeFiles first "PARAM_RATE".toList)),
    ("Translations".toList, .folder [
      ("English_UK.h".toList, .file (.text
        "#define PARAM_RATE \"rate\"\n#define PARAM_SIZE \"size\"\n".toList))])])], []⟩

def apartSettings : Settings := twinSettings "Growth".toList "Death".toList

def apartTree : FileTree := twinTree "Growth".toList "Death".toList

theorem sections_kept_apart :
    ∃ summary left, Named apartTree ∧
      (∀ folder files tree, (noTypesetter folder files tree).2 = tree) ∧
      (∀ json, some "out/all.json".toList = some json →
        ∀ file ∈ summary.files, apartTree.target json ≠ apartTree.target file) ∧
      run apartSettings ⟨[], .parallel [1, 0], some "out/all.json".toList⟩ noTypesetter apartTree =
        .ok summary left ∧
      ∃ categories, apartSettings.select [] = .ok categories ∧
        summary.hierarchies.length = categories.length ∧
        summary.files.length = categories.length ∧
        (summary.files.Nodup ↔ (summary.hierarchies.map (fun own => own.root.name)).Nodup) ∧
        ∀ (i : Nat) category hierarchy file, categories[i]? = some category →
          summary.hierarchies[i]? = some hierarchy → summary.files[i]? = some file →
          (∀ (j : Nat) (later : Hierarchy), i < j → summary.hierarchies[j]? = some later →
            later.root.name ≠ hierarchy.root.name) →
            left.read file = .ok (Manual.render apartSettings.style category hierarchy) := by
  have hnamed : Named apartTree := named_plain _ (by decide +kernel)
  have hfiles : (finished? (run apartSettings ⟨[], .parallel [1, 0], some "out/all.json".toList⟩
      noTypesetter apartTree)).map (fun done => done.1.files) =
        some ["out/Growth.tex".toList, "out/Death.tex".toList] := by
    decide +kernel
  obtain ⟨⟨summary, left⟩, hdone, hfiles⟩ := Option.map_eq_some_iff.mp hfiles
  have hrun := finished_ok _ summary left hdone
  have hjson : ∀ json, some "out/all.json".toList = some json →
      ∀ file ∈ summary.files, apartTree.target json ≠ apartTree.target file := by
    intro json hj
    obtain rfl := Option.some.inj hj
    rw [hfiles]
    decide +kernel
  exact ⟨summary, left, hnamed, fun _ _ _ => rfl, hjson, hrun,
    sections_kept apartSettings ⟨[], .parallel [1, 0], some "out/all.json".toList⟩ noTypesetter
      apartTree left summary hnamed (fun _ _ _ => rfl) hjson hrun⟩

def clashSettings : Settings := twinSettings "Base".toList "Base".toList

def clashTree : FileTree := twinTree "Base".toList "Base".toList

/-- Where both base types are called Base, there is one file for two sections,
and it holds the second. -/
theorem sections_clash :
    ∃ summary left,
      clashSettings.select [] = .ok [growths "Base".toList, deaths "Base".toList] ∧
      run clashSettings ⟨[], .oneByOne, none⟩ noTypesetter clashTree = .ok summary left ∧
      summary.files = ["out/Base.tex".toList, "out/Base.tex".toList] ∧
      summary.hierarchies.length = 2 ∧
      (left.read "out/Base.tex".toList).toOption =
        summary.hierarchies[1]?.map
          (Manual.render clashSettings.style (deaths "Base".toList)) ∧
      (left.read "out/Base.tex".toList).toOption ≠
        summary.hierarchies[0]?.map
          (Manual.render clashSettings.style (growths "Base".toList)) := by
  have hends : (finished? (run clashSettings ⟨[], .oneByOne, none⟩ noTypesetter clashTree)).any
      (fun done => decide (
        done.1.files = ["out/Base.tex".toList, "out/Base.tex".toList] ∧
        done.1.hierarchies.length = 2 ∧
        (done.2.read "out/Base.tex".toList).toOption =
          done.1.hierarchies[1]?.map
            (Manual.render clashSettings.style (deaths "Base".toList)) ∧
        (done.2.read "out/Base.tex".toList).toOption ≠
          done.1.hierarchies[0]?.map
            (Manual.render clashSettings.style (growths "Base".toList)))) = true := by
    decide +kernel
  obtain ⟨⟨summary, left⟩, hdone, hholds⟩ := (Option.any_eq_true _ _).mp hends
  exact ⟨summary, left, rfl, finished_ok _ summary left hdone, of_decide_eq_true hholds⟩

end ParameterManual.Run
