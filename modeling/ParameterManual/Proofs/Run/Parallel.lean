import ParameterManual.Proofs.Assembly.Reading
import ParameterManual.Proofs.Run.Sections

/-!
# Parallel runs

A parallel run builds every category from the files at the start, whatever
the order in which the builds finish. One after another, a category is built
from what the sections before it have left. If no section is written where a
build looks, both are the same run.
-/

set_option autoImplicit false

namespace ParameterManual.Run
open FileTree

def Mode.finishingIn (order : List Nat) : Mode → Mode
  | .oneByOne => .oneByOne
  | .parallel _ => .parallel order

def sectionPlaces (settings : Settings) (tree : FileTree) (build : Category → Built)
    (categories : List Category) : List (List Text) :=
  categories.flatMap (fun category =>
    match build category with
    | .ok (hierarchy, _) => tree.trail (sectionPath settings hierarchy)
    | .error _ => [])

theorem written_fresh (settings : Settings) (build : Category → Built) (tree left : FileTree)
    (before after : List Category) (outputs : List Output)
    (h : Written settings (fun _ => build) before tree outputs left) (p : List Text)
    (hp : Fresh (outputs.flatMap (fun output => tree.trail output.file)) tree p) :
    Fresh (sectionPlaces settings tree build (before ++ after)) tree p := by
  obtain ⟨output, hm, htrail⟩ := List.mem_flatMap.mp hp.1
  obtain ⟨category, hcategory, -, -, hbuild, hfile⟩ :=
    written_built h (fun _ => True) (fun _ _ _ _ _ _ => trivial) trivial output hm
  refine ⟨?_, hp.2⟩
  apply List.mem_flatMap.mpr
  refine ⟨category, List.mem_append_left after hcategory, ?_⟩
  rw [hfile] at htrail
  rw [hbuild]
  exact htrail

/-- No section is written where a build looks: neither the file of a section
nor a folder that is made for it is a place that a path of a build leads
through, or a name that a build lists. -/
def OutputsApart (settings : Settings) (names : List Text) (tree : FileTree) : Prop :=
  ∀ categories translations, settings.select names = .ok categories →
    loadTranslations settings tree = .ok translations →
      ∀ p, Fresh (sectionPlaces settings tree (Assembly.build settings translations tree) categories)
          tree p →
        ∀ category ∈ categories, ∀ path ∈ Assembly.readPaths settings tree category,
          ¬ LooksAt settings.headerExtension tree path p

/-- Sections of earlier categories do not change a build that does not look
where they are written. -/
theorem build_apart (settings : Settings) (translations : TranslationTable)
    (build : FileTree → Category → Built) (before : List Category) (category : Category)
    (tree left : FileTree) (outputs : List Output)
    (h : Written settings build before tree outputs left)
    (hapart : ∀ p, Fresh (outputs.flatMap (fun output => tree.trail output.file)) tree p →
      ∀ path ∈ Assembly.readPaths settings tree category,
        ¬ LooksAt settings.headerExtension tree path p) :
    Assembly.build settings translations left category =
      Assembly.build settings translations tree category := by
  apply Assembly.build_same
  intro path hp
  apply grown_view settings.headerExtension _ tree left (written_grown h)
  intro p hf
  exact hapart p hf path hp

theorem outputs_parallel (settings : Settings) (translations : TranslationTable)
    (categories : List Category) (tree : FileTree) (order : List Nat)
    (hapart : ∀ p, Fresh (sectionPlaces settings tree (Assembly.build settings translations tree)
        categories) tree p →
      ∀ category ∈ categories, ∀ path ∈ Assembly.readPaths settings tree category,
        ¬ LooksAt settings.headerExtension tree path p) :
    outputs settings (Assembly.build settings translations) categories (.parallel order) tree =
      outputs settings (Assembly.build settings translations) categories .oneByOne tree := by
  rw [outputs_turns, outputs_turns]
  refine (turns_same settings (Assembly.build settings translations) tree categories ?_).symm
  rintro before category after outputs left rfl hwritten
  apply build_apart settings translations _ before category tree left outputs hwritten
  intro p hf
  have hplace := written_fresh settings _ tree left before (category :: after) outputs hwritten p hf
  exact hapart p hplace category (by simp)

/-- On any number of threads but one, and in whatever order the builds finish,
a run comes to the same result or problem and leaves the same files as a run
that works through the categories one after another. -/
theorem parallel_same_outcome (settings : Settings) (names : List Text) (json : Option Path)
    (typesetter : Typesetter) (tree : FileTree) (jobs : Nat) (order : List Nat)
    (hjobs : jobs ≠ 1) (hapart : OutputsApart settings names tree) :
    run settings ⟨names, (Mode.ofJobs (some jobs)).finishingIn order, json⟩ typesetter tree =
      run settings ⟨names, Mode.ofJobs none, json⟩ typesetter tree := by
  have hmode : (Mode.ofJobs (some jobs)).finishingIn order = .parallel order := by
    rw [Mode.ofJobs]
    · rfl
    · simpa using hjobs
  rw [hmode]
  change (attempt none settings.validate >>= _) tree = (attempt none settings.validate >>= _) tree
  apply attempt_congr
  intro _ _
  apply attempt_congr
  intro categories hselect
  change (attempt (some .translations) (loadTranslations settings tree) >>= _) tree =
    (attempt (some .translations) (loadTranslations settings tree) >>= _) tree
  apply attempt_congr
  intro translations hload
  have houtputs := outputs_parallel settings translations categories tree order
    (hapart categories translations hselect hload)
  change EStateM.bind (outputs settings (Assembly.build settings translations) categories
      (.parallel order)) _ tree =
    EStateM.bind (outputs settings (Assembly.build settings translations) categories
      .oneByOne) _ tree
  rw [EStateM.bind, EStateM.bind, houtputs]

def pairedSettings : Settings :=
  { Settings.standard with
    outputFolder := "source/Processes".toList
    categories := [Category.ofFolder "Likelihoods".toList, Category.ofFolder "Processes".toList] }

def pairedTree : FileTree :=
  ⟨.folder [("source".toList, .folder [
    ("Likelihoods".toList, .folder [
      ("Likelihood.cpp".toList, .file (.text "Likelihood::Likelihood() \x7b\n\x7d\n".toList)),
      ("Likelihood.h".toList, .file (.text "class Likelihood \x7b\n\x7d;\n".toList))]),
    ("Processes".toList, .folder [
      ("Process.cpp".toList, .file (.text ("Process::Process() \x7b\n" ++
        "  parameters_.Bind<Double>(PARAM_RATE, &rate_, \"Rate\", \"\");\n\x7d\n").toList)),
      ("Process.h".toList, .file (.text "class Process \x7b\n  Double rate_;\n\x7d;\n".toList))]),
    ("Translations".toList, .folder [
      ("English_UK.h".toList, .file (.text "#define PARAM_MEAN \"mean\"\n".toList))])])], []⟩

/-- The first section is written where the second build lists headers, and
the second build fails. -/
theorem parallel_same_outcome_paired :
    (2 ≠ 1 ∧ OutputsApart pairedSettings [] pairedTree) ∧
      run pairedSettings ⟨[], (Mode.ofJobs (some 2)).finishingIn [1, 0], none⟩ noTypesetter
          pairedTree =
        run pairedSettings ⟨[], Mode.ofJobs none, none⟩ noTypesetter pairedTree := by
  have hapart : OutputsApart pairedSettings [] pairedTree := by
    intro categories translations hselect hload p hfresh
    obtain rfl : pairedSettings.categories = categories := Except.ok.inj hselect
    obtain rfl : TranslationTable.ofText "#define PARAM_MEAN \"mean\"\n".toList
        pairedSettings.symbolPrefix = translations := Except.ok.inj hload
    obtain ⟨hp, hkind⟩ := hfresh
    revert p
    decide +kernel
  exact ⟨⟨by decide, hapart⟩, parallel_same_outcome pairedSettings [] none noTypesetter pairedTree 2
    [1, 0] (by decide) hapart⟩

end ParameterManual.Run
