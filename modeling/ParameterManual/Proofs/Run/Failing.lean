import ParameterManual.Proofs.Run.Parallel

/-!
# Runs that end with a category

The first category that cannot be built or written ends a run. The sections
before it stay, nothing else is written, and neither the mode nor what would
have followed has a part in it.
-/

set_option autoImplicit false

namespace ParameterManual.Run
open FileTree

def Problem.OfCategory (problem : Problem) : Prop :=
  ∃ folder, problem.stage = some (.building folder) ∨ problem.stage = some (.writing folder)

theorem writeJson_error (path : Option Path) (hierarchies : List Hierarchy)
    (tree left : FileTree) (problem : Problem)
    (h : writeJson path hierarchies tree = .error problem left) : problem.stage = none := by
  cases path with
  | none => cases h
  | some path =>
    rw [writeJson, saveFile_outcome] at h
    split at h
    · cases h
    · cases h
      rfl

theorem typeset_error (typesetter : Typesetter) (folder : Path) (files : List Path)
    (tree left : FileTree)
    (problem : Problem) (h : typeset typesetter folder files tree = .error problem left) :
    problem.stage = some .typesetting := by
  rw [typeset_outcome] at h
  split at h
  · cases h
  · cases h
    rfl

variable (settings : Settings) (tree left : FileTree) (problem : Problem)

theorem run_error (options : Options) (typesetter : Typesetter) (hproblem : problem.OfCategory)
    (h : run settings options typesetter tree = .error problem left) :
    ∃ categories translations,
      Started settings options.categories tree categories translations ∧
      outputs settings (Assembly.build settings translations) categories options.mode tree =
        .error problem left := by
  obtain ⟨folder, hstage⟩ := hproblem
  rcases run_start settings options typesetter tree with
    ⟨categories, translations, hstarted⟩ | ⟨stage, f, hearly, herror⟩
  · refine ⟨categories, translations, hstarted, ?_⟩
    rw [run_outputs settings options typesetter tree categories translations hstarted] at h
    rcases action_error h with h | ⟨written, middle, -, h⟩
    · exact h
    · rcases action_error h with h | ⟨-, middle, -, h⟩
      · simp [writeJson_error _ _ _ _ _ h] at hstage
      · rcases action_error h with h | ⟨-, middle, -, h⟩
        · simp [typeset_error _ _ _ _ _ _ h] at hstage
        · cases h
  · rw [herror] at h
    cases h
    rcases hearly with rfl | rfl <;> simp at hstage

/-- No build looks where the section of an earlier category has been written. -/
def EarlierApart (names : List Text) : Prop :=
  ∀ before category after translations outputs left,
    settings.select names = .ok (before ++ category :: after) →
    loadTranslations settings tree = .ok translations →
    Written settings (fun _ => Assembly.build settings translations tree) before tree outputs left →
      ∀ p, Fresh (outputs.flatMap (fun output => tree.trail output.file)) tree p →
        ∀ path ∈ Assembly.readPaths settings tree category,
          ¬ LooksAt settings.headerExtension tree path p

theorem outputsApart_earlier (names : List Text) (h : OutputsApart settings names tree) :
    EarlierApart settings tree names := by
  intro before category after translations outputs left hselect hload hwritten p hp
  have hfresh := written_fresh settings _ tree left before (category :: after) outputs hwritten p hp
  exact h _ translations hselect hload p hfresh category (by simp)

/-- In either mode the sections are those that are built at the start. -/
theorem outputs_start (names : List Text) (categories : List Category)
    (translations : TranslationTable) (mode : Mode) (hapart : EarlierApart settings tree names)
    (hstarted : Started settings names tree categories translations) :
    outputs settings (Assembly.build settings translations) categories mode tree =
      eachInTurn settings (fun _ => Assembly.build settings translations tree) categories tree := by
  rw [outputs_turns]
  cases mode with
  | parallel finishing => rfl
  | oneByOne =>
    apply turns_same
    rintro before category after outputs left rfl hwritten
    apply build_apart settings translations _ before category tree left outputs hwritten
    exact hapart before category after translations outputs left hstarted.selected hstarted.loaded
      hwritten

/-- A run that ends because a category cannot be built or written leaves the
files at the start with the sections of the categories before it over them.
With any number of threads, and whatever was to follow, it ends there with the
same problem and the same files. -/
theorem category_ends_run (names : List Text) (mode : Mode) (json : Option Path)
    (typesetter : Typesetter) (hapart : EarlierApart settings tree names)
    (hproblem : problem.OfCategory)
    (h : run settings ⟨names, mode, json⟩ typesetter tree = .error problem left) :
    ∃ translations before category after earlier,
      settings.select names = .ok (before ++ category :: after) ∧
      loadTranslations settings tree = .ok translations ∧
      Written settings (fun _ => Assembly.build settings translations tree) before tree earlier
        left ∧
      Fails settings category left (Assembly.build settings translations tree category) problem ∧
      left.contents = overlay tree.contents (sectionTexts settings tree before earlier) ∧
      ∀ mode' json' typesetter',
        run settings ⟨names, mode', json'⟩ typesetter' tree = .error problem left := by
  obtain ⟨categories, translations, hstarted, herror⟩ :=
    run_error settings tree left problem ⟨names, mode, json⟩ typesetter hproblem h
  rw [outputs_start settings tree names categories translations mode hapart hstarted] at herror
  obtain ⟨before, category, after, earlier, rfl, hwritten, hfails⟩ :=
    (turns_error settings _ categories tree left problem).mp herror
  refine ⟨translations, before, category, after, earlier, hstarted.selected, hstarted.loaded,
    hwritten, hfails, written_contents hwritten, ?_⟩
  intro mode' json' typesetter'
  rw [run_outputs settings ⟨names, mode', json'⟩ typesetter' tree _ translations hstarted,
    action_bind,
    outputs_start settings tree names _ translations mode' hapart hstarted, herror]

def blockedSettings : Settings :=
  { Settings.standard with
    outputFolder := "out".toList
    categories := [Category.ofFolder "Likelihoods".toList, Category.ofFolder "Processes".toList] }

def blockedTree : FileTree :=
  ⟨.folder [
    ("out".toList, .folder [("Process.tex".toList, .folder [])]),
    ("source".toList, .folder [
      ("Likelihoods".toList, .folder [
        ("Likelihood.cpp".toList, .file (.text "Likelihood::Likelihood() \x7b\n\x7d\n".toList)),
        ("Likelihood.h".toList, .file (.text "class Likelihood \x7b\n\x7d;\n".toList))]),
      ("Processes".toList, .folder [
        ("Process.cpp".toList, .file (.text "Process::Process() \x7b\n\x7d\n".toList)),
        ("Process.h".toList, .file (.text "class Process \x7b\n\x7d;\n".toList))]),
      ("Translations".toList, .folder [
        ("English_UK.h".toList, .file (.text "#define PARAM_MEAN \"mean\"\n".toList))])])], []⟩

/-- The run has written the first section when it comes to the second. -/
theorem category_ends_run_blocked :
    ∃ problem left, EarlierApart blockedSettings blockedTree [] ∧ problem.OfCategory ∧
      run blockedSettings ⟨[], .parallel [1, 0], some "out/all.json".toList⟩ noTypesetter
        blockedTree = .error problem left ∧
      ∃ translations before category after earlier,
        blockedSettings.select [] = .ok (before ++ category :: after) ∧
        loadTranslations blockedSettings blockedTree = .ok translations ∧
        Written blockedSettings
          (fun _ => Assembly.build blockedSettings translations blockedTree) before blockedTree
          earlier left ∧
        Fails blockedSettings category left
          (Assembly.build blockedSettings translations blockedTree category) problem ∧
        left.contents =
          overlay blockedTree.contents (sectionTexts blockedSettings blockedTree before earlier) ∧
        ∀ mode' json' typesetter', run blockedSettings ⟨[], mode', json'⟩ typesetter' blockedTree =
          .error problem left := by
  have hapart : EarlierApart blockedSettings blockedTree [] := by
    apply outputsApart_earlier
    intro categories translations hselect hload p hfresh
    obtain rfl : blockedSettings.categories = categories := Except.ok.inj hselect
    obtain rfl : TranslationTable.ofText "#define PARAM_MEAN \"mean\"\n".toList
        blockedSettings.symbolPrefix = translations := Except.ok.inj hload
    obtain ⟨hp, hkind⟩ := hfresh
    revert p
    decide +kernel
  have hends : (match run blockedSettings ⟨[], .parallel [1, 0], some "out/all.json".toList⟩
      noTypesetter blockedTree with
    | .ok _ _ => none
    | .error problem _ => problem.stage) = some (.writing "Processes".toList) := by
    decide +kernel
  cases hrun : run blockedSettings ⟨[], .parallel [1, 0], some "out/all.json".toList⟩ noTypesetter
      blockedTree with
  | ok summary left =>
    rw [hrun] at hends
    cases hends
  | error problem left =>
    rw [hrun] at hends
    have hproblem : problem.OfCategory := ⟨"Processes".toList, Or.inr hends⟩
    exact ⟨problem, left, hapart, hproblem, rfl,
      category_ends_run blockedSettings blockedTree left problem [] (.parallel [1, 0])
        (some "out/all.json".toList) noTypesetter hapart hproblem hrun⟩

end ParameterManual.Run
