import ParameterManual.CommandLine.Arguments
import ParameterManual.Proofs.Run.Changes
import ParameterManual.Proofs.Settings.Fields

/-!
# What the program does

The exit code tells whether the arguments could be read and whether the run
succeeded. The settings of a run are valid wherever they come from, and
without a command that typesets only the texts of the manual are written.
-/

set_option autoImplicit false

namespace ParameterManual.CommandLine
open FileTree Run

variable (shell : Shell) (arguments : List Text) (tree : FileTree)

def Arguments.over (a : Arguments) (settings : Settings) : Settings :=
  { settings with
    sourceRoot := a.sourceRoot.getD settings.sourceRoot
    translations := a.translations <|> settings.translations
    outputFolder := a.output.getD settings.outputFolder }

theorem settings_over (a : Arguments) : a.settings tree = a.over <$> match a.config with
    | some path => Settings.load tree path
    | none => .ok Settings.standard := by
  rw [Arguments.settings]
  cases a.config with
  | none => rfl
  | some path =>
    simp only
    cases Settings.load tree path <;> rfl

/-- What is given as an option cannot make the settings of a file invalid. -/
theorem settings_valid (a : Arguments) (settings : Settings) (h : a.settings tree = .ok settings) :
    settings.Valid := by
  rw [settings_over] at h
  obtain ⟨own, hown, rfl⟩ := map_ok h
  apply Settings.valid_paths
  split at hown
  · exact Settings.load_valid tree _ own hown
  · obtain rfl := Except.ok.inj hown
    exact Settings.standard_valid

theorem execute_tree :
    (executeWith shell arguments tree).tree = tree ∨
      ∃ a settings, parse arguments = .document a ∧ a.settings tree = .ok settings ∧
        settings.Valid ∧ (executeWith shell arguments tree).tree =
          after (run settings a.options (a.typesetter shell) tree) := by
  rw [executeWith]
  cases hparse : parse arguments with
  | help => exact Or.inl rfl
  | misuse => exact Or.inl rfl
  | document a =>
    simp only
    cases hsettings : a.settings tree with
    | error f => exact Or.inl rfl
    | ok settings =>
      refine Or.inr ⟨a, settings, rfl, hsettings, settings_valid tree a settings hsettings, ?_⟩
      simp only
      cases run settings a.options (a.typesetter shell) tree <;> rfl

theorem execute_misuse :
    (executeWith shell arguments tree).code = 2 ↔ parse arguments = .misuse := by
  rw [executeWith]
  cases parse arguments with
  | help => simp
  | misuse => simp
  | document a =>
    simp only
    cases a.settings tree with
    | error f => simp
    | ok settings =>
      simp only
      cases run settings a.options (a.typesetter shell) tree <;> simp

/-- It is 0 if help is asked for or the whole run succeeds. -/
theorem execute_success :
    (executeWith shell arguments tree).code = 0 ↔ parse arguments = .help ∨
      ∃ a settings summary left, parse arguments = .document a ∧
        a.settings tree = .ok settings ∧
        run settings a.options (a.typesetter shell) tree = .ok summary left := by
  rw [executeWith]
  cases parse arguments with
  | help => simp
  | misuse => simp
  | document a =>
    simp only
    cases hsettings : a.settings tree with
    | error f => simp [hsettings]
    | ok settings =>
      simp only
      cases hrun : run settings a.options (a.typesetter shell) tree with
      | ok summary left => simp [hsettings, hrun]
      | error problem left => simp [hsettings, hrun]

theorem success_written (a : Arguments) (hparse : parse arguments = .document a)
    (h : (executeWith shell arguments tree).code = 0) :
    ∃ settings categories translations outputs written,
      a.settings tree = .ok settings ∧
      Started settings a.categories tree categories translations ∧
      Written settings (a.options.mode.builds (Assembly.build settings translations) tree)
        categories tree outputs written := by
  rw [execute_success] at h
  obtain hhelp | ⟨own, settings, summary, left, hown, hsettings, hrun⟩ := h
  · cases hhelp.symm.trans hparse
  · obtain rfl := Invocation.document.inj (hown.symm.trans hparse)
    obtain ⟨categories, translations, outputs, written, -, hstarted, hwritten, -⟩ :=
      run_ok settings own.options (own.typesetter shell) tree left summary hrun
    exact ⟨settings, categories, translations, outputs, written, hsettings, hstarted, hwritten⟩

theorem typesetter_here (a : Arguments) (folder : Path) (files : List Path) :
    (a.typesetter shell folder files tree).2.here = tree.here := by
  rw [Arguments.typesetter]
  cases a.typeset with
  | none => rfl
  | some command => exact shell_here shell command folder files tree

theorem execute_here : (executeWith shell arguments tree).tree.here = tree.here := by
  obtain hsame | ⟨a, settings, -, -, -, hrun⟩ := execute_tree shell arguments tree
  · rw [hsame]
  · rw [hrun]
    exact run_here settings a.options (a.typesetter shell) tree
      (fun folder files tree => typesetter_here shell tree a folder files)

/-- Without such a command nothing is written but the sections in the output
folder and the json, whether the program succeeds or not. -/
theorem execute_untouched (a : Arguments) (settings : Settings) (hnamed : Named tree)
    (hparse : parse arguments = .document a) (htypeset : a.typeset = none)
    (hsettings : a.settings tree = .ok settings) (p : List Text)
    (hp : ¬ Touched settings a.json tree p) :
    (executeWith shell arguments tree).tree.contents p = tree.contents p := by
  obtain hsame | ⟨own, found, hown, hfound, -, hrun⟩ := execute_tree shell arguments tree
  · rw [hsame]
  · obtain rfl := Invocation.document.inj (hown.symm.trans hparse)
    obtain rfl := Except.ok.inj (hfound.symm.trans hsettings)
    rw [hrun]
    apply run_untouched found own.options _ tree hnamed _ p hp
    intro folder files other
    rw [Arguments.typesetter, htypeset]
    rfl

end ParameterManual.CommandLine
