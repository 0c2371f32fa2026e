import ParameterManual.Assembly
import ParameterManual.Proofs.Manual.Parts
import ParameterManual.Proofs.Outcome

/-!
# Counting documented variables

The statistics of a build count the variables rendered at every node of the
tree, as if the section left nothing out. Its entries are fewer where a
suppressed type, or a type below one, renders a variable.
-/

set_option autoImplicit false

namespace ParameterManual.Assembly
open Manual

theorem build_counts (settings : Settings) (translations : TranslationTable) (tree : FileTree)
    (category : Category) (hierarchy : Hierarchy) (statistics : Statistics)
    (h : build settings translations tree category = .ok (hierarchy, statistics)) :
    statistics.documentedVariables = hierarchy.root.documentedCount := by
  obtain ⟨base, -, h⟩ := bind_ok h
  obtain ⟨scanned, -, h⟩ := bind_ok h
  obtain ⟨⟨root, counted⟩, -, h⟩ := bind_ok h
  obtain ⟨rfl, rfl⟩ := Prod.mk.inj (Except.ok.inj h)
  rfl

theorem hidden_nowhere (category : Category) (root node : ClassNode) :
    ¬ Hidden { category with suppressed := [] } root node := by
  rintro ⟨above, -, e, -, hs, -⟩
  simp [Category.isSuppressed] at hs

/-- The documented variables of a build are the entries that its section has
if nothing is suppressed. They are the entries that it has exactly if no
suppressed type, and none below one, renders a variable. -/
theorem documented_entries (settings : Settings) (translations : TranslationTable)
    (tree : FileTree) (category : Category) (hierarchy : Hierarchy) (statistics : Statistics)
    (h : build settings translations tree category = .ok (hierarchy, statistics)) :
    (∀ style, render style category hierarchy =
        (parts category hierarchy).flatMap (Part.text style)) ∧
      statistics.documentedVariables = entryCount { category with suppressed := [] } hierarchy ∧
      (statistics.documentedVariables = entryCount category hierarchy ↔
        ∀ node, Hidden category hierarchy.root node → node.rendered = []) := by
  have hcount := build_counts settings translations tree category hierarchy statistics h
  refine ⟨fun style => render_parts style category hierarchy, ?_, ?_⟩
  · rw [hcount]
    refine ((entries_shown { category with suppressed := [] } hierarchy).mpr ?_).symm
    intro node hnode
    exact absurd hnode (hidden_nowhere category hierarchy.root node)
  · rw [hcount, eq_comm]
    exact entries_shown category hierarchy

def chainTree (body : Text) : FileTree :=
  ⟨.folder [("source".toList, .folder [
    ("MCMC".toList, .folder [
      ("Children".toList, .folder [
        ("IndependenceMetropolis.cpp".toList, .file (.text
          ("IndependenceMetropolis::IndependenceMetropolis() \x7b\n".toList ++ body ++
            "\n\x7d\n".toList))),
        ("IndependenceMetropolis.h".toList, .file (.text
          "class IndependenceMetropolis \x7b\n  Double step_;\n\x7d;\n".toList))]),
      ("MCMC.cpp".toList, .file (.text "MCMC::MCMC() \x7b\n\x7d\n".toList)),
      ("MCMC.h".toList, .file (.text "class MCMC \x7b\n\x7d;\n".toList))])])], []⟩

def chainCategory : Category :=
  ⟨"MCMC".toList, some "MCMC".toList, true, ["IndependenceMetropolis".toList]⟩

def stepTable : TranslationTable :=
  (TranslationTable.withPrefix "PARAM".toList).insert "PARAM_STEP".toList "step".toList

def stepBody : Text :=
  "  parameters_.Bind<Double>(PARAM_STEP, &step_, \"Step\", \"\");".toList

theorem documented_entries_suppressed :
    ∃ hierarchy statistics,
      build Settings.standard stepTable (chainTree []) chainCategory =
        .ok (hierarchy, statistics) ∧
      (∀ style, render style chainCategory hierarchy =
          (parts chainCategory hierarchy).flatMap (Part.text style)) ∧
      statistics.documentedVariables =
        entryCount { chainCategory with suppressed := [] } hierarchy ∧
      (statistics.documentedVariables = entryCount chainCategory hierarchy ↔
        ∀ node, Hidden chainCategory hierarchy.root node → node.rendered = []) := by
  have hok : (build Settings.standard stepTable (chainTree []) chainCategory).isOk = true := by
    decide +kernel
  cases h : build Settings.standard stepTable (chainTree []) chainCategory with
  | error f =>
    rw [h] at hok
    cases hok
  | ok built =>
    exact ⟨built.1, built.2, rfl,
      documented_entries Settings.standard stepTable (chainTree []) chainCategory built.1 built.2 h⟩

/-- The parameter of a suppressed type is counted, and has no entry. -/
theorem suppressed_counted :
    ∃ hierarchy statistics,
      build Settings.standard stepTable (chainTree stepBody) chainCategory =
        .ok (hierarchy, statistics) ∧
      statistics.documentedVariables = 3 ∧ entryCount chainCategory hierarchy = 2 := by
  have hcounts : ((build Settings.standard stepTable (chainTree stepBody) chainCategory).map
      (fun b => (b.2.documentedVariables, entryCount chainCategory b.1))).toOption =
        some (3, 2) := by
    decide +kernel
  cases h : build Settings.standard stepTable (chainTree stepBody) chainCategory with
  | error f =>
    rw [h] at hcounts
    cases hcounts
  | ok built =>
    rw [h] at hcounts
    obtain ⟨hdocumented, hentries⟩ := Prod.mk.inj (Option.some.inj hcounts)
    exact ⟨built.1, built.2, rfl, hdocumented, hentries⟩

end ParameterManual.Assembly
