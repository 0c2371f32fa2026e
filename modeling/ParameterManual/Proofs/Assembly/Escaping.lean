import ParameterManual.Proofs.Assembly.Everywhere
import ParameterManual.Proofs.Manual.Escaping

/-!
# Markup of built sections

All texts of the variables of a build are escaped, and the names of its types
are those of the files. So the section of a build needs no more backslashes if
the names of the types that it shows need none, and where no dollar sign is
among these, only then.
-/

set_option autoImplicit false

namespace ParameterManual.Assembly
open Manual Markup

/-- With the built-in aliases and the default rules, the section of a build is
escaped if the names of the types that it shows are. It is not, if one of the
names is not and none has a dollar sign. -/
theorem section_markup (settings : Settings) (translations : TranslationTable) (tree : FileTree)
    (category : Category) (hierarchy : Hierarchy) (statistics : Statistics)
    (ht : translations.Filled)
    (h : build settings translations tree category = .ok (hierarchy, statistics)) :
    ((∀ node, Shown category hierarchy.root node → Escaped node.name) →
        Escaped (render Style.builtin category hierarchy)) ∧
      ((∀ node, Shown category hierarchy.root node → hasDelimiter false node.name = false) →
        Escaped (render Style.builtin category hierarchy) →
          ∀ node, Shown category hierarchy.root node → Escaped node.name) := by
  have hready := build_everywhere settings translations tree category hierarchy statistics
    (passes_ready translations ht) h
  constructor
  · intro hnames
    have hpaired : ∀ node, Shown category hierarchy.root node → Paired node.name :=
      fun node hnode => Or.inl (hnames node hnode)
    exact (section_escaped Style.builtin builtin_steady category hierarchy hpaired hready).mpr
      hnames
  · intro hplain
    have hpaired : ∀ node, Shown category hierarchy.root node → Paired node.name :=
      fun node hnode => Or.inr (hplain node hnode)
    exact (section_escaped Style.builtin builtin_steady category hierarchy hpaired hready).mp

/-- Display texts, literals and bounds with special characters, inline math
among them, and two names without any. -/
theorem section_markup_flagged :
    ∃ hierarchy statistics, rateTable.Filled ∧
      build Settings.standard rateTable flaggedTree (Category.ofFolder "Likelihoods".toList) =
        .ok (hierarchy, statistics) ∧
      typeNames (Category.ofFolder "Likelihoods".toList) hierarchy =
        ["Likelihood".toList, "Normal".toList] ∧
      Escaped (render Style.builtin (Category.ofFolder "Likelihoods".toList) hierarchy) := by
  have hfilled : rateTable.Filled := .insert _ _ _ (.empty _)
  have hshown : ((build Settings.standard rateTable flaggedTree
      (Category.ofFolder "Likelihoods".toList)).map (fun b =>
        typeNames (Category.ofFolder "Likelihoods".toList) b.1)).toOption =
          some ["Likelihood".toList, "Normal".toList] := by
    decide +kernel
  obtain ⟨⟨hierarchy, statistics⟩, h, hnames⟩ := ok_measured _ _ hshown
  refine ⟨hierarchy, statistics, hfilled, h, hnames, ?_⟩
  apply (section_markup Settings.standard rateTable flaggedTree _ hierarchy statistics hfilled h).1
  intro node hnode
  have hname := shown_named _ hierarchy node hnode
  rw [hnames, List.mem_cons, List.mem_singleton] at hname
  rcases hname with hname | hname <;> rw [hname] <;> decide

def underscoreTree : FileTree :=
  ⟨.folder [("source".toList, .folder [
    ("Growths".toList, .folder [
      ("Children".toList, .folder [
        ("Age_length.cpp".toList, .file (.text "Age_length::Age_length() \x7b\n\x7d\n".toList)),
        ("Age_length.h".toList, .file (.text "class Age_length \x7b\n\x7d;\n".toList))]),
      ("Growth.cpp".toList, .file (.text "Growth::Growth() \x7b\n\x7d\n".toList)),
      ("Growth.h".toList, .file (.text "class Growth \x7b\n\x7d;\n".toList))])])], []⟩

def growthCategory : Category := ⟨"Growths".toList, some "Growth".toList, false, []⟩

/-- The underscore goes to the manual as it is, where a backslash is put in
front of one in any other text. -/
theorem underscore_bare :
    ∃ hierarchy statistics,
      build Settings.standard (TranslationTable.withPrefix "PARAM".toList) underscoreTree
          growthCategory = .ok (hierarchy, statistics) ∧
        typeNames growthCategory hierarchy = ["Growth".toList, "Age_length".toList] ∧
        subtypeHeading Style.builtin "growth".toList "Age_length".toList =
          "\\subsubsection[Age_length]\x7b\\commandlabsubarg\x7bgrowth\x7d".toList ++
            "\x7btype\x7d\x7bage_length\x7d\x7d\n\n".toList ∧
        ¬ Escaped (render Style.builtin growthCategory hierarchy) := by
  have hfacts : ((build Settings.standard (TranslationTable.withPrefix "PARAM".toList)
      underscoreTree growthCategory).map (fun b =>
        (typeNames growthCategory b.1,
          decide (Escaped (render Style.builtin growthCategory b.1))))).toOption =
      some (["Growth".toList, "Age_length".toList], false) := by
    decide +kernel
  obtain ⟨⟨hierarchy, statistics⟩, h, hmeasured⟩ := ok_measured _ _ hfacts
  obtain ⟨hnames, hescaped⟩ := Prod.mk.inj hmeasured
  exact ⟨hierarchy, statistics, h, hnames, by decide +kernel, of_decide_eq_false hescaped⟩

end ParameterManual.Assembly
