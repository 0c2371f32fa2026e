import ParameterManual.Proofs.Assembly.Everywhere
import ParameterManual.Proofs.Constructor.Fields

/-!
# Fields of the variables of a build

The entries that every root starts with fit their kind, each constructor adds
variables that do, and so do the copies that a subtype sees. So the fields fit
in every variable of a class tree.
-/

set_option autoImplicit false

namespace ParameterManual.Assembly
open ClassNode Constructor

theorem passes_fitting (translations : TranslationTable) :
    Passes translations Variable.Fitting where
  label := Variable.synthetic_fitting _ _ _ (Or.inl rfl)
  type := Variable.synthetic_fitting _ _ _ (Or.inr rfl)
  unnamed := fun v hv => Variable.flagged_fitting v [] v.isEstimable v.isAddressable hv id
  documents := fun scope _ hi => documents_fitting scope hi

/-- In every class tree that is built, the fields of every variable of every
node, inherited copies included, fit its kind and one another. -/
theorem build_fitting (settings : Settings) (translations : TranslationTable) (tree : FileTree)
    (category : Category) (hierarchy : Hierarchy) (statistics : Statistics)
    (h : build settings translations tree category = .ok (hierarchy, statistics)) :
    Everywhere Variable.Fitting hierarchy.root :=
  build_everywhere settings translations tree category hierarchy statistics
    (passes_fitting translations) h

def kindsTree : FileTree :=
  ⟨.folder [("source".toList, .folder [
    ("Processes".toList, .folder [
      ("Children".toList, .folder [
        ("Growth.cpp".toList, .file (.text ("Growth::Growth() \x7b\n" ++
          "parameters_.BindTable(PARAM_TABLE, table_, \"\", \"\");\n" ++
          "RegisterAsAddressable(PARAM_SIZE, &size_, kAll);\n\x7d\n").toList)),
        ("Growth.h".toList, .file (.text "class Growth \x7b\nTable* table_;\n\x7d;\n".toList))]),
      ("Process.cpp".toList, .file (.text ("Process::Process() \x7b\n" ++
        "parameters_.Bind<Double>(PARAM_RATE, &rates_, \"\", \"\", true);\n\x7d\n").toList)),
      ("Process.h".toList, .file (.text
        "class Process \x7b\nvector<Double> rates_;\n\x7d;\n".toList))
      ])])], []⟩

def kindsTable : TranslationTable :=
  (((TranslationTable.withPrefix "PARAM".toList).insert "PARAM_RATE".toList "rate".toList).insert
    "PARAM_SIZE".toList "size".toList).insert "PARAM_TABLE".toList "table".toList

theorem build_fitting_kinds :
    ∃ hierarchy statistics,
      build Settings.standard kindsTable kindsTree (Category.ofFolder "Processes".toList) =
        .ok (hierarchy, statistics) ∧
      (hierarchy.root.children.flatMap (fun c => c.2.documented.map (fun e => e.2.kind))) =
        [.synthetic, .parameter, .placeholder, .table, .synthetic] ∧
      Everywhere Variable.Fitting hierarchy.root := by
  have hkinds : ((build Settings.standard kindsTable kindsTree
      (Category.ofFolder "Processes".toList)).map (fun b =>
        b.1.root.children.flatMap (fun c => c.2.documented.map (fun e => e.2.kind)))).toOption =
          some [.synthetic, .parameter, .placeholder, .table, .synthetic] := by
    decide +kernel
  obtain ⟨⟨hierarchy, statistics⟩, h, hmeasured⟩ := ok_measured _ _ hkinds
  exact ⟨hierarchy, statistics, h, hmeasured,
    build_fitting Settings.standard kindsTable kindsTree _ hierarchy statistics h⟩

end ParameterManual.Assembly
