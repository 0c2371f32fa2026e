import ParameterManual.Assembly
import ParameterManual.Proofs.ClassNode
import ParameterManual.Proofs.Constructor.Ready

/-!
# Properties of every variable of a build

A build starts from the two variables that every object has, documents the
variables of each constructor, and hands them down the tree. A property that
these steps give and keep is one of every variable of every node, whatever
the files hold.
-/

set_option autoImplicit false

namespace ParameterManual.Assembly
open ClassNode Constructor

/-- A property that a build with a table of display texts gives and keeps. -/
structure Passes (translations : TranslationTable) (p : Variable → Prop) : Prop where
  label : p Variable.label
  type : p Variable.type
  unnamed : ∀ v, p v → p { v with name := [] }
  documents : ∀ scope : Scope, scope.translations = translations →
    (∀ e ∈ scope.inherited, p e.2) → Documents scope p

section levels
variable {p : Variable → Prop} (corpus : Corpus) (hp : Passes corpus.translations p)
include hp

theorem scan_all (pair : SourcePair) (members : MemberTable) (inherited : TextMap Variable)
    (scanned : Scanned) (hi : ∀ e ∈ inherited, p e.2)
    (h : scan corpus pair members inherited = .ok scanned) : ∀ v ∈ scanned.documented, p v := by
  obtain ⟨header, -, h⟩ := bind_ok h
  obtain ⟨definition, -, h⟩ := bind_ok h
  obtain ⟨own, hown, h⟩ := bind_ok h
  obtain rfl := Except.ok.inj h
  exact extract_all pair.source definition own (hp.documents _ rfl hi) hown

theorem attachPair_everywhere (below : Path → MemberTable → Grown → Except Failure Grown)
    (hbelow : ∀ folder members grown result, Everywhere p grown.1 →
      below folder members grown = .ok result → Everywhere p result.1)
    (folder : Path) (members : MemberTable) (grown result : Grown) (pair : SourcePair)
    (hg : Everywhere p grown.1)
    (h : attachPair corpus below folder members grown pair = .ok result) :
    Everywhere p result.1 := by
  obtain ⟨scanned, hscanned, h⟩ := bind_ok h
  obtain ⟨⟨child, statistics⟩, hchild, h⟩ := bind_ok h
  obtain rfl := Except.ok.inj h
  have hown := scan_all corpus hp pair members grown.1.documented scanned
    (everywhere_own grown.1 hg) hscanned
  have hderived := derive_everywhere grown.1 pair.name scanned.documented hp.unnamed hg hown
  apply withChild_everywhere grown.1 child hg
  exact hbelow _ _ _ _ (located_everywhere _ (some pair.header) hderived) hchild

theorem attachChildren_everywhere (levels : Nat) (folder : Path) (members : MemberTable)
    (grown result : Grown) (hg : Everywhere p grown.1)
    (h : attachChildren corpus levels folder members grown = .ok result) :
    Everywhere p result.1 := by
  induction levels generalizing folder members grown result with
  | zero =>
    obtain rfl := Except.ok.inj h
    exact hg
  | succ levels ih =>
    obtain ⟨pairs, -, h⟩ := bind_ok h
    refine foldlM_kept _ (fun grown : Grown => Everywhere p grown.1) pairs ?_ grown result hg h
    intro pair _ before after hbefore hstep
    exact attachPair_everywhere corpus hp (attachChildren corpus levels)
      (fun folder members grown result => ih folder members grown result) folder members before
      after pair hbefore hstep

end levels

theorem build_everywhere {p : Variable → Prop} (settings : Settings)
    (translations : TranslationTable) (tree : FileTree) (category : Category)
    (hierarchy : Hierarchy) (statistics : Statistics) (hp : Passes translations p)
    (h : build settings translations tree category = .ok (hierarchy, statistics)) :
    Everywhere p hierarchy.root := by
  obtain ⟨base, -, h⟩ := bind_ok h
  obtain ⟨scanned, hscanned, h⟩ := bind_ok h
  obtain ⟨⟨root, counted⟩, hroot, h⟩ := bind_ok h
  obtain ⟨rfl, -⟩ := Prod.mk.inj (Except.ok.inj h)
  have hseed : ∀ e ∈ seed, p e.2 := by
    intro e he
    rcases TextMap.mem_insert _ _ _ e he with rfl | he
    · exact hp.type
    · rcases TextMap.mem_insert _ _ _ e he with rfl | he
      · exact hp.label
      · simp at he
  have hown := scan_all _ hp base MemberTable.framework seed scanned hseed hscanned
  have hstart := root_everywhere base.name Variable.label Variable.type scanned.documented
    hp.label hp.type hown
  exact attachChildren_everywhere _ hp _ _ _ _ _
    (located_everywhere _ (some base.header) hstart) hroot

theorem passes_ready (translations : TranslationTable) (h : translations.Filled) :
    Passes translations Variable.Ready where
  label := Variable.synthetic_ready _ _ _ (by decide) (by decide)
  type := Variable.synthetic_ready _ _ _ (by decide) (by decide)
  unnamed := Variable.unnamed_ready
  documents := fun scope hs hi => documents_ready scope (hs ▸ h) hi

/-- In every class tree that is built with a table of display texts, which is
filled by insertions, all texts of all variables of all nodes stand in the
manual as they are. -/
theorem build_ready (settings : Settings) (translations : TranslationTable) (tree : FileTree)
    (category : Category) (hierarchy : Hierarchy) (statistics : Statistics)
    (ht : translations.Filled)
    (h : build settings translations tree category = .ok (hierarchy, statistics)) :
    Everywhere Variable.Ready hierarchy.root :=
  build_everywhere settings translations tree category hierarchy statistics
    (passes_ready translations ht) h

def flaggedTree : FileTree :=
  ⟨.folder [("source".toList, .folder [
    ("Likelihoods".toList, .folder [
      ("Children".toList, .folder [
        ("Normal.cpp".toList, .file (.text ("Normal::Normal() \x7b\n" ++
          "  RegisterAsAddressable(PARAM_RATE, &rate_, kLookup);\n\x7d\n").toList)),
        ("Normal.h".toList, .file (.text "class Normal \x7b\n\x7d;\n".toList))]),
      ("Likelihood.cpp".toList, .file (.text ("Likelihood::Likelihood() \x7b\n" ++
        "  parameters_.Bind<Double>(PARAM_RATE, &rate_, \"5% of $x_1$\", \"a_b\", Double(0.5))" ++
        "->set_range(0, PARAM_RATE);\n\x7d\n").toList)),
      ("Likelihood.h".toList, .file (.text "class Likelihood \x7b\n  Double rate_;\n\x7d;\n".toList))
      ])])], []⟩

def rateTable : TranslationTable :=
  (TranslationTable.withPrefix "PARAM".toList).insert "PARAM_RATE".toList "max_rate".toList

theorem build_ready_flagged :
    ∃ hierarchy statistics, rateTable.Filled ∧
      build Settings.standard rateTable flaggedTree (Category.ofFolder "Likelihoods".toList) =
        .ok (hierarchy, statistics) ∧
      hierarchy.root.typeCount = 2 ∧ Everywhere Variable.Ready hierarchy.root := by
  have hfilled : rateTable.Filled := .insert _ _ _ (.empty _)
  have htypes : ((build Settings.standard rateTable flaggedTree
      (Category.ofFolder "Likelihoods".toList)).map (fun b => b.1.root.typeCount)).toOption =
        some 2 := by
    decide +kernel
  cases h : build Settings.standard rateTable flaggedTree
      (Category.ofFolder "Likelihoods".toList) with
  | error f =>
    rw [h] at htypes
    cases htypes
  | ok built =>
    rw [h] at htypes
    exact ⟨built.1, built.2, hfilled, rfl, Option.some.inj htypes,
      build_ready _ _ _ _ built.1 built.2 hfilled h⟩

end ParameterManual.Assembly
