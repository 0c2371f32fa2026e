import ParameterManual.Assembly
import ParameterManual.Proofs.ClassNode
import ParameterManual.Proofs.Outcome

/-!
# The steps of a build

A build finds the base type of its category, reads it, and attaches its
subtypes to the root that it describes.
-/

set_option autoImplicit false

namespace ParameterManual.Assembly

theorem levels_bound (category : Category) : ∃ n, n ≤ 1 ∧ levels category = n + 1 := by
  rw [levels]
  split
  · exact ⟨1, by omega, rfl⟩
  · exact ⟨0, by omega, rfl⟩

def basePair (settings : Settings) (tree : FileTree) (category : Category) :
    Except Failure SourcePair :=
  SourcePair.findBase tree ⟨settings.headerExtension, settings.sourceExtension⟩
    (Path.join settings.sourceRoot category.folder) category.folder category.base

def bareRoot (base : SourcePair) (scanned : Scanned) : ClassNode :=
  { ClassNode.root base.name Variable.label Variable.type scanned.documented with
    filePath := some base.header }

theorem bareRoot_children (base : SourcePair) (scanned : Scanned) :
    (bareRoot base scanned).children = [] :=
  ClassNode.layer_children _ scanned.documented

theorem build_ok (settings : Settings) (translations : TranslationTable) (tree : FileTree)
    (category : Category) (hierarchy : Hierarchy) (statistics : Statistics) :
    build settings translations tree category = .ok (hierarchy, statistics) ↔
      ∃ base scanned root counted, basePair settings tree category = .ok base ∧
        scan (corpus settings translations tree) base MemberTable.framework seed = .ok scanned ∧
        attachChildren (corpus settings translations tree) (levels category)
          (Path.join (Path.join settings.sourceRoot category.folder) settings.childrenFolder)
          scanned.members (bareRoot base scanned, typeStatistics scanned.documented) =
            .ok (root, counted) ∧
        hierarchy = ⟨category.folder, root⟩ ∧
        statistics = { counted with
          categories := 1, types := root.typeCount,
          documentedVariables := root.documentedCount } := by
  constructor
  · intro h
    obtain ⟨base, hbase, h⟩ := bind_ok h
    obtain ⟨scanned, hscanned, h⟩ := bind_ok h
    obtain ⟨⟨root, counted⟩, hroot, h⟩ := bind_ok h
    obtain ⟨rfl, rfl⟩ := Prod.mk.inj (Except.ok.inj h)
    exact ⟨base, scanned, root, counted, hbase, hscanned, hroot, rfl, rfl⟩
  · rintro ⟨base, scanned, root, counted, hbase, hscanned, hroot, rfl, rfl⟩
    exact bind_ok_iff.mpr ⟨base, hbase, bind_ok_iff.mpr ⟨scanned, hscanned,
      bind_ok_iff.mpr ⟨(root, counted), hroot, rfl⟩⟩⟩

end ParameterManual.Assembly
