import ParameterManual.Proofs.Assembly.Siblings

/-!
# Building fewer levels

A build that goes less deep reads the types of the upper levels as before.
So the tree of a category without nesting is the nested one, cut below the
children of its root.
-/

set_option autoImplicit false

namespace ParameterManual

namespace ClassNode

def childless (node : ClassNode) : ClassNode := { node with children := [] }

/-- A tree cut below the children of its root. -/
def truncated (root : ClassNode) : ClassNode :=
  { root with children := root.children.map (fun e => (e.1, e.2.childless)) }

end ClassNode

namespace Assembly
open ClassNode

theorem childless_same (before after : ClassNode) (h : SameButChildren before after)
    (hempty : before.children = []) : after.childless = before := by
  rw [h]
  cases before with
  | mk name parentName documented order children filePath =>
    obtain rfl : children = [] := hempty
    rfl

section levels
variable (corpus : Corpus)

/-- A header that yields a subtype with subtypes of its own yields it without
them if nothing below is read. -/
theorem yields_childless (levels : Nat) (folder : Path) (members : MemberTable)
    (node : ClassNode) (header : Text) (built : Grown)
    (h : Yields corpus levels folder members node header built) :
    ∃ flat, Yields corpus 0 folder members node header flat ∧ flat.1 = built.1.childless := by
  obtain ⟨pair, hpair, scanned, hscanned, hbuilt⟩ := h
  have hempty : (node.derive pair.name scanned.documented).children = [] :=
    layer_children _ scanned.documented
  obtain ⟨hsame, -⟩ := attachChildren_assembled corpus levels _ _ _ built hempty hbuilt
  refine ⟨({ node.derive pair.name scanned.documented with filePath := some pair.header },
    typeStatistics scanned.documented), ⟨pair, hpair, scanned, hscanned, rfl⟩, ?_⟩
  exact (childless_same _ built.1 hsame hempty).symm

theorem entries_childless (flat built : List Grown)
    (h : List.Forall₂ (fun f b : Grown => f.1 = b.1.childless) flat built) :
    entriesOf flat = (entriesOf built).map (fun e => (e.1, e.2.childless)) := by
  induction h with
  | nil => rfl
  | cons hfirst _ ih =>
    rw [entriesOf, List.map_cons, ← entriesOf, ih, hfirst]
    rfl

theorem attachChildren_flat (levels : Nat) (folder : Path) (members : MemberTable)
    (grown result : Grown) (hempty : grown.1.children = [])
    (h : attachChildren corpus (levels + 1) folder members grown = .ok result) :
    ∃ statistics, attachChildren corpus 1 folder members grown =
      .ok (result.1.truncated, statistics) := by
  obtain ⟨built, hbuilt, rfl⟩ :=
    (attachChildren_ok corpus levels folder members grown result).mp h
  obtain ⟨flat, hflat, hsame⟩ := (forall₂_comp _ built).mpr (hbuilt.imp (fun header b =>
    yields_childless corpus levels folder members grown.1 header b))
  refine ⟨(attachAll grown flat).2, ?_⟩
  have hnode : (attachAll grown flat).1 = (attachAll grown built).1.truncated := by
    rw [attachAll_node, attachAll_node, entries_childless flat built hsame, truncated, hempty]
    have hmap := TextMap.insertAll_map ClassNode.childless (entriesOf built) []
    rw [← hmap]
    rfl
  rw [← hnode]
  exact (attachChildren_ok corpus 0 folder members grown _).mpr ⟨flat, hflat, rfl⟩

end levels

/-- Where a category can be built with nesting it can be built without, and
its tree is then the nested one cut below the children of the root. -/
theorem flat_truncates (settings : Settings) (translations : TranslationTable) (tree : FileTree)
    (category : Category) (hierarchy : Hierarchy) (statistics : Statistics)
    (h : build settings translations tree { category with nested := true } =
      .ok (hierarchy, statistics)) :
    ∃ flat, build settings translations tree { category with nested := false } =
      .ok ({ hierarchy with root := hierarchy.root.truncated }, flat) := by
  obtain ⟨base, scanned, root, counted, hbase, hscanned, hroot, rfl, -⟩ :=
    (build_ok settings translations tree _ hierarchy statistics).mp h
  obtain ⟨flat, hflat⟩ :=
    attachChildren_flat _ 1 _ _ _ _ (bareRoot_children base scanned) hroot
  exact ⟨_, (build_ok settings translations tree { category with nested := false } _ _).mpr
    ⟨base, scanned, root.truncated, flat, hbase, hscanned, hflat, rfl, rfl⟩⟩

/-- The nested tree of three levels has two once it is cut. -/
theorem flat_truncates_layered :
    ∃ hierarchy statistics flat,
      build Settings.standard labelTable layeredTree
          { Category.ofFolder "Processes".toList with nested := true } =
        .ok (hierarchy, statistics) ∧
      hierarchy.root.typeCount = 3 ∧
      build Settings.standard labelTable layeredTree
          { Category.ofFolder "Processes".toList with nested := false } =
        .ok ({ hierarchy with root := hierarchy.root.truncated }, flat) ∧
      hierarchy.root.truncated.typeCount = 2 := by
  obtain ⟨built, h, htypes⟩ :=
    ok_measured (fun b => (b.1.root.typeCount, b.1.root.truncated.typeCount)) (3, 2)
      (by decide +kernel : ((build Settings.standard labelTable layeredTree
        { Category.ofFolder "Processes".toList with nested := true }).map _).toOption = _)
  obtain ⟨hnested, hcut⟩ := Prod.mk.inj htypes
  obtain ⟨flat, hflat⟩ := flat_truncates Settings.standard labelTable layeredTree
    (Category.ofFolder "Processes".toList) built.1 built.2 h
  exact ⟨built.1, built.2, flat, h, hnested, hflat, hcut⟩

end Assembly

end ParameterManual
