import ParameterManual.Manual.Section
import ParameterManual.Proofs.ClassNode.Listing

/-!
# Sections of pruned trees

A section leaves a suppressed type out as if the type, with all below it, had
been taken out of the tree. What is left is written in the order of the
listing: the root first, then a subsection for each node below it.
-/

set_option autoImplicit false

namespace ParameterManual.Manual
open ClassNode

mutual

/-- A tree without the suppressed types below its root, and without all that
is below these. -/
def pruned (category : Category) : ClassNode → ClassNode
  | ⟨name, parentName, documented, order, children, filePath⟩ =>
    ⟨name, parentName, documented, order, prunedBelow category children, filePath⟩
termination_by structural node => node

def prunedBelow (category : Category) : List (Text × ClassNode) → List (Text × ClassNode)
  | [] => []
  | (key, child) :: rest =>
    if category.isSuppressed child.name then prunedBelow category rest
    else (key, pruned category child) :: prunedBelow category rest
termination_by structural children => children

end

def subsection (style : Style) (root : Text) (node : ClassNode) : Text :=
  subtypeHeading style (command style.rules root) node.name ++ node.rendered.flatMap (entry style)

theorem pruned_frame (category : Category) (node : ClassNode) :
    pruned category node = { node with children := prunedBelow category node.children } := by
  cases node
  rfl

theorem mem_prunedBelow (category : Category) (children : List (Text × ClassNode))
    (e : Text × ClassNode) (h : e ∈ prunedBelow category children) :
    ∃ d ∈ children, e = (d.1, pruned category d.2) := by
  induction children with
  | nil => cases h
  | cons d rest ih =>
    rw [prunedBelow] at h
    split at h
    · obtain ⟨c, hc, he⟩ := ih h
      exact ⟨c, by simp [hc], he⟩
    · rcases List.mem_cons.mp h with rfl | h
      · exact ⟨d, by simp, rfl⟩
      · obtain ⟨c, hc, he⟩ := ih h
        exact ⟨c, by simp [hc], he⟩

theorem prunedBelow_keys (category : Category) (children : List (Text × ClassNode)) :
    ((prunedBelow category children).map Prod.fst).Sublist (children.map Prod.fst) := by
  induction children with
  | nil => exact List.Sublist.slnil
  | cons d rest ih =>
    rw [prunedBelow]
    split
    · exact ih.cons d.1
    · exact ih.cons_cons d.1

theorem pruned_ordered (category : Category) (node : ClassNode) (h : node.Ordered) :
    (pruned category node).Ordered := by
  induction node using tree_node with
  | step node ih =>
    rw [pruned_frame]
    apply ordered_intro
    · exact (ordered_own node h).sublist (prunedBelow_keys category node.children)
    · intro e he
      obtain ⟨d, hd, rfl⟩ := mem_prunedBelow category node.children e he
      exact ih d hd (ordered_below node h d hd)

section texts
variable (style : Style) (category other : Category)

theorem nothing_suppressed (name : Text) :
    ({ other with suppressed := [] } : Category).isSuppressed name = false := rfl

theorem subtrees_pruned (root : Text) (children : List (Text × ClassNode))
    (h : ∀ e ∈ children, category.isSuppressed e.2.name = false →
      subtree style category root e.2 =
        subtree style { other with suppressed := [] } root (pruned category e.2)) :
    subtrees style category root children =
      subtrees style { other with suppressed := [] } root (prunedBelow category children) := by
  induction children with
  | nil => rfl
  | cons e rest ih =>
    have hrest := ih (fun d hd => h d (by simp [hd]))
    rw [subtrees, prunedBelow, hrest]
    split
    · rename_i hs
      have hnone : subtree style category root e.2 = [] := by
        cases hnode : e.2
        rw [hnode] at hs
        rw [subtree, if_pos hs]
      rw [hnone, List.nil_append]
    · rename_i hs
      rw [subtrees, h e (by simp) (Bool.eq_false_iff.mpr hs)]

/-- A type that is not suppressed itself has the text that its pruned tree
has where nothing is suppressed. -/
theorem subtree_pruned (root : Text) (node : ClassNode)
    (hs : category.isSuppressed node.name = false) :
    subtree style category root node =
      subtree style { other with suppressed := [] } root (pruned category node) := by
  induction node using tree_node with
  | step node ih =>
    have hbelow := subtrees_pruned style category other root node.children ih
    cases node
    rw [subtree, pruned, subtree, nothing_suppressed, hs, hbelow]
    rfl

theorem subtrees_listing (root : Text) (children : List (Text × ClassNode))
    (h : ∀ e ∈ children,
      subtree style { other with suppressed := [] } (command style.rules root) e.2 =
        e.2.listing.flatMap (fun d => subsection style root d.2)) :
    subtrees style { other with suppressed := [] } (command style.rules root) children =
      (listings children).flatMap (fun d => subsection style root d.2) := by
  induction children with
  | nil => rfl
  | cons e rest ih =>
    rw [subtrees, listings, List.flatMap_append, List.flatMap_map, h e (by simp),
      ih (fun d hd => h d (by simp [hd]))]

/-- Where nothing is suppressed, a tree is written in the order of its
listing. -/
theorem subtree_listing (root : Text) (node : ClassNode) :
    subtree style { other with suppressed := [] } (command style.rules root) node =
      node.listing.flatMap (fun d => subsection style root d.2) := by
  induction node using tree_node with
  | step node ih =>
    have hbelow := subtrees_listing style other root node.children ih
    rw [listing_cons, List.flatMap_cons, ← hbelow]
    cases node
    rw [subtree, nothing_suppressed]
    rfl

end texts

/-- A section is that of the pruned tree with nothing suppressed. Such a
section has the heading and the entries of the root, and then a subsection for
each node below it, in the order of the paths that lead to the nodes. -/
theorem suppression_prunes (style : Style) (category other : Category) (hierarchy : Hierarchy) :
    render style category hierarchy =
        render style { other with suppressed := [] }
          { hierarchy with root := pruned category hierarchy.root } ∧
      render style { other with suppressed := [] } hierarchy =
        rootHeading style hierarchy.root.name ++ hierarchy.root.rendered.flatMap (entry style) ++
          (listings hierarchy.root.children).flatMap
            (fun e => subsection style hierarchy.root.name e.2) ∧
      (hierarchy.root.Ordered →
        (pruned category hierarchy.root).Ordered ∧
          (listings hierarchy.root.children).Pairwise (fun a b => a.1 < b.1) ∧
          ∀ p node, (p, node) ∈ listings hierarchy.root.children ↔
            p ≠ [] ∧ hierarchy.root.at? p = some node) := by
  obtain ⟨folder, root⟩ := hierarchy
  refine ⟨?_, ?_, ?_⟩
  · have hbelow := subtrees_pruned style category other (command style.rules root.name)
      root.children (fun e _ hs => subtree_pruned style category other _ e.2 hs)
    rw [render, render, hbelow, pruned_frame]
    rfl
  · have hbelow := subtrees_listing style other root.name root.children
      (fun e _ => subtree_listing style other root.name e.2)
    rw [render, hbelow]
    rfl
  · intro h
    have hsorted := listing_sorted root h
    rw [listing_cons, List.pairwise_cons] at hsorted
    refine ⟨pruned_ordered category root h, hsorted.2, ?_⟩
    intro p node
    rw [← mem_listing root h, listing_cons, List.mem_cons]
    constructor
    · intro hm
      refine ⟨?_, Or.inr hm⟩
      rintro rfl
      exact absurd (hsorted.1 _ hm) (List.lt_irrefl [])
    · rintro ⟨hne, heq | hm⟩
      · exact absurd (congrArg Prod.fst heq) hne
      · exact hm

def samplers : ClassNode :=
  let root := ClassNode.root "MCMC".toList Variable.label Variable.type []
  let subtype (name : Text) :=
    (root.derive name []).withChild ((root.derive name []).derive "Adaptive".toList [])
  (root.withChild (subtype "Walk".toList)).withChild (subtype "Independent".toList)

def samplerCategory : Category :=
  ⟨"MCMC".toList, none, true, ["MCMC".toList, "Independent".toList]⟩

theorem samplers_ordered : samplers.Ordered := by
  have hleaf (own : ClassNode) (name : Text) : (own.derive name []).Ordered :=
    childless_ordered _ rfl
  have hroot := childless_ordered (ClassNode.root "MCMC".toList Variable.label Variable.type []) rfl
  apply withChild_ordered
  · apply withChild_ordered _ _ hroot
    exact withChild_ordered _ _ (hleaf _ _) (hleaf _ _)
  · exact withChild_ordered _ _ (hleaf _ _) (hleaf _ _)

theorem suppression_prunes_samplers :
    samplers.Ordered ∧
      (listings (pruned samplerCategory samplers).children).map Prod.fst =
        [["Walk".toList], ["Walk".toList, "Adaptive".toList]] ∧
      (∀ style, render style samplerCategory ⟨"MCMC".toList, samplers⟩ =
        render style { samplerCategory with suppressed := [] }
          ⟨"MCMC".toList, pruned samplerCategory samplers⟩) ∧
      (pruned samplerCategory samplers).Ordered :=
  ⟨samplers_ordered, by decide,
    fun style => (suppression_prunes style samplerCategory samplerCategory ⟨_, samplers⟩).1,
    ((suppression_prunes ⟨[], []⟩ samplerCategory samplerCategory ⟨[], samplers⟩).2.2
      samplers_ordered).1⟩

end ParameterManual.Manual
