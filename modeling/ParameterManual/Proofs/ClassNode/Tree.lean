import Mathlib.Algebra.GroupWithZero.Nat
import Mathlib.Data.List.Forall2
import ParameterManual.Proofs.ClassNode

/-!
# Nodes of a tree

What holds of a node as soon as it holds of its children holds of all trees.
The nodes of a tree are its root and the nodes of the trees of its children,
and a count over a tree adds up over them.
-/

set_option autoImplicit false

namespace ParameterManual.ClassNode

mutual

/-- Induction over a tree, from its children to itself. -/
theorem tree_node {P : ClassNode → Prop}
    (step : ∀ node : ClassNode, (∀ e ∈ node.children, P e.2) → P node) : (node : ClassNode) → P node
  | ⟨_, _, _, _, children, _⟩ => step _ (tree_children step children)
termination_by structural node => node

theorem tree_children {P : ClassNode → Prop}
    (step : ∀ node : ClassNode, (∀ e ∈ node.children, P e.2) → P node) :
    (children : List (Text × ClassNode)) → ∀ e ∈ children, P e.2
  | [] => by simp
  | (_, child) :: rest => by
    intro e he
    rcases List.mem_cons.mp he with rfl | he
    · exact tree_node step child
    · exact tree_children step rest e he
termination_by structural children => children

end

inductive Contains (root : ClassNode) : ClassNode → Prop where
  | root : Contains root root
  | child (node : ClassNode) (e : Text × ClassNode) (h : Contains root node)
      (he : e ∈ node.children) : Contains root e.2

theorem contains_trans (root above node : ClassNode) (h : root.Contains above)
    (h' : above.Contains node) : root.Contains node := by
  induction h' with
  | root => exact h
  | child node e hnode he ih => exact .child node e ih he

theorem contains_below (root node : ClassNode) (e : Text × ClassNode) (he : e ∈ root.children)
    (h : e.2.Contains node) : root.Contains node :=
  contains_trans root e.2 node (.child root e .root he) h

theorem contains_cases (root node : ClassNode) (h : root.Contains node) :
    node = root ∨ ∃ e ∈ root.children, e.2.Contains node := by
  induction h with
  | root => exact Or.inl rfl
  | child node d hnode hd ih =>
    right
    rcases ih with rfl | ⟨e, he, hbelow⟩
    · exact ⟨d, hd, .root⟩
    · exact ⟨e, he, .child node d hbelow hd⟩

theorem everywhere_contains {p : Variable → Prop} (root node : ClassNode) (h : Everywhere p root)
    (hnode : root.Contains node) : Everywhere p node := by
  induction hnode with
  | root => exact h
  | child above e _ he ih => exact everywhere_below above ih e he

theorem sums_eq {α β : Type} {count : β → Nat} {total : α → Nat} (list : List α)
    (counted : List β) (h : List.Forall₂ (fun a b => count b = total a) list counted) :
    (counted.map count).sum = (list.map total).sum := by
  induction h with
  | nil => rfl
  | cons hfirst _ ih => rw [List.map_cons, List.sum_cons, hfirst, ih, List.map_cons, List.sum_cons]

/-- Counts that are at most the totals they belong to add up to at most the
sum of these, and to that sum exactly if each count is its total. -/
theorem sums_le {α β : Type} {count : β → Nat} {total : α → Nat} {P : α → Prop} (list : List α)
    (counted : List β)
    (h : List.Forall₂ (fun a b => count b ≤ total a ∧ (count b = total a ↔ P a)) list counted) :
    (counted.map count).sum ≤ (list.map total).sum ∧
      ((counted.map count).sum = (list.map total).sum ↔ ∀ a ∈ list, P a) := by
  induction h with
  | nil => simp
  | cons hfirst _ ih =>
    obtain ⟨hle, heq⟩ := ih
    simp only [List.map_cons, List.sum_cons, List.forall_mem_cons, ← heq, ← hfirst.2]
    omega

theorem documentedCounts_sum (children : List (Text × ClassNode)) :
    documentedCounts children = (children.map (fun e => e.2.documentedCount)).sum := by
  induction children with
  | nil => rfl
  | cons e rest ih =>
    rw [documentedCounts, ih, List.map_cons, List.sum_cons]

theorem documentedCount_sum (node : ClassNode) :
    node.documentedCount =
      node.rendered.length + (node.children.map (fun e => e.2.documentedCount)).sum := by
  cases node
  rw [documentedCount, documentedCounts_sum]

theorem typeCounts_sum (children : List (Text × ClassNode)) :
    typeCounts children = (children.map (fun e => e.2.typeCount)).sum := by
  induction children with
  | nil => rfl
  | cons e rest ih =>
    rw [typeCounts, ih, List.map_cons, List.sum_cons]

theorem typeCount_sum (node : ClassNode) :
    node.typeCount = 1 + (node.children.map (fun e => e.2.typeCount)).sum := by
  cases node
  rw [typeCount, typeCounts_sum]

theorem documentedCount_zero (node : ClassNode) :
    node.documentedCount = 0 ↔ ∀ m, node.Contains m → m.rendered = [] := by
  induction node using tree_node with
  | step node ih =>
    rw [documentedCount_sum, Nat.add_eq_zero_iff, List.length_eq_zero_iff,
      List.sum_eq_zero_iff_forall_eq_nat]
    constructor
    · rintro ⟨hown, hbelow⟩ m hm
      rcases contains_cases node m hm with rfl | ⟨e, he, hm⟩
      · exact hown
      · exact (ih e he).mp (hbelow _ (List.mem_map.mpr ⟨e, he, rfl⟩)) m hm
    · intro h
      refine ⟨h node .root, ?_⟩
      intro n hn
      obtain ⟨e, he, rfl⟩ := List.mem_map.mp hn
      exact (ih e he).mpr (fun m hm => h m (contains_below node m e he hm))

end ParameterManual.ClassNode
