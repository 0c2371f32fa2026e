import ParameterManual.ClassNode
import ParameterManual.Proofs.Text.Map

/-!
# Properties of every variable of a tree

A node sees its own variables and copies of those of its parent, some of them
without their names. A property of variables that does not depend on the name
passes from a node to the nodes derived from it, and from children to the tree
that they are attached to.
-/

set_option autoImplicit false

namespace ParameterManual.ClassNode

variable {p : Variable → Prop}

/-- All variables of a node and of the nodes below it have a property. -/
inductive Everywhere (p : Variable → Prop) : ClassNode → Prop where
  | node (node : ClassNode) (own : ∀ e ∈ node.documented, p e.2)
      (below : ∀ e ∈ node.children, Everywhere p e.2) : Everywhere p node

theorem everywhere_own (node : ClassNode) (h : Everywhere p node) :
    ∀ e ∈ node.documented, p e.2 := by
  cases h with
  | node _ own _ => exact own

theorem everywhere_below (node : ClassNode) (h : Everywhere p node) :
    ∀ e ∈ node.children, Everywhere p e.2 := by
  cases h with
  | node _ _ below => exact below

theorem everywhere_rendered (node : ClassNode) (h : Everywhere p node) :
    ∀ v ∈ node.rendered, p v := by
  intro v hv
  obtain ⟨symbol, -, hfound⟩ := List.mem_filterMap.mp (List.mem_filter.mp hv).1
  exact everywhere_own node h (symbol, v) (TextMap.mem_of_find? _ symbol v hfound)

theorem layer_children (node : ClassNode) (own : List Variable) :
    (node.layer own).children = node.children := by
  induction own generalizing node with
  | nil => rfl
  | cons v rest ih => exact ih (node.document v)

theorem layer_documented (node : ClassNode) (own : List Variable)
    (hnode : ∀ e ∈ node.documented, p e.2) (hown : ∀ v ∈ own, p v) :
    ∀ e ∈ (node.layer own).documented, p e.2 := by
  induction own generalizing node with
  | nil => exact hnode
  | cons v rest ih =>
    apply ih (node.document v) _ (fun w hw => hown w (by simp [hw]))
    intro e he
    rcases TextMap.mem_insert v.symbol v node.documented e he with rfl | he
    · exact hown v (by simp)
    · exact hnode e he

theorem layer_everywhere (node : ClassNode) (own : List Variable) (hnode : Everywhere p node)
    (hown : ∀ v ∈ own, p v) : Everywhere p (node.layer own) := by
  apply Everywhere.node
  · exact layer_documented node own (everywhere_own node hnode) hown
  · rw [layer_children]
    exact everywhere_below node hnode

theorem root_everywhere (name : Text) (first second : Variable) (own : List Variable)
    (hfirst : p first) (hsecond : p second) (hown : ∀ v ∈ own, p v) :
    Everywhere p (root name first second own) := by
  apply layer_everywhere _ own _ hown
  apply Everywhere.node
  · intro e he
    rcases TextMap.mem_insert _ _ _ e he with rfl | he
    · exact hsecond
    · rcases TextMap.mem_insert _ _ _ e he with rfl | he
      · exact hfirst
      · simp at he
  · simp [empty]

theorem derive_everywhere (parent : ClassNode) (name : Text) (own : List Variable)
    (hunnamed : ∀ v, p v → p { v with name := [] }) (hparent : Everywhere p parent)
    (hown : ∀ v ∈ own, p v) : Everywhere p (parent.derive name own) := by
  apply layer_everywhere _ own _ hown
  apply Everywhere.node
  · apply TextMap.mapValue_all p _ _ _ _ hunnamed
    exact TextMap.mapValue_all p _ _ _ (everywhere_own parent hparent) hunnamed
  · simp [empty]

theorem withChild_everywhere (node child : ClassNode) (hnode : Everywhere p node)
    (hchild : Everywhere p child) : Everywhere p (node.withChild child) := by
  apply Everywhere.node
  · exact everywhere_own node hnode
  · intro e he
    rcases TextMap.mem_insert _ _ _ e he with rfl | he
    · exact hchild
    · exact everywhere_below node hnode e he

theorem located_everywhere (node : ClassNode) (path : Option Text) (h : Everywhere p node) :
    Everywhere p { node with filePath := path } :=
  Everywhere.node _ (everywhere_own node h) (everywhere_below node h)

end ParameterManual.ClassNode
