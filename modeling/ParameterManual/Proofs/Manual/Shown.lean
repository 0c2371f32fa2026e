import ParameterManual.Proofs.Manual.Parts

/-!
# Sections of types

Within the section of a category, a type has a section of its own: its heading
and what follows up to the next heading. The root has one, and so has every
type below it that is not suppressed and lies below no type that is.
-/

set_option autoImplicit false

namespace ParameterManual.Manual
open ClassNode

/-- The nodes of a tree that are shown: the root, and what is not suppressed
below a node that is shown. -/
inductive Shown (category : Category) (root : ClassNode) : ClassNode → Prop where
  | root : Shown category root root
  | child (node : ClassNode) (e : Text × ClassNode) (h : Shown category root node)
      (he : e ∈ node.children) (hs : category.isSuppressed e.2.name = false) :
      Shown category root e.2

theorem shown_contains (category : Category) (root node : ClassNode)
    (h : Shown category root node) : root.Contains node := by
  induction h with
  | root => exact .root
  | child node e _ he _ ih => exact .child node e ih he

def Part.typeName? : Part → Option Text
  | .rootHeading name => some name
  | .subtypeHeading _ name => some name
  | .entry _ => none

/-- Parts that begin with a heading, if there are any. -/
def Opens (list : List Part) : Prop := ∀ part ∈ list.head?, part.isEntry = false

theorem opens_append (list more : List Part) (h : Opens list) (hmore : Opens more) :
    Opens (list ++ more) := by
  cases list with
  | nil => exact hmore
  | cons part rest => exact h

/-- The entries of a node are all that stands between a heading with its name
and the next heading. -/
def OwnSection (list : List Part) (node : ClassNode) : Prop :=
  ∃ before heading after, list = before ++ headed heading node ++ after ∧
    heading.typeName? = some node.name ∧ Opens after

section sections
variable (category : Category) (root : Text)

theorem subtree_shows (node : ClassNode) (h : category.isSuppressed node.name = false) :
    subtreeParts category root node =
      headed (.subtypeHeading root node.name) node ++
        subtreesParts category root node.children := by
  cases node
  rw [subtreeParts, if_neg (Bool.eq_false_iff.mp h)]

theorem subtree_opens (node : ClassNode) : Opens (subtreeParts category root node) := by
  by_cases h : category.isSuppressed node.name = true
  · have hnone : subtreeParts category root node = [] := by
      cases node
      rw [subtreeParts, if_pos h]
    rw [hnone]
    intro part hpart
    cases hpart
  · rw [subtree_shows category root node (Bool.eq_false_iff.mpr h)]
    intro part hpart
    obtain rfl := Option.some.inj hpart
    rfl

theorem subtrees_opens (children : List (Text × ClassNode)) :
    Opens (subtreesParts category root children) := by
  induction children with
  | nil =>
    intro part hpart
    cases hpart
  | cons e rest ih => exact opens_append _ _ (subtree_opens category root e.2) ih

theorem subtrees_append (children more : List (Text × ClassNode)) :
    subtreesParts category root (children ++ more) =
      subtreesParts category root children ++ subtreesParts category root more := by
  induction children with
  | nil => rfl
  | cons e rest ih =>
    rw [List.cons_append, subtreesParts, ih, subtreesParts, List.append_assoc]

end sections

theorem shown_parts (category : Category) (hierarchy : Hierarchy) (node : ClassNode)
    (h : Shown category hierarchy.root node) :
    ∃ before heading after,
      parts category hierarchy = before ++ (headed heading node ++
        subtreesParts category hierarchy.root.name node.children) ++ after ∧
      heading.typeName? = some node.name ∧ Opens after := by
  induction h with
  | root =>
    refine ⟨[], .rootHeading hierarchy.root.name, [], ?_, rfl, subtrees_opens category [] []⟩
    rw [parts, List.append_nil, List.nil_append]
  | child node e _ he hs ih =>
    obtain ⟨before, heading, after, hparts, -, hafter⟩ := ih
    obtain ⟨first, last, hsplit⟩ := List.append_of_mem he
    have hlast := subtrees_opens category hierarchy.root.name last
    refine ⟨before ++ (headed heading node ++ subtreesParts category hierarchy.root.name first),
      .subtypeHeading hierarchy.root.name e.2.name,
      subtreesParts category hierarchy.root.name last ++ after, ?_, rfl,
      opens_append _ _ hlast hafter⟩
    rw [hparts, hsplit, subtrees_append, subtreesParts, subtree_shows category _ e.2 hs]
    simp only [List.append_assoc]

/-- Every shown node has a section of its own. -/
theorem shown_section (category : Category) (hierarchy : Hierarchy) (node : ClassNode)
    (h : Shown category hierarchy.root node) : OwnSection (parts category hierarchy) node := by
  obtain ⟨before, heading, after, hparts, hname, hafter⟩ := shown_parts category hierarchy node h
  have hbelow := subtrees_opens category hierarchy.root.name node.children
  refine ⟨before, heading, subtreesParts category hierarchy.root.name node.children ++ after, ?_,
    hname, opens_append _ _ hbelow hafter⟩
  rw [hparts]
  simp only [List.append_assoc]

def typeNames (category : Category) (hierarchy : Hierarchy) : List Text :=
  (parts category hierarchy).filterMap Part.typeName?

theorem shown_named (category : Category) (hierarchy : Hierarchy) (node : ClassNode)
    (h : Shown category hierarchy.root node) : node.name ∈ typeNames category hierarchy := by
  obtain ⟨before, heading, after, hparts, hname, -⟩ := shown_section category hierarchy node h
  rw [typeNames, List.mem_filterMap, hparts]
  exact ⟨heading, by simp [headed], hname⟩

theorem mem_subtrees (category : Category) (root : Text) (children : List (Text × ClassNode))
    (part : Part) (h : part ∈ subtreesParts category root children) :
    ∃ e ∈ children, part ∈ subtreeParts category root e.2 := by
  induction children with
  | nil => cases h
  | cons e rest ih =>
    rcases List.mem_append.mp h with h | h
    · exact ⟨e, by simp, h⟩
    · obtain ⟨d, hd, h⟩ := ih h
      exact ⟨d, by simp [hd], h⟩

theorem mem_subtree (category : Category) (root node : ClassNode) (part : Part)
    (hnode : category.isSuppressed node.name = false → Shown category root node)
    (h : part ∈ subtreeParts category root.name node) :
    ∃ shown, Shown category root shown ∧
      part ∈ headed (.subtypeHeading root.name shown.name) shown := by
  induction node using tree_node with
  | step node ih =>
    cases hs : category.isSuppressed node.name with
    | true =>
      cases node
      rw [subtreeParts, if_pos hs] at h
      cases h
    | false =>
      rw [subtree_shows category root.name node hs] at h
      rcases List.mem_append.mp h with h | h
      · exact ⟨node, hnode hs, h⟩
      · obtain ⟨e, he, h⟩ := mem_subtrees category root.name node.children part h
        exact ih e he (fun hs' => .child node e (hnode hs) he hs') h

theorem mem_parts (category : Category) (hierarchy : Hierarchy) (part : Part)
    (h : part ∈ parts category hierarchy) :
    part = .rootHeading hierarchy.root.name ∨
      ∃ node, Shown category hierarchy.root node ∧
        (part = .subtypeHeading hierarchy.root.name node.name ∨
          ∃ v ∈ node.rendered, part = .entry v) := by
  rcases List.mem_append.mp h with h | h
  · rcases List.mem_cons.mp h with rfl | h
    · exact Or.inl rfl
    · obtain ⟨v, hv, rfl⟩ := List.mem_map.mp h
      exact Or.inr ⟨hierarchy.root, .root, Or.inr ⟨v, hv, rfl⟩⟩
  · obtain ⟨e, he, h⟩ := mem_subtrees category hierarchy.root.name hierarchy.root.children part h
    obtain ⟨node, hnode, h⟩ := mem_subtree category hierarchy.root e.2 part
      (fun hs => .child _ e .root he hs) h
    rcases List.mem_cons.mp h with rfl | h
    · exact Or.inr ⟨node, hnode, Or.inl rfl⟩
    · obtain ⟨v, hv, rfl⟩ := List.mem_map.mp h
      exact Or.inr ⟨node, hnode, Or.inr ⟨v, hv, rfl⟩⟩

end ParameterManual.Manual
