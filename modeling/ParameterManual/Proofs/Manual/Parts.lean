import ParameterManual.Manual.Section
import ParameterManual.Proofs.ClassNode.Tree

/-!
# Parts of a section

A section is written part by part: a heading for each type that is shown, and
an entry for each variable rendered there. The entries are as many as the
variables rendered in the tree, unless a type is suppressed that renders one
or has one below it that does.
-/

set_option autoImplicit false

namespace ParameterManual.Manual
open ClassNode

inductive Part where
  | rootHeading (name : Text)
  | subtypeHeading (root name : Text)
  | entry (v : Variable)

namespace Part

def text (style : Style) : Part → Text
  | .rootHeading name => Manual.rootHeading style name
  | .subtypeHeading root name => Manual.subtypeHeading style (command style.rules root) name
  | .entry v => Manual.entry style v

def isEntry : Part → Bool
  | .entry _ => true
  | _ => false

end Part

def headed (heading : Part) (node : ClassNode) : List Part :=
  heading :: node.rendered.map Part.entry

mutual

def subtreeParts (category : Category) (root : Text) : ClassNode → List Part
  | node@⟨name, _, _, _, children, _⟩ =>
    if category.isSuppressed name then []
    else headed (.subtypeHeading root name) node ++ subtreesParts category root children
termination_by structural node => node

def subtreesParts (category : Category) (root : Text) : List (Text × ClassNode) → List Part
  | [] => []
  | (_, child) :: rest => subtreeParts category root child ++ subtreesParts category root rest
termination_by structural children => children

end

def parts (category : Category) (hierarchy : Hierarchy) : List Part :=
  headed (.rootHeading hierarchy.root.name) hierarchy.root ++
    subtreesParts category hierarchy.root.name hierarchy.root.children

section texts
variable (style : Style) (category : Category)

theorem headed_text (heading : Part) (node : ClassNode) :
    (headed heading node).flatMap (Part.text style) = heading.text style ++ entries style node := by
  rw [headed, List.flatMap_cons, List.flatMap_map, entries]
  rfl

theorem subtrees_parts (root : Text) (children : List (Text × ClassNode))
    (h : ∀ e ∈ children, subtree style category (command style.rules root) e.2 =
      (subtreeParts category root e.2).flatMap (Part.text style)) :
    subtrees style category (command style.rules root) children =
      (subtreesParts category root children).flatMap (Part.text style) := by
  induction children with
  | nil => rfl
  | cons e rest ih =>
    rw [subtrees, subtreesParts, List.flatMap_append, h e (by simp),
      ih (fun d hd => h d (by simp [hd]))]

theorem subtree_parts (root : Text) (node : ClassNode) :
    subtree style category (command style.rules root) node =
      (subtreeParts category root node).flatMap (Part.text style) := by
  induction node using tree_node with
  | step node ih =>
    cases node with
    | mk name parentName documented order children filePath =>
      rw [subtree, subtreeParts]
      split
      · rfl
      · rw [List.flatMap_append, headed_text, subtrees_parts style category root children ih]
        rfl

/-- A section is written part by part. -/
theorem render_parts (hierarchy : Hierarchy) :
    render style category hierarchy = (parts category hierarchy).flatMap (Part.text style) := by
  have hbelow := subtrees_parts style category hierarchy.root.name hierarchy.root.children
    (fun e _ => subtree_parts style category hierarchy.root.name e.2)
  rw [render, parts, List.flatMap_append, headed_text, hbelow]
  rfl

end texts

def entryCount (category : Category) (hierarchy : Hierarchy) : Nat :=
  (parts category hierarchy).countP Part.isEntry

/-- A node is hidden if it is a suppressed subtype, or lies below one. -/
def Hidden (category : Category) (root node : ClassNode) : Prop :=
  ∃ above, root.Contains above ∧ ∃ e ∈ above.children,
    category.isSuppressed e.2.name = true ∧ e.2.Contains node

section counts
variable (category : Category)

theorem headed_count (heading : Part) (node : ClassNode) (h : heading.isEntry = false) :
    (headed heading node).countP Part.isEntry = node.rendered.length := by
  rw [headed, List.countP_cons, h, List.countP_map]
  simp [Part.isEntry, Function.comp_def]

theorem subtreesParts_count (root : Text) (children : List (Text × ClassNode)) :
    (subtreesParts category root children).countP Part.isEntry =
      (children.map (fun e => (subtreeParts category root e.2).countP Part.isEntry)).sum := by
  induction children with
  | nil => rfl
  | cons e rest ih => rw [subtreesParts, List.countP_append, ih, List.map_cons, List.sum_cons]

theorem hidden_cases (root node : ClassNode) :
    Hidden category root node ↔ ∃ e ∈ root.children,
      (category.isSuppressed e.2.name = true ∧ e.2.Contains node) ∨ Hidden category e.2 node := by
  constructor
  · rintro ⟨above, habove, d, hd, hs, hnode⟩
    rcases contains_cases root above habove with rfl | ⟨e, he, habove⟩
    · exact ⟨d, hd, Or.inl ⟨hs, hnode⟩⟩
    · exact ⟨e, he, Or.inr ⟨above, habove, d, hd, hs, hnode⟩⟩
  · rintro ⟨e, he, ⟨hs, hnode⟩ | ⟨above, habove, d, hd, hs, hnode⟩⟩
    · exact ⟨root, .root, e, he, hs, hnode⟩
    · exact ⟨above, contains_below root above e he habove, d, hd, hs, hnode⟩

theorem hidden_contains (root node : ClassNode) (h : Hidden category root node) :
    root.Contains node := by
  obtain ⟨above, habove, e, he, -, hnode⟩ := h
  exact contains_trans root above node habove (contains_below above node e he hnode)

theorem shown_below (root : Text) (node : ClassNode)
    (h : ∀ e ∈ node.children,
      (subtreeParts category root e.2).countP Part.isEntry ≤ e.2.documentedCount ∧
        ((subtreeParts category root e.2).countP Part.isEntry = e.2.documentedCount ↔
          ∀ m, (category.isSuppressed e.2.name = true ∧ e.2.Contains m) ∨
            Hidden category e.2 m → m.rendered = [])) :
    node.rendered.length + (subtreesParts category root node.children).countP Part.isEntry ≤
        node.documentedCount ∧
      (node.rendered.length + (subtreesParts category root node.children).countP Part.isEntry =
          node.documentedCount ↔ ∀ m, Hidden category node m → m.rendered = []) := by
  rw [subtreesParts_count, documentedCount_sum]
  obtain ⟨hle, heq⟩ := sums_le node.children node.children (List.forall₂_same.mpr h)
  refine ⟨Nat.add_le_add_left hle _, ?_⟩
  rw [Nat.add_left_cancel_iff, heq]
  constructor
  · intro hall m hm
    obtain ⟨e, he, hm⟩ := (hidden_cases category node m).mp hm
    exact hall e he m hm
  · intro hall e he m hm
    exact hall m ((hidden_cases category node m).mpr ⟨e, he, hm⟩)

theorem subtree_shown (root : Text) (node : ClassNode) :
    (subtreeParts category root node).countP Part.isEntry ≤ node.documentedCount ∧
      ((subtreeParts category root node).countP Part.isEntry = node.documentedCount ↔
        ∀ m, (category.isSuppressed node.name = true ∧ node.Contains m) ∨
          Hidden category node m → m.rendered = []) := by
  induction node using tree_node with
  | step node ih =>
    by_cases hs : category.isSuppressed node.name = true
    · have hnone : subtreeParts category root node = [] := by
        cases node
        rw [subtreeParts, if_pos hs]
      rw [hnone, List.countP_nil, eq_comm (a := 0), documentedCount_zero]
      refine ⟨Nat.zero_le _, ?_⟩
      constructor
      · rintro hall m (⟨-, hm⟩ | hm)
        · exact hall m hm
        · exact hall m (hidden_contains category node m hm)
      · intro hall m hm
        exact hall m (Or.inl ⟨hs, hm⟩)
    · have hparts : subtreeParts category root node =
          headed (.subtypeHeading root node.name) node ++
            subtreesParts category root node.children := by
        cases node
        rw [subtreeParts, if_neg hs]
      obtain ⟨hle, heq⟩ := shown_below category root node ih
      rw [hparts, List.countP_append, headed_count _ node rfl]
      refine ⟨hle, heq.trans ?_⟩
      simp [hs]

/-- A section has an entry for every variable that its hierarchy counts,
exactly if no hidden node renders one. -/
theorem entries_shown (hierarchy : Hierarchy) :
    entryCount category hierarchy = hierarchy.root.documentedCount ↔
      ∀ node, Hidden category hierarchy.root node → node.rendered = [] := by
  have hbelow := shown_below category hierarchy.root.name hierarchy.root
    (fun e _ => subtree_shown category hierarchy.root.name e.2)
  rw [entryCount, parts, List.countP_append, headed_count _ hierarchy.root rfl]
  exact hbelow.2

end counts

end ParameterManual.Manual
