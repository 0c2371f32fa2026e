import ParameterManual.Proofs.ClassNode.Tree
import ParameterManual.Proofs.Text.Map

/-!
# The listing of a tree

A tree is listed depth first, each node with the names that lead to it from
the root. If children stand in the order of their names, the listing is in
the order of these paths, and has one entry for each path that leads to a
node.
-/

set_option autoImplicit false

namespace ParameterManual.ClassNode

def at? : ClassNode → List Text → Option ClassNode
  | node, [] => some node
  | node, name :: rest => (TextMap.find? name node.children).bind (at? · rest)

mutual

/-- The nodes of a tree depth first, each with the names that lead to it. -/
def listing : ClassNode → List (List Text × ClassNode)
  | node@⟨_, _, _, _, children, _⟩ => ([], node) :: listings children
termination_by structural node => node

def listings : List (Text × ClassNode) → List (List Text × ClassNode)
  | [] => []
  | (name, child) :: rest =>
    child.listing.map (fun e => (name :: e.1, e.2)) ++ listings rest
termination_by structural children => children

end

/-- Every node has its children in the order of their names. -/
def Ordered (root : ClassNode) : Prop :=
  ∀ node, root.Contains node → TextMap.Sorted node.children

theorem listing_cons (node : ClassNode) :
    node.listing = ([], node) :: listings node.children := by
  cases node
  rfl

theorem listings_length (children : List (Text × ClassNode)) :
    (listings children).length = (children.map (fun e => e.2.listing.length)).sum := by
  induction children with
  | nil => rfl
  | cons e rest ih =>
    rw [listings, List.length_append, List.length_map, ih, List.map_cons, List.sum_cons]

theorem listing_length (node : ClassNode) : node.listing.length = node.typeCount := by
  induction node using tree_node with
  | step node ih =>
    rw [listing_cons, List.length_cons, listings_length, typeCount_sum, Nat.add_comm,
      List.map_congr_left ih]

theorem listings_variables (children : List (Text × ClassNode)) :
    (listings children).flatMap (fun e => e.2.ordered) =
      children.flatMap (fun e => e.2.listing.flatMap (fun d => d.2.ordered)) := by
  induction children with
  | nil => rfl
  | cons e rest ih =>
    rw [listings, List.flatMap_append, List.flatMap_map, ih, List.flatMap_cons]

theorem listing_rendered (node : ClassNode) :
    node.documentedCount =
      ((node.listing.flatMap (fun e => e.2.ordered)).filter Variable.isRendered).length := by
  induction node using tree_node with
  | step node ih =>
    rw [listing_cons, List.flatMap_cons, listings_variables, List.filter_append,
      List.filter_flatMap, List.length_append, List.length_flatMap, documentedCount_sum,
      List.map_congr_left ih]
    rfl

theorem mem_listings (children : List (Text × ClassNode)) (p : List Text) (m : ClassNode) :
    (p, m) ∈ listings children ↔
      ∃ e ∈ children, ∃ rest, p = e.1 :: rest ∧ (rest, m) ∈ e.2.listing := by
  induction children with
  | nil => simp [listings]
  | cons e others ih =>
    rw [listings, List.mem_append, ih, List.mem_map]
    constructor
    · rintro (⟨⟨rest, own⟩, hown, heq⟩ | ⟨d, hd, hrest⟩)
      · obtain ⟨rfl, rfl⟩ := Prod.mk.inj heq
        exact ⟨e, by simp, rest, rfl, hown⟩
      · exact ⟨d, by simp [hd], hrest⟩
    · rintro ⟨d, hd, rest, rfl, hrest⟩
      rcases List.mem_cons.mp hd with rfl | hd
      · exact Or.inl ⟨(rest, m), hrest, rfl⟩
      · exact Or.inr ⟨d, hd, rest, rfl, hrest⟩

theorem ordered_own (root : ClassNode) (h : root.Ordered) : TextMap.Sorted root.children :=
  h root .root

theorem ordered_below (root : ClassNode) (h : root.Ordered) (e : Text × ClassNode)
    (he : e ∈ root.children) : e.2.Ordered :=
  fun node hnode => h node (contains_below root node e he hnode)

theorem ordered_intro (root : ClassNode) (h : TextMap.Sorted root.children)
    (hbelow : ∀ e ∈ root.children, e.2.Ordered) : root.Ordered := by
  intro node hnode
  rcases contains_cases root node hnode with rfl | ⟨e, he, hnode⟩
  · exact h
  · exact hbelow e he node hnode

theorem childless_ordered (node : ClassNode) (h : node.children = []) : node.Ordered := by
  apply ordered_intro
  · rw [h]
    exact List.Pairwise.nil
  · intro e he
    rw [h] at he
    cases he

theorem withChild_ordered (node child : ClassNode) (hnode : node.Ordered) (hchild : child.Ordered) :
    (node.withChild child).Ordered := by
  apply ordered_intro
  · exact TextMap.sorted_insert child.name child node.children (ordered_own node hnode)
  · intro e he
    rcases TextMap.mem_insert child.name child node.children e he with rfl | he
    · exact hchild
    · exact ordered_below node hnode e he

theorem mem_listing (node : ClassNode) (h : node.Ordered) (p : List Text) (m : ClassNode) :
    (p, m) ∈ node.listing ↔ node.at? p = some m := by
  induction node using tree_node generalizing p with
  | step node ih =>
    rw [listing_cons, List.mem_cons, mem_listings]
    cases p with
    | nil => simp [at?, eq_comm]
    | cons name rest =>
      have hsorted := ordered_own node h
      rw [at?, Option.bind_eq_some_iff]
      constructor
      · rintro (heq | ⟨e, he, rest', hp, hrest⟩)
        · simp at heq
        · obtain ⟨rfl, rfl⟩ := List.cons.inj hp
          exact ⟨e.2, TextMap.find?_of_mem node.children hsorted e.1 e.2 he,
            (ih e he (ordered_below node h e he) rest).mp hrest⟩
      · rintro ⟨child, hfind, hrest⟩
        have he := TextMap.mem_of_find? node.children name child hfind
        exact Or.inr ⟨(name, child), he, rest, rfl,
          (ih (name, child) he (ordered_below node h _ he) rest).mpr hrest⟩

theorem listings_sorted (children : List (Text × ClassNode)) (hsorted : TextMap.Sorted children)
    (h : ∀ e ∈ children, e.2.listing.Pairwise (fun a b => a.1 < b.1)) :
    (listings children).Pairwise (fun a b => a.1 < b.1) := by
  induction children with
  | nil => exact List.Pairwise.nil
  | cons e rest ih =>
    obtain ⟨hfirst, hrest⟩ := List.pairwise_cons.mp hsorted
    rw [listings, List.pairwise_append, List.pairwise_map]
    refine ⟨?_, ih hrest (fun d hd => h d (by simp [hd])), ?_⟩
    · apply (h e (by simp)).imp
      intro a b hab
      exact List.cons_lt_cons_iff.mpr (Or.inr ⟨rfl, hab⟩)
    · rintro a ha ⟨p, m⟩ hb
      obtain ⟨own, -, rfl⟩ := List.mem_map.mp ha
      obtain ⟨d, hd, below, rfl, -⟩ := (mem_listings rest p m).mp hb
      have hlt : e.1 < d.1 := hfirst d.1 (List.mem_map.mpr ⟨d, hd, rfl⟩)
      exact List.cons_lt_cons_iff.mpr (Or.inl hlt)

/-- Depth first, with children in the order of their names: a path comes
before those that go on from it, and before those of a later child. -/
theorem listing_sorted (node : ClassNode) (h : node.Ordered) :
    node.listing.Pairwise (fun a b => a.1 < b.1) := by
  induction node using tree_node with
  | step node ih =>
    have hbelow := listings_sorted node.children (ordered_own node h)
      (fun e he => ih e he (ordered_below node h e he))
    rw [listing_cons, List.pairwise_cons]
    refine ⟨?_, hbelow⟩
    rintro ⟨p, m⟩ hm
    obtain ⟨e, -, rest, rfl, -⟩ := (mem_listings node.children p m).mp hm
    exact List.nil_lt_cons e.1 rest

end ParameterManual.ClassNode
