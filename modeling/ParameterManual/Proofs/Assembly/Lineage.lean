import ParameterManual.Proofs.Assembly.BoundParameters
import ParameterManual.Proofs.Assembly.Siblings

/-!
# Lineages of a build

Every type that a build comes to has a lineage: the type, its parent and so on
up to the base type. What it is read with is handed down along its lineage,
and no type beside or below it has a part in that.
-/

set_option autoImplicit false

namespace ParameterManual.Assembly
open ClassNode

def declaredBy (tree : FileTree) (pair : SourcePair) : MemberTable :=
  match tree.readText pair.header with
  | .ok header => MemberTable.scan pair.name header
  | .error _ => []

def seenMembers (tree : FileTree) : List SourcePair → MemberTable
  | [] => MemberTable.framework
  | pair :: above => (declaredBy tree pair).layeredOver (seenMembers tree above)

section lineages
variable (settings : Settings) (tree : FileTree) (category : Category)

def subtypeFolder : List SourcePair → Path
  | [] => Path.join settings.sourceRoot category.folder
  | [_] => Path.join (Path.join settings.sourceRoot category.folder) settings.childrenFolder
  | pair :: above => Path.join (subtypeFolder above) pair.name

/-- The lineages of the types that a build comes to. The types of the lowest
level have no subtypes. -/
inductive Lineage : List SourcePair → Prop
  | base (pair : SourcePair) (h : basePair settings tree category = .ok pair) : Lineage [pair]
  | subtype (parent : SourcePair) (above : List SourcePair) (header : Text) (pair : SourcePair)
      (h : Lineage (parent :: above)) (hlevel : above.length < levels category)
      (hheader : header ∈ SourcePair.headersIn
        ⟨settings.headerExtension, settings.sourceExtension⟩ tree
        (subtypeFolder settings category (parent :: above)))
      (hpair : SourcePair.ofHeader tree ⟨settings.headerExtension, settings.sourceExtension⟩
        (subtypeFolder settings category (parent :: above)) header = .ok pair) :
      Lineage (pair :: parent :: above)

/-- The nodes from a node of a tree up to the root. -/
inductive Ancestry (root : ClassNode) : List ClassNode → Prop
  | root : Ancestry root [root]
  | child (node : ClassNode) (above : List ClassNode) (e : Text × ClassNode)
      (h : Ancestry root (node :: above)) (he : e ∈ node.children) :
      Ancestry root (e.2 :: node :: above)

def ReadFrom (node : ClassNode) (pair : SourcePair) : Prop :=
  node.name = pair.name ∧ node.filePath = some pair.header

end lineages

theorem scan_ok (corpus : Corpus) (pair : SourcePair) (parentMembers : MemberTable)
    (inherited : TextMap Variable) (scanned : Scanned)
    (h : scan corpus pair parentMembers inherited = .ok scanned) :
    scanned.members = (declaredBy corpus.tree pair).layeredOver parentMembers ∧
      ∃ content, corpus.tree.readText pair.source = .ok content ∧
        Constructor.extract ⟨pair.name, corpus.translations, scanned.members, inherited⟩
          pair.source content = .ok scanned.documented := by
  obtain ⟨header, hheader, h⟩ := bind_ok h
  obtain ⟨content, hcontent, h⟩ := bind_ok h
  obtain ⟨own, hown, h⟩ := bind_ok h
  obtain rfl := Except.ok.inj h
  refine ⟨?_, content, hcontent, hown⟩
  rw [declaredBy, hheader]

section reached
variable (settings : Settings) (translations : TranslationTable) (tree : FileTree)
variable (category : Category)

/-- A type that has been read with what is handed down its lineage, and whose
subtypes, some levels down, have been attached to its node. -/
structure Reached (pair : SourcePair) (above : List SourcePair) (levels : Nat)
    (node : ClassNode) : Prop where
  named : ReadFrom node pair
  read : ∃ inherited scanned, Keyed inherited ∧
    scan (corpus settings translations tree) pair (seenMembers tree above) inherited =
      .ok scanned ∧ Declares node scanned.documented
  grown : ∃ (start : ClassNode) (before after : Statistics), start.children = [] ∧
    Keyed start.documented ∧
    attachChildren (corpus settings translations tree) levels
      (subtypeFolder settings category (pair :: above)) (seenMembers tree (pair :: above))
      (start, before) = .ok (node, after)

theorem grown_reached (pair : SourcePair) (above : List SourcePair) (levels : Nat)
    (inherited : TextMap Variable) (scanned : Scanned) (bare : ClassNode)
    (before : Statistics) (built : Grown) (hkeyed : Keyed inherited)
    (hscanned : scan (corpus settings translations tree) pair (seenMembers tree above) inherited =
      .ok scanned)
    (hname : bare.name = pair.name) (hempty : bare.children = [])
    (hdeclares : Declares bare scanned.documented)
    (hbuilt : attachChildren (corpus settings translations tree) levels
      (subtypeFolder settings category (pair :: above)) scanned.members
      ({ bare with filePath := some pair.header }, before) = .ok built) :
    Reached settings translations tree category pair above levels built.1 := by
  obtain ⟨hmembers, -⟩ := scan_ok _ pair _ inherited scanned hscanned
  obtain ⟨hsame, -⟩ := attachChildren_assembled _ levels _ _ _ built hempty hbuilt
  refine ⟨⟨(same_name _ built.1 hsame).trans hname, ?_⟩, ⟨inherited, scanned, hkeyed, hscanned,
    declares_same bare built.1 scanned.documented _ hsame hdeclares⟩, ?_⟩
  · rw [hsame]
  · rw [hmembers] at hbuilt
    exact ⟨{ bare with filePath := some pair.header }, before, built.2, hempty, hdeclares.keyed,
      hbuilt⟩

theorem yields_reached (parent : SourcePair) (above : List SourcePair) (levels : Nat)
    (start : ClassNode) (hkeyed : Keyed start.documented) (header : Text) (built : Grown)
    (h : Yields (corpus settings translations tree) levels
      (subtypeFolder settings category (parent :: above)) (seenMembers tree (parent :: above))
      start header built) :
    ∃ pair, SourcePair.ofHeader tree ⟨settings.headerExtension, settings.sourceExtension⟩
        (subtypeFolder settings category (parent :: above)) header = .ok pair ∧
      Reached settings translations tree category pair (parent :: above) levels built.1 := by
  obtain ⟨pair, hpair, scanned, hscanned, hbuilt⟩ := h
  obtain ⟨-, content, -, hextract⟩ := scan_ok _ pair _ start.documented scanned hscanned
  have hdistinct := Constructor.extract_distinct _ hkeyed pair.source content
    scanned.documented hextract
  have hderived := derive_inherits start pair.name scanned.documented hkeyed hdistinct
  refine ⟨pair, hpair, ?_⟩
  exact grown_reached settings translations tree category pair (parent :: above) levels
    start.documented scanned (start.derive pair.name scanned.documented) _ built hkeyed hscanned
    (layer_name _ scanned.documented) (layer_children _ scanned.documented)
    (inherits_declares start _ scanned.documented hdistinct hderived) hbuilt

theorem reached_header (parent : SourcePair) (above : List SourcePair) (levels : Nat)
    (node : ClassNode)
    (h : Reached settings translations tree category parent above (levels + 1) node)
    (header : Text) (hheader : header ∈ SourcePair.headersIn
      ⟨settings.headerExtension, settings.sourceExtension⟩ tree
      (subtypeFolder settings category (parent :: above))) :
    ∃ pair child, SourcePair.ofHeader tree ⟨settings.headerExtension, settings.sourceExtension⟩
        (subtypeFolder settings category (parent :: above)) header = .ok pair ∧
      Reached settings translations tree category pair (parent :: above) levels child := by
  obtain ⟨start, before, after, -, hkeyed, hgrown⟩ := h.grown
  obtain ⟨built, hbuilt, -⟩ := (attachChildren_ok _ levels _ _ _ _).mp hgrown
  obtain ⟨b, -, hyields⟩ := forall₂_mem built _ hbuilt.flip header hheader
  obtain ⟨pair, hpair, hreached⟩ := yields_reached settings translations tree category parent above
    levels start hkeyed header b hyields
  exact ⟨pair, b.1, hpair, hreached⟩

theorem reached_child (parent : SourcePair) (above : List SourcePair) (levels : Nat)
    (node : ClassNode)
    (h : Reached settings translations tree category parent above (levels + 1) node)
    (e : Text × ClassNode) (he : e ∈ node.children) :
    ∃ header ∈ SourcePair.headersIn ⟨settings.headerExtension, settings.sourceExtension⟩ tree
        (subtypeFolder settings category (parent :: above)),
      ∃ pair, SourcePair.ofHeader tree ⟨settings.headerExtension, settings.sourceExtension⟩
          (subtypeFolder settings category (parent :: above)) header = .ok pair ∧
        Reached settings translations tree category pair (parent :: above) levels e.2 := by
  obtain ⟨start, before, after, hempty, hkeyed, hgrown⟩ := h.grown
  obtain ⟨built, hbuilt, hnode⟩ := (attachChildren_ok _ levels _ _ _ _).mp hgrown
  have hchildren : node.children = TextMap.ofEntries (entriesOf built) := by
    rw [← attachAll_children (start, before) built hempty, ← hnode]
  rw [hchildren] at he
  rcases TextMap.mem_insertAll _ _ e he with he | he
  · obtain ⟨b, hb, rfl⟩ := List.mem_map.mp he
    obtain ⟨header, hheader, hyields⟩ := forall₂_mem _ built hbuilt b hb
    exact ⟨header, hheader, yields_reached settings translations tree category parent above levels
      start hkeyed header b hyields⟩
  · cases he

theorem root_reached (hierarchy : Hierarchy) (statistics : Statistics)
    (h : build settings translations tree category = .ok (hierarchy, statistics)) :
    ∃ base, basePair settings tree category = .ok base ∧
      Reached settings translations tree category base [] (levels category) hierarchy.root := by
  obtain ⟨base, scanned, root, counted, hbase, hscanned, hroot, rfl, -⟩ :=
    (build_ok settings translations tree category hierarchy statistics).mp h
  obtain ⟨-, content, -, hextract⟩ := scan_ok _ base _ seed scanned hscanned
  have hdistinct := Constructor.extract_distinct _ seed_keyed base.source content
    scanned.documented hextract
  refine ⟨base, hbase, ?_⟩
  exact grown_reached settings translations tree category base [] (levels category) seed scanned
    (ClassNode.root base.name Variable.label Variable.type scanned.documented) _ (root, counted)
    seed_keyed hscanned (layer_name _ scanned.documented) (layer_children _ scanned.documented)
    (root_declares base.name scanned.documented hdistinct) hroot

theorem reached_lowest (pair : SourcePair) (above : List SourcePair) (node : ClassNode)
    (h : Reached settings translations tree category pair above 0 node) : node.children = [] := by
  obtain ⟨start, before, after, hempty, -, hgrown⟩ := h.grown
  obtain ⟨rfl, -⟩ := Prod.mk.inj (Except.ok.inj hgrown)
  exact hempty

variable (hierarchy : Hierarchy) (statistics : Statistics)
variable (h : build settings translations tree category = .ok (hierarchy, statistics))
include h

/-- A build that succeeds reaches the type of every lineage. -/
theorem lineage_reached (lineage : List SourcePair) (hl : Lineage settings tree category lineage) :
    ∃ pair above n node, lineage = pair :: above ∧ above.length + n = levels category ∧
      Reached settings translations tree category pair above n node := by
  induction hl with
  | base pair hbase =>
    obtain ⟨base, hfound, hreached⟩ :=
      root_reached settings translations tree category hierarchy statistics h
    obtain rfl := Except.ok.inj (hfound.symm.trans hbase)
    exact ⟨base, [], levels category, hierarchy.root, rfl, Nat.zero_add _, hreached⟩
  | subtype parent above header pair _ hlevel hheader hpair ih =>
    obtain ⟨p, a, n, node, heq, hlength, hreached⟩ := ih
    obtain ⟨rfl, rfl⟩ := List.cons.inj heq
    obtain ⟨m, rfl⟩ : ∃ m, n = m + 1 := ⟨n - 1, by omega⟩
    obtain ⟨found, child, hfound, hchild⟩ := reached_header settings translations tree category
      parent above m node hreached header hheader
    obtain rfl := Except.ok.inj (hfound.symm.trans hpair)
    refine ⟨found, parent :: above, m, child, rfl, ?_, hchild⟩
    rw [List.length_cons]
    omega

/-- A node of the tree is that of a type that is reached, and the nodes above
it are those of the lineage of the type. -/
theorem ancestry_lineage (nodes : List ClassNode) (hn : Ancestry hierarchy.root nodes) :
    ∃ node rest pair above n, nodes = node :: rest ∧
      Lineage settings tree category (pair :: above) ∧
      List.Forall₂ ReadFrom (node :: rest) (pair :: above) ∧
      above.length + n = levels category ∧
      Reached settings translations tree category pair above n node := by
  induction hn with
  | root =>
    obtain ⟨base, hbase, hreached⟩ :=
      root_reached settings translations tree category hierarchy statistics h
    exact ⟨hierarchy.root, [], base, [], levels category, rfl, .base base hbase,
      .cons hreached.named .nil, Nat.zero_add _, hreached⟩
  | child node rest e _ he ih =>
    obtain ⟨_, _, parent, above, n, heq, hlineage, hnodes, hlength, hreached⟩ := ih
    obtain ⟨rfl, rfl⟩ := List.cons.inj heq
    cases n with
    | zero =>
      rw [reached_lowest settings translations tree category parent above node hreached] at he
      cases he
    | succ n =>
      obtain ⟨header, hheader, pair, hpair, hchild⟩ := reached_child settings translations tree
        category parent above n node hreached e he
      refine ⟨e.2, node :: rest, pair, parent :: above, n, rfl, ?_, .cons hchild.named hnodes, ?_,
        hchild⟩
      · exact .subtype parent above header pair hlineage (by omega) hheader hpair
      · rw [List.length_cons]
        omega

end reached

end ParameterManual.Assembly
