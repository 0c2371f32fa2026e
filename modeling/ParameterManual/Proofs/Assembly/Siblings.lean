import ParameterManual.Proofs.Assembly.Building
import ParameterManual.Proofs.Assembly.Inheritance
import ParameterManual.Proofs.ClassNode.Listing
import ParameterManual.Proofs.Text.Entries

/-!
# Siblings in a build

The types of a folder are attached one after another to a parent that grows,
with counts that grow. None of them depends on those before it: each is what
its files make of the parent as it was, and the counts add up.
-/

set_option autoImplicit false

namespace ParameterManual.Assembly
open ClassNode

theorem add_assoc (a b c : Statistics) : (a.add b).add c = a.add (b.add c) := by
  simp only [Statistics.add, Nat.add_assoc]

def attachAll (grown : Grown) (built : List Grown) : Grown :=
  built.foldl (fun g b => (g.1.withChild b.1, g.2.add b.2)) grown

def entriesOf (built : List Grown) : List (Text × ClassNode) :=
  built.map (fun b => (b.1.name, b.1))

theorem attachAll_node (grown : Grown) (built : List Grown) :
    (attachAll grown built).1 = { grown.1 with
      children := TextMap.insertAll (entriesOf built) grown.1.children } := by
  induction built generalizing grown with
  | nil =>
    obtain ⟨node, statistics⟩ := grown
    cases node
    rfl
  | cons b rest ih => exact ih (grown.1.withChild b.1, grown.2.add b.2)

theorem attachAll_children (grown : Grown) (built : List Grown) (hempty : grown.1.children = []) :
    (attachAll grown built).1.children = TextMap.ofEntries (entriesOf built) := by
  rw [attachAll_node, hempty]
  rfl

theorem attachAll_files (grown : Grown) (built : List Grown) :
    (attachAll grown built).2.filesRead =
      grown.2.filesRead + (built.map (fun b => b.2.filesRead)).sum := by
  induction built generalizing grown with
  | nil => rfl
  | cons b rest ih =>
    have hrest := ih (grown.1.withChild b.1, grown.2.add b.2)
    rw [List.map_cons, List.sum_cons, ← Nat.add_assoc]
    exact hrest

theorem attachAll_ordered (grown : Grown) (built : List Grown) (hgrown : grown.1.Ordered)
    (hbuilt : ∀ b ∈ built, b.1.Ordered) : (attachAll grown built).1.Ordered := by
  induction built generalizing grown with
  | nil => exact hgrown
  | cons b rest ih =>
    have hfirst := withChild_ordered grown.1 b.1 hgrown (hbuilt b (by simp))
    exact ih (grown.1.withChild b.1, grown.2.add b.2) hfirst (fun c hc => hbuilt c (by simp [hc]))

section siblings
variable (corpus : Corpus)

/-- What the files of a pair make of a node: the subtype that they describe,
with subtypes of its own, and the counts of reading them all. -/
def Describes (levels : Nat) (folder : Path) (members : MemberTable) (node : ClassNode)
    (pair : SourcePair) (built : Grown) : Prop :=
  ∃ scanned, scan corpus pair members node.documented = .ok scanned ∧
    attachChildren corpus levels (Path.join folder pair.name) scanned.members
      ({ node.derive pair.name scanned.documented with filePath := some pair.header },
        typeStatistics scanned.documented) = .ok built

/-- What a header in a folder makes of a node, if it has a pair. -/
def Yields (levels : Nat) (folder : Path) (members : MemberTable) (node : ClassNode)
    (header : Text) (built : Grown) : Prop :=
  ∃ pair, SourcePair.ofHeader corpus.tree corpus.extensions folder header = .ok pair ∧
    Describes corpus levels folder members node pair built

def counted (statistics : Statistics) (grown : Grown) : Grown :=
  (grown.1, statistics.add grown.2)

theorem attachPair_counts (below : Path → MemberTable → Grown → Except Failure Grown)
    (statistics : Statistics)
    (hbelow : ∀ folder members grown, below folder members (counted statistics grown) =
      counted statistics <$> below folder members grown)
    (folder : Path) (members : MemberTable) (grown : Grown) (pair : SourcePair) :
    attachPair corpus below folder members (counted statistics grown) pair =
      counted statistics <$> attachPair corpus below folder members grown pair := by
  rw [attachPair, attachPair, counted]
  cases scan corpus pair members grown.1.documented with
  | error fault => rfl
  | ok scanned =>
    have hchild := hbelow (Path.join folder pair.name) scanned.members
      ({ grown.1.derive pair.name scanned.documented with filePath := some pair.header },
        grown.2.add (typeStatistics scanned.documented))
    rw [counted, ← add_assoc] at hchild
    change (below _ _ _ >>= _) = _ <$> (below _ _ _ >>= _)
    rw [hchild]
    cases below (Path.join folder pair.name) scanned.members _ with
    | error fault => rfl
    | ok built => rfl

theorem attachChildren_counts (levels : Nat) (folder : Path) (members : MemberTable)
    (statistics : Statistics) (grown : Grown) :
    attachChildren corpus levels folder members (counted statistics grown) =
      counted statistics <$> attachChildren corpus levels folder members grown := by
  induction levels generalizing folder members grown with
  | zero => rfl
  | succ levels ih =>
    rw [attachChildren, attachChildren]
    cases SourcePair.collect corpus.tree corpus.extensions folder with
    | error fault => rfl
    | ok pairs =>
      refine foldlM_carried _ (counted statistics) pairs ?_ grown
      intro pair _ before
      exact attachPair_counts corpus (attachChildren corpus levels) statistics ih folder members
        before pair

theorem attachPair_ok (levels : Nat) (folder : Path) (members : MemberTable) (node : ClassNode)
    (grown result : Grown) (pair : SourcePair) (hsame : SameButChildren node grown.1) :
    attachPair corpus (attachChildren corpus levels) folder members grown pair = .ok result ↔
      ∃ built, Describes corpus levels folder members node pair built ∧
        result = (grown.1.withChild built.1, grown.2.add built.2) := by
  have hdocumented : grown.1.documented = node.documented := by rw [hsame]
  have hcounts (scanned : Scanned) := attachChildren_counts corpus levels
    (Path.join folder pair.name) scanned.members grown.2
    ({ node.derive pair.name scanned.documented with filePath := some pair.header },
      typeStatistics scanned.documented)
  rw [attachPair, hdocumented, bind_ok_iff]
  constructor
  · rintro ⟨scanned, hscanned, h⟩
    obtain ⟨child, hchild, h⟩ := bind_ok h
    rw [derive_same node grown.1 pair.name scanned.documented hsame] at hchild
    obtain ⟨built, hbuilt, rfl⟩ := map_ok ((hcounts scanned).symm.trans hchild)
    exact ⟨built, ⟨scanned, hscanned, hbuilt⟩, (Except.ok.inj h).symm⟩
  · rintro ⟨built, ⟨scanned, hscanned, hbuilt⟩, rfl⟩
    have hchild := hcounts scanned
    rw [hbuilt] at hchild
    rw [← derive_same node grown.1 pair.name scanned.documented hsame] at hchild
    exact ⟨scanned, hscanned, bind_ok_iff.mpr ⟨counted grown.2 built, hchild, rfl⟩⟩

theorem attachPairs_ok (levels : Nat) (folder : Path) (members : MemberTable) (node : ClassNode)
    (pairs : List SourcePair) (grown result : Grown) (hsame : SameButChildren node grown.1) :
    pairs.foldlM (attachPair corpus (attachChildren corpus levels) folder members) grown =
        .ok result ↔
      ∃ built, List.Forall₂ (Describes corpus levels folder members node) pairs built ∧
        result = attachAll grown built := by
  induction pairs generalizing grown with
  | nil =>
    constructor
    · intro h
      exact ⟨[], .nil, (Except.ok.inj h).symm⟩
    · rintro ⟨built, hbuilt, rfl⟩
      obtain rfl := List.forall₂_nil_left_iff.mp hbuilt
      rfl
  | cons pair rest ih =>
    have hgrow (b : Grown) := ih (grown.1.withChild b.1, grown.2.add b.2)
      (same_trans node grown.1 _ hsame (same_withChild grown.1 b.1))
    rw [List.foldlM_cons, bind_ok_iff]
    constructor
    · rintro ⟨next, hnext, h⟩
      obtain ⟨b, hb, rfl⟩ :=
        (attachPair_ok corpus levels folder members node grown next pair hsame).mp hnext
      obtain ⟨others, hothers, rfl⟩ := (hgrow b).mp h
      exact ⟨b :: others, .cons hb hothers, rfl⟩
    · rintro ⟨built, hbuilt, rfl⟩
      obtain ⟨b, others, hb, hothers, rfl⟩ := List.forall₂_cons_left_iff.mp hbuilt
      refine ⟨_, (attachPair_ok corpus levels folder members node grown _ pair hsame).mpr
        ⟨b, hb, rfl⟩, ?_⟩
      exact (hgrow b).mpr ⟨others, hothers, rfl⟩

/-- The types of a folder are attached as if each were the only one. -/
theorem attachChildren_ok (levels : Nat) (folder : Path) (members : MemberTable)
    (grown result : Grown) :
    attachChildren corpus (levels + 1) folder members grown = .ok result ↔
      ∃ built, List.Forall₂ (Yields corpus levels folder members grown.1)
          (SourcePair.headersIn corpus.extensions corpus.tree folder) built ∧
        result = attachAll grown built := by
  rw [attachChildren, SourcePair.collect_headers, bind_ok_iff]
  constructor
  · rintro ⟨pairs, hpairs, h⟩
    obtain ⟨built, hbuilt, rfl⟩ := (attachPairs_ok corpus levels folder members grown.1 pairs
      grown result (same_refl grown.1)).mp h
    refine ⟨built, ?_, rfl⟩
    exact (forall₂_comp _ built).mp ⟨pairs, (mapM_ok _ _ pairs).mp hpairs, hbuilt⟩
  · rintro ⟨built, hbuilt, rfl⟩
    obtain ⟨pairs, hpairs, hrest⟩ := (forall₂_comp _ built).mpr hbuilt
    refine ⟨pairs, (mapM_ok _ _ pairs).mpr hpairs, ?_⟩
    exact (attachPairs_ok corpus levels folder members grown.1 pairs grown _
      (same_refl grown.1)).mpr ⟨built, hrest, rfl⟩

theorem yields_derived (levels : Nat) (folder : Path) (members : MemberTable) (node : ClassNode)
    (header : Text) (built : Grown) (h : Yields corpus levels folder members node header built) :
    ∃ pair scanned,
      SourcePair.ofHeader corpus.tree corpus.extensions folder header = .ok pair ∧
        scan corpus pair members node.documented = .ok scanned ∧
        SameButChildren { node.derive (SourcePair.stem header) scanned.documented with
          filePath := some (Path.join folder header) } built.1 := by
  obtain ⟨pair, hpair, scanned, hscanned, hbuilt⟩ := h
  obtain ⟨hname, hpaths⟩ :=
    SourcePair.ofHeader_pair corpus.extensions corpus.tree folder header pair hpair
  obtain ⟨hsame, -⟩ := attachChildren_assembled corpus levels _ _ _ built
    (layer_children _ scanned.documented) hbuilt
  rw [hname, ← (List.cons.inj hpaths).1] at hsame
  exact ⟨pair, scanned, hpair, hscanned, hsame⟩

theorem yields_name (levels : Nat) (folder : Path) (members : MemberTable) (node : ClassNode)
    (header : Text) (built : Grown) (h : Yields corpus levels folder members node header built) :
    built.1.name = SourcePair.stem header := by
  obtain ⟨pair, scanned, -, -, hsame⟩ :=
    yields_derived corpus levels folder members node header built h
  exact (same_name _ built.1 hsame).trans (layer_name _ scanned.documented)

theorem entries_names (levels : Nat) (folder : Path) (members : MemberTable) (node : ClassNode)
    (headers : List Text) (built : List Grown)
    (h : List.Forall₂ (Yields corpus levels folder members node) headers built) :
    (entriesOf built).map Prod.fst = headers.map SourcePair.stem := by
  induction h with
  | nil => rfl
  | cons hfirst _ ih =>
    rw [entriesOf, List.map_cons, ← entriesOf, List.map_cons, ih, List.map_cons,
      yields_name corpus levels folder members node _ _ hfirst]

theorem attachChildren_ordered (levels : Nat) (folder : Path) (members : MemberTable)
    (grown result : Grown) (hgrown : grown.1.Ordered)
    (h : attachChildren corpus levels folder members grown = .ok result) : result.1.Ordered := by
  induction levels generalizing folder members grown result with
  | zero =>
    obtain rfl := Except.ok.inj h
    exact hgrown
  | succ levels ih =>
    obtain ⟨built, hbuilt, rfl⟩ :=
      (attachChildren_ok corpus levels folder members grown result).mp h
    apply attachAll_ordered grown built hgrown
    intro b hb
    obtain ⟨header, -, pair, -, scanned, -, hbelow⟩ := forall₂_mem _ built hbuilt b hb
    exact ih _ _ _ b (childless_ordered _ (layer_children _ scanned.documented)) hbelow

end siblings

theorem build_ordered (settings : Settings) (translations : TranslationTable) (tree : FileTree)
    (category : Category) (hierarchy : Hierarchy) (statistics : Statistics)
    (h : build settings translations tree category = .ok (hierarchy, statistics)) :
    hierarchy.root.Ordered := by
  obtain ⟨base, scanned, root, counted, -, -, hroot, rfl, -⟩ :=
    (build_ok settings translations tree category hierarchy statistics).mp h
  exact attachChildren_ordered _ _ _ _ _ _
    (childless_ordered _ (bareRoot_children base scanned)) hroot

end ParameterManual.Assembly
