import ParameterManual.Assembly
import ParameterManual.Proofs.ClassNode
import ParameterManual.Proofs.ClassNode.Inheritance
import ParameterManual.Proofs.Files.SourcePair

/-!
# Inheritance in a build

A build derives each subtype from its parent as it is, whatever has been
attached to the parent before. So each node of the tree stands to its
children as the derivation says, down to the lowest level.
-/

set_option autoImplicit false

namespace ParameterManual.Assembly
open ClassNode

/-- What a node has under the name of a pair: the subtype that the files of
the pair describe, with subtypes of its own. -/
structure Attached (corpus : Corpus) (folder : Path) (members : MemberTable) (node : ClassNode)
    (pair : SourcePair) (scanned : Scanned) (e : Text × ClassNode) : Prop where
  found : ∃ header, SourcePair.ofHeader corpus.tree corpus.extensions folder header = .ok pair
  read : scan corpus pair members node.documented = .ok scanned
  derived : e = (pair.name, { node.derive pair.name scanned.documented with
    filePath := some pair.header, children := e.2.children })

/-- A node with the subtypes that the pairs of a folder describe, to a number
of levels down. -/
def Assembled (corpus : Corpus) : (levels : Nat) → Path → MemberTable → ClassNode → Prop
  | 0, _, _, node => node.children = []
  | levels + 1, folder, members, node => ∀ e ∈ node.children, ∃ pair scanned,
      Attached corpus folder members node pair scanned e ∧
        Assembled corpus levels (Path.join folder pair.name) scanned.members e.2

def SameButChildren (before after : ClassNode) : Prop :=
  after = { before with children := after.children }

theorem same_refl (node : ClassNode) : SameButChildren node node := by
  cases node
  rfl

theorem same_name (before after : ClassNode) (h : SameButChildren before after) :
    after.name = before.name := by
  rw [h]

theorem same_symm (before after : ClassNode) (h : SameButChildren before after) :
    SameButChildren after before := by
  cases before
  rw [SameButChildren, h]

theorem same_trans (first second third : ClassNode) (h : SameButChildren first second)
    (h' : SameButChildren second third) : SameButChildren first third := by
  rw [SameButChildren] at h h' ⊢
  rw [h'] at *
  rw [h]

theorem same_withChild (node child : ClassNode) : SameButChildren node (node.withChild child) := rfl

theorem derive_same (before after : ClassNode) (name : Text) (own : List Variable)
    (h : SameButChildren before after) : after.derive name own = before.derive name own := by
  rw [h]
  rfl

section growth
variable (corpus : Corpus)

theorem attached_same (folder : Path) (members : MemberTable) (before after : ClassNode)
    (pair : SourcePair) (scanned : Scanned) (e : Text × ClassNode)
    (hsame : SameButChildren before after)
    (h : Attached corpus folder members before pair scanned e) :
    Attached corpus folder members after pair scanned e := by
  have hdocumented : after.documented = before.documented := by rw [hsame]
  constructor
  · exact h.found
  · rw [hdocumented]
    exact h.read
  · rw [derive_same before after _ _ hsame]
    exact h.derived

theorem attachPair_assembled (levels : Nat)
    (below : Path → MemberTable → Grown → Except Failure Grown)
    (hbelow : ∀ folder members grown result, grown.1.children = [] →
      below folder members grown = .ok result →
        SameButChildren grown.1 result.1 ∧ Assembled corpus levels folder members result.1)
    (folder : Path) (members : MemberTable) (grown result : Grown) (pair : SourcePair)
    (hpair : ∃ header, SourcePair.ofHeader corpus.tree corpus.extensions folder header = .ok pair)
    (hg : Assembled corpus (levels + 1) folder members grown.1)
    (h : attachPair corpus below folder members grown pair = .ok result) :
    SameButChildren grown.1 result.1 ∧ Assembled corpus (levels + 1) folder members result.1 := by
  obtain ⟨scanned, hscanned, h⟩ := bind_ok h
  obtain ⟨⟨child, statistics⟩, hchild, h⟩ := bind_ok h
  obtain rfl := Except.ok.inj h
  have hempty : (grown.1.derive pair.name scanned.documented).children = [] :=
    layer_children _ scanned.documented
  obtain ⟨hsame, hassembled⟩ := hbelow _ _ _ _ hempty hchild
  have hname : child.name = pair.name :=
    (same_name _ child hsame).trans (layer_name _ scanned.documented)
  refine ⟨same_withChild grown.1 child, ?_⟩
  intro e he
  have hgrow := same_withChild grown.1 child
  rcases TextMap.mem_insert child.name child grown.1.children e he with rfl | he
  · refine ⟨pair, scanned, ?_, hassembled⟩
    apply attached_same corpus folder members grown.1 _ pair scanned _ hgrow
    exact ⟨hpair, hscanned, Prod.ext hname hsame⟩
  · obtain ⟨older, own, hattached, hrest⟩ := hg e he
    exact ⟨older, own, attached_same corpus folder members grown.1 _ older own e hgrow hattached,
      hrest⟩

/-- However many pairs a folder has, and whatever lies in the folders below,
the node they are attached to keeps its own variables. -/
theorem attachChildren_assembled (levels : Nat) (folder : Path) (members : MemberTable)
    (grown result : Grown) (hempty : grown.1.children = [])
    (h : attachChildren corpus levels folder members grown = .ok result) :
    SameButChildren grown.1 result.1 ∧ Assembled corpus levels folder members result.1 := by
  induction levels generalizing folder members grown result with
  | zero =>
    obtain rfl := Except.ok.inj h
    exact ⟨same_refl grown.1, hempty⟩
  | succ levels ih =>
    obtain ⟨pairs, hpairs, h⟩ := bind_ok h
    have hstart : Assembled corpus (levels + 1) folder members grown.1 := by
      intro e he
      rw [hempty] at he
      cases he
    apply foldlM_kept _ (fun g : Grown => SameButChildren grown.1 g.1 ∧
      Assembled corpus (levels + 1) folder members g.1) pairs _ grown result
      ⟨same_refl grown.1, hstart⟩ h
    intro pair hpair before after hbefore hstep
    obtain ⟨headers, -, header, -, hfound⟩ :=
      SourcePair.mem_collect corpus.extensions corpus.tree folder pairs pair hpairs hpair
    obtain ⟨hsame, hassembled⟩ := attachPair_assembled corpus levels (attachChildren corpus levels)
      ih folder members before after pair ⟨header, hfound⟩ hbefore.2 hstep
    exact ⟨same_trans grown.1 before.1 after.1 hbefore.1 hsame, hassembled⟩

/-- What the constructor of a type documents: the pair of the type's files
bears its name, and its definition is read with what the type inherits. -/
def OwnVariables (corpus : Corpus) (inherited : TextMap Variable) (node : ClassNode)
    (own : List Variable) : Prop :=
  ∃ folder header pair members text,
    SourcePair.ofHeader corpus.tree corpus.extensions folder header = .ok pair ∧
      node.name = pair.name ∧ node.filePath = some pair.header ∧
      corpus.tree.readText pair.source = .ok text ∧
      Constructor.extract ⟨node.name, corpus.translations, members, inherited⟩ pair.source text =
        .ok own

theorem scan_own (folder header : Path) (pair : SourcePair) (members : MemberTable)
    (inherited : TextMap Variable) (scanned : Scanned) (node : ClassNode)
    (hfound : SourcePair.ofHeader corpus.tree corpus.extensions folder header = .ok pair)
    (hname : node.name = pair.name) (hfile : node.filePath = some pair.header)
    (h : scan corpus pair members inherited = .ok scanned) :
    OwnVariables corpus inherited node scanned.documented := by
  obtain ⟨text, -, h⟩ := bind_ok h
  obtain ⟨definition, hdefinition, h⟩ := bind_ok h
  obtain ⟨own, hown, h⟩ := bind_ok h
  obtain rfl := Except.ok.inj h
  rw [← hname] at hown
  exact ⟨folder, header, pair, _, definition, hfound, hname, hfile, hdefinition, hown⟩

theorem own_distinct (inherited : TextMap Variable) (node : ClassNode) (own : List Variable)
    (hkeyed : Keyed inherited) (h : OwnVariables corpus inherited node own) :
    DistinctSymbols own := by
  obtain ⟨folder, header, pair, members, text, -, -, -, -, hown⟩ := h
  exact Constructor.extract_distinct ⟨node.name, corpus.translations, members, inherited⟩ hkeyed
    pair.source text own hown

theorem attached_inherits (folder : Path) (members : MemberTable) (node : ClassNode)
    (pair : SourcePair) (scanned : Scanned) (e : Text × ClassNode) (hkeyed : Keyed node.documented)
    (h : Attached corpus folder members node pair scanned e) :
    e.1 = e.2.name ∧ OwnVariables corpus node.documented e.2 scanned.documented ∧
      Inherits node e.2 scanned.documented := by
  obtain ⟨header, hfound⟩ := h.found
  have hkey : e.1 = pair.name := congrArg Prod.fst h.derived
  have hnode := congrArg Prod.snd h.derived
  have hname : e.2.name = pair.name := by
    rw [hnode]
    exact layer_name _ scanned.documented
  have hfile : e.2.filePath = some pair.header := by rw [hnode]
  have hown := scan_own corpus folder header pair members node.documented scanned e.2
    hfound hname hfile h.read
  have hdistinct := own_distinct corpus node.documented e.2 scanned.documented hkeyed
    hown
  refine ⟨hkey.trans hname.symm, hown, ?_⟩
  rw [hnode]
  exact inherits_placed node _ scanned.documented _ _
    (derive_inherits node pair.name scanned.documented hkeyed hdistinct)

/-- Every node of an assembled tree is assembled, and has its variables under
their symbols. -/
theorem contains_assembled (levels : Nat) (folder : Path) (members : MemberTable)
    (root node : ClassNode) (hroot : Keyed root.documented)
    (h : Assembled corpus levels folder members root) (hnode : root.Contains node) :
    Keyed node.documented ∧
      ∃ levels folder members, Assembled corpus levels folder members node := by
  induction hnode with
  | root => exact ⟨hroot, levels, folder, members, h⟩
  | child node e hnode he ih =>
    obtain ⟨hkeyed, levels, folder, members, hassembled⟩ := ih
    cases levels with
    | zero =>
      rw [Assembled] at hassembled
      rw [hassembled] at he
      cases he
    | succ levels =>
      obtain ⟨pair, scanned, hattached, hbelow⟩ := hassembled e he
      obtain ⟨-, -, hinherits⟩ :=
        attached_inherits corpus folder members node pair scanned e hkeyed hattached
      exact ⟨hinherits.keyed, levels, _, _, hbelow⟩

theorem contains_inherits (levels : Nat) (folder : Path) (members : MemberTable)
    (root node : ClassNode) (hroot : Keyed root.documented)
    (h : Assembled corpus levels folder members root) (hnode : root.Contains node) :
    ∀ e ∈ node.children, e.1 = e.2.name ∧
      ∃ own, OwnVariables corpus node.documented e.2 own ∧ Inherits node e.2 own := by
  intro e he
  obtain ⟨hkeyed, levels, folder, members, hassembled⟩ :=
    contains_assembled corpus levels folder members root node hroot h hnode
  cases levels with
  | zero =>
    rw [Assembled] at hassembled
    rw [hassembled] at he
    cases he
  | succ levels =>
    obtain ⟨pair, scanned, hattached, -⟩ := hassembled e he
    obtain ⟨hkey, hown, hinherits⟩ :=
      attached_inherits corpus folder members node pair scanned e hkeyed hattached
    exact ⟨hkey, scanned.documented, hown, hinherits⟩

end growth

theorem seed_keyed : Keyed seed := by
  intro e he
  rcases TextMap.mem_insert _ _ _ e he with rfl | he
  · rfl
  · rcases TextMap.mem_insert _ _ _ e he with rfl | he
    · rfl
    · cases he

/-- A tree in which every node stands to its parent as a subtype does, and
the root documents label and type before its own variables. -/
structure Inherited (corpus : Corpus) (root : ClassNode) : Prop where
  top : ∃ own, OwnVariables corpus seed root own ∧
    root.order = [Variable.labelSymbol, Variable.typeSymbol] ++ (own.map Variable.symbol).filter
      (fun s => s ≠ Variable.labelSymbol ∧ s ≠ Variable.typeSymbol)
  keyed : ∀ node, root.Contains node → Keyed node.documented
  below : ∀ node, root.Contains node → ∀ e ∈ node.children, e.1 = e.2.name ∧
    ∃ own, OwnVariables corpus node.documented e.2 own ∧ Inherits node e.2 own

theorem root_order (name : Text) (own : List Variable) (hown : DistinctSymbols own) :
    (ClassNode.root name Variable.label Variable.type own).order =
      [Variable.labelSymbol, Variable.typeSymbol] ++ (own.map Variable.symbol).filter
        (fun s => s ≠ Variable.labelSymbol ∧ s ≠ Variable.typeSymbol) := by
  rw [ClassNode.root, layer_order _ own hown]
  congr 1
  apply List.filter_congr
  intro s _
  change (!([Variable.labelSymbol, Variable.typeSymbol] : List Text).contains s) = _
  simp

theorem build_root (settings : Settings) (translations : TranslationTable) (tree : FileTree)
    (category : Category) (hierarchy : Hierarchy) (statistics : Statistics)
    (h : build settings translations tree category = .ok (hierarchy, statistics)) :
    ∃ base scanned,
      SourcePair.findBase tree ⟨settings.headerExtension, settings.sourceExtension⟩
        (Path.join settings.sourceRoot category.folder) category.folder category.base = .ok base ∧
      scan (corpus settings translations tree) base MemberTable.framework seed = .ok scanned ∧
      SameButChildren
        { ClassNode.root base.name Variable.label Variable.type scanned.documented with
          filePath := some base.header } hierarchy.root ∧
      Assembled (corpus settings translations tree) (levels category)
        (Path.join (Path.join settings.sourceRoot category.folder) settings.childrenFolder)
        scanned.members hierarchy.root := by
  obtain ⟨base, hbase, h⟩ := bind_ok h
  obtain ⟨scanned, hscanned, h⟩ := bind_ok h
  obtain ⟨⟨root, counted⟩, hroot, h⟩ := bind_ok h
  obtain ⟨rfl, -⟩ := Prod.mk.inj (Except.ok.inj h)
  obtain ⟨hsame, hassembled⟩ := attachChildren_assembled (corpus settings translations tree)
    (levels category) _ _ _ _ (layer_children _ scanned.documented) hroot
  exact ⟨base, scanned, hbase, hscanned, hsame, hassembled⟩

theorem root_name (base : SourcePair) (own : List Variable) (root : ClassNode)
    (h : SameButChildren { ClassNode.root base.name Variable.label Variable.type own with
      filePath := some base.header } root) : root.name = base.name :=
  (same_name _ root h).trans (layer_name _ own)

/-- Whatever the files hold, a tree that is built for a category inherits from
its root down. -/
theorem build_inherits (settings : Settings) (translations : TranslationTable) (tree : FileTree)
    (category : Category) (hierarchy : Hierarchy) (statistics : Statistics)
    (h : build settings translations tree category = .ok (hierarchy, statistics)) :
    Inherited (corpus settings translations tree) hierarchy.root := by
  obtain ⟨base, scanned, hbase, hscanned, hsame, hassembled⟩ :=
    build_root settings translations tree category hierarchy statistics h
  obtain ⟨header, -, hfound⟩ := SourcePair.findBase_pair _ tree _ category.folder category.base
    base hbase
  have hname := root_name base scanned.documented hierarchy.root hsame
  have hfile : hierarchy.root.filePath = some base.header := by rw [hsame]
  have hown := scan_own (corpus settings translations tree) _ header base MemberTable.framework seed
    scanned hierarchy.root hfound hname hfile hscanned
  have hdistinct := own_distinct (corpus settings translations tree) seed hierarchy.root
    scanned.documented seed_keyed hown
  have hkeyed : Keyed hierarchy.root.documented := by
    rw [hsame]
    exact layer_keyed _ scanned.documented seed_keyed
  constructor
  · refine ⟨scanned.documented, hown, ?_⟩
    rw [hsame]
    exact root_order base.name scanned.documented hdistinct
  · intro node hnode
    exact (contains_assembled _ _ _ _ hierarchy.root node hkeyed hassembled hnode).1
  · intro node hnode
    exact contains_inherits _ _ _ _ hierarchy.root node hkeyed hassembled hnode

def layeredTree : FileTree :=
  ⟨.folder [("source".toList, .folder [
    ("Processes".toList, .folder [
      ("Children".toList, .folder [
        ("Growth".toList, .folder [
          ("Linear.cpp".toList, .file (.text ("Linear::Linear() \x7b\n" ++
            "  RegisterAsAddressable(PARAM_RATE, &rate_);\n\x7d\n").toList)),
          ("Linear.h".toList, .file (.text "class Linear \x7b\n\x7d;\n".toList))]),
        ("Growth.cpp".toList, .file (.text ("Growth::Growth() \x7b\n" ++
          "  parameters_.Bind<string>(PARAM_LABEL, &label_, \"Its label\", \"\");\n" ++
          "\x7d\n").toList)),
        ("Growth.h".toList, .file (.text "class Growth \x7b\n\x7d;\n".toList))]),
      ("Process.cpp".toList, .file (.text ("Process::Process() \x7b\n" ++
        "  parameters_.Bind<Double>(PARAM_RATE, &rate_, \"Rate\", \"\");\n\x7d\n").toList)),
      ("Process.h".toList, .file (.text "class Process \x7b\n  Double rate_;\n\x7d;\n".toList))
      ])])], []⟩

def labelTable : TranslationTable :=
  ((TranslationTable.withPrefix "PARAM".toList).insert Variable.labelSymbol "label".toList).insert
    "PARAM_RATE".toList "rate".toList

theorem build_inherits_layered :
    ∃ hierarchy statistics,
      build Settings.standard labelTable layeredTree (Category.ofFolder "Processes".toList) =
        .ok (hierarchy, statistics) ∧
      hierarchy.root.typeCount = 3 ∧
      Inherited (corpus Settings.standard labelTable layeredTree) hierarchy.root := by
  have htypes : ((build Settings.standard labelTable layeredTree
      (Category.ofFolder "Processes".toList)).map (fun b => b.1.root.typeCount)).toOption =
        some 3 := by
    decide +kernel
  cases h : build Settings.standard labelTable layeredTree
      (Category.ofFolder "Processes".toList) with
  | error f =>
    rw [h] at htypes
    cases htypes
  | ok built =>
    rw [h] at htypes
    exact ⟨built.1, built.2, rfl, Option.some.inj htypes,
      build_inherits Settings.standard labelTable layeredTree _ built.1 built.2 h⟩

end ParameterManual.Assembly
