import ParameterManual.Proofs.Assembly.Counting
import ParameterManual.Proofs.Assembly.Inheritance
import ParameterManual.Proofs.ClassNode.Declared
import ParameterManual.Proofs.Manual.Shown

/-!
# Bound parameters in the manual

Every node of a built tree declares what its constructor documents, and the
constructor has an entry for every symbol that one of its statements binds. So
a shown type has an entry in its section for each bound symbol, unless the
display text of the symbol is empty.
-/

set_option autoImplicit false

namespace ParameterManual.Assembly
open ClassNode Constructor Manual

theorem root_declares (name : Text) (own : List Variable) (hown : DistinctSymbols own) :
    Declares (ClassNode.root name Variable.label Variable.type own) own where
  distinct := hown
  keyed := layer_keyed _ own seed_keyed
  once := by
    rw [root_order name own hown, List.nodup_append]
    refine ⟨by decide, hown.filter _, ?_⟩
    rintro s hs t ht rfl
    have hother : s ≠ Variable.labelSymbol ∧ s ≠ Variable.typeSymbol := by
      simpa using List.of_mem_filter ht
    rcases List.mem_cons.mp hs with rfl | hs
    · exact hother.1 rfl
    · exact hother.2 (List.mem_singleton.mp hs)
  listed := by
    intro v hv
    rw [root_order name own hown, List.mem_append]
    by_cases hs : v.symbol ≠ Variable.labelSymbol ∧ v.symbol ≠ Variable.typeSymbol
    · exact Or.inr (List.mem_filter.mpr ⟨List.mem_map_of_mem hv, by simpa using hs⟩)
    · left
      rw [Classical.not_and_iff_not_or_not, not_not, not_not] at hs
      rcases hs with hs | hs <;> simp [hs]
  found := fun v hv => layer_own _ own hown v hv

theorem declares_same (before after : ClassNode) (own : List Variable) (filePath : Option Text)
    (hsame : SameButChildren { before with filePath := filePath } after)
    (h : Declares before own) : Declares after own := by
  rw [hsame]
  exact { h with }

theorem build_top (settings : Settings) (translations : TranslationTable) (tree : FileTree)
    (category : Category) (hierarchy : Hierarchy) (statistics : Statistics)
    (h : build settings translations tree category = .ok (hierarchy, statistics)) :
    ∃ levels folder members own,
      OwnVariables (corpus settings translations tree) seed hierarchy.root own ∧
        Declares hierarchy.root own ∧
        Assembled (corpus settings translations tree) levels folder members hierarchy.root := by
  obtain ⟨base, scanned, hbase, hscanned, hsame, hassembled⟩ :=
    build_root settings translations tree category hierarchy statistics h
  obtain ⟨header, -, hfound⟩ := SourcePair.findBase_pair _ tree _ category.folder category.base
    base hbase
  have hname := root_name base scanned.documented hierarchy.root hsame
  have hfile : hierarchy.root.filePath = some base.header := by rw [hsame]
  have hown := scan_own (corpus settings translations tree) _ header base MemberTable.framework seed
    scanned hierarchy.root hfound hname hfile hscanned
  have hdistinct := own_distinct (corpus settings translations tree) seed hierarchy.root
    scanned.documented seed_keyed hown
  exact ⟨_, _, _, scanned.documented, hown,
    declares_same _ _ _ _ hsame (root_declares base.name scanned.documented hdistinct), hassembled⟩

theorem build_declares (settings : Settings) (translations : TranslationTable) (tree : FileTree)
    (category : Category) (hierarchy : Hierarchy) (statistics : Statistics) (node : ClassNode)
    (h : build settings translations tree category = .ok (hierarchy, statistics))
    (hnode : hierarchy.root.Contains node) :
    ∃ inherited own, Keyed inherited ∧
      OwnVariables (corpus settings translations tree) inherited node own ∧ Declares node own := by
  obtain ⟨levels, folder, members, own, hown, hdeclares, hassembled⟩ :=
    build_top settings translations tree category hierarchy statistics h
  cases hnode with
  | root => exact ⟨seed, own, seed_keyed, hown, hdeclares⟩
  | child parent e hparent he =>
    have hkeyed := (contains_assembled _ levels folder members hierarchy.root parent
      hdeclares.keyed hassembled hparent).1
    obtain ⟨-, own, hown, hinherits⟩ := contains_inherits _ levels folder members hierarchy.root
      parent hdeclares.keyed hassembled hparent e he
    have hdistinct := own_distinct _ parent.documented e.2 own hkeyed hown
    exact ⟨parent.documented, own, hkeyed, hown,
      inherits_declares parent e.2 own hdistinct hinherits⟩

theorem bound_rendered (scope : Scope) (file content : Text) (own : List Variable)
    (node : ClassNode) (hkeyed : Keyed scope.inherited)
    (h : extract scope file content = .ok own) (hnode : Declares node own) (s : Text)
    (hs : ∃ p ∈ statements scope.className file content, p.statement.bound? = some s) :
    ∃ name, scope.translations.get? s = some name ∧
      (node.rendered.filter (fun v => v.symbol = s)).map Variable.name =
        if name = [] then [] else [name] := by
  obtain ⟨-, -, after, v, -, -, -, -, hnamed, hentry⟩ :=
    bound_entry scope s hkeyed file content own h hs
  generalize after.any (Placed.estimates scope.translations s) = estimable at hentry
  generalize after.any (Placed.addresses scope.translations s) = addressable at hentry
  have hsymbol : (v.flagged estimable addressable).symbol = s := hnamed.symbol
  have hmem : v.flagged estimable addressable ∈ own := by
    rw [mem_entry own _ hnode.distinct, hsymbol]
    exact hentry
  have hrendered := declared_rendered node own hnode _ hmem
  rw [hsymbol] at hrendered
  refine ⟨v.name, hnamed.name, ?_⟩
  rw [hrendered]
  by_cases hname : v.name = []
  · simp [Variable.isRendered, Variable.flagged, hname]
  · simp [Variable.isRendered, Variable.flagged, hname]

/-- The file that defines the constructor of a node, and what it holds. -/
def DefinedIn (corpus : Corpus) (node : ClassNode) (file : Path) (content : Text) : Prop :=
  ∃ folder header pair, SourcePair.ofHeader corpus.tree corpus.extensions folder header = .ok pair ∧
    node.name = pair.name ∧ node.filePath = some pair.header ∧ file = pair.source ∧
      corpus.tree.readText file = .ok content

/-- A shown type of a build has a section of its own, and the section has one
entry for each symbol that the constructor of the type binds, or none if the
display text of the symbol is empty. -/
theorem bound_documented (settings : Settings) (translations : TranslationTable) (tree : FileTree)
    (category : Category) (hierarchy : Hierarchy) (statistics : Statistics) (node : ClassNode)
    (h : build settings translations tree category = .ok (hierarchy, statistics))
    (hnode : Shown category hierarchy.root node) :
    (∀ style, render style category hierarchy =
        (parts category hierarchy).flatMap (Part.text style)) ∧
      OwnSection (parts category hierarchy) node ∧
      ∃ file content, DefinedIn (corpus settings translations tree) node file content ∧
        ∀ s, (∃ p ∈ statements node.name file content, p.statement.bound? = some s) →
          ∃ name, translations.get? s = some name ∧
            (node.rendered.filter (fun v => v.symbol = s)).map Variable.name =
              if name = [] then [] else [name] := by
  obtain ⟨inherited, own, hkeyed, hown, hdeclares⟩ := build_declares settings translations tree
    category hierarchy statistics node h (shown_contains category hierarchy.root node hnode)
  obtain ⟨folder, header, pair, members, content, hfound, hname, hfile, hread, hextract⟩ := hown
  refine ⟨fun style => render_parts style category hierarchy,
    shown_section category hierarchy node hnode, pair.source, content,
    ⟨folder, header, pair, hfound, hname, hfile, rfl, hread⟩, ?_⟩
  intro s hs
  exact bound_rendered ⟨node.name, translations, members, inherited⟩ pair.source content own node
    hkeyed hextract hdeclares s hs

/-- A subtype of three levels binds label again, and the section has an entry
for it there. -/
theorem bound_documented_layered :
    ∃ hierarchy statistics node,
      build Settings.standard labelTable layeredTree (Category.ofFolder "Processes".toList) =
        .ok (hierarchy, statistics) ∧
      Shown (Category.ofFolder "Processes".toList) hierarchy.root node ∧
      node.name = "Growth".toList ∧
      (∀ style, render style (Category.ofFolder "Processes".toList) hierarchy =
        (parts (Category.ofFolder "Processes".toList) hierarchy).flatMap (Part.text style)) ∧
      OwnSection (parts (Category.ofFolder "Processes".toList) hierarchy) node ∧
      ∃ file content,
        DefinedIn (corpus Settings.standard labelTable layeredTree) node file content ∧
        ∀ s, (∃ p ∈ statements node.name file content, p.statement.bound? = some s) →
          ∃ name, labelTable.get? s = some name ∧
            (node.rendered.filter (fun v => v.symbol = s)).map Variable.name =
              if name = [] then [] else [name] := by
  have hchildren : ((build Settings.standard labelTable layeredTree
      (Category.ofFolder "Processes".toList)).map
        (fun b => b.1.root.children.map (fun e => e.2.name))).toOption =
          some ["Growth".toList] := by
    decide +kernel
  obtain ⟨⟨hierarchy, statistics⟩, h, hnames⟩ := ok_measured _ _ hchildren
  have hgrowth : "Growth".toList ∈ hierarchy.root.children.map (fun e => e.2.name) := by
    rw [hnames]
    simp
  obtain ⟨e, he, hname⟩ := List.mem_map.mp hgrowth
  have hshown : Shown (Category.ofFolder "Processes".toList) hierarchy.root e.2 :=
    .child _ e .root he rfl
  exact ⟨hierarchy, statistics, e.2, h, hshown, hname,
    bound_documented Settings.standard labelTable layeredTree _ hierarchy statistics e.2 h hshown⟩

def emptyTable : TranslationTable :=
  TranslationTable.ofText "#define PARAM_STEP \"\"\n".toList "PARAM".toList

def stepFile : Path := "source/MCMC/Children/IndependenceMetropolis.cpp".toList

/-- The constructor of a shown type binds a symbol with an empty text, and the
section of the type has no entry for it. -/
theorem empty_left_out :
    ∃ hierarchy statistics node,
      build Settings.standard emptyTable (chainTree stepBody)
          { chainCategory with suppressed := [] } = .ok (hierarchy, statistics) ∧
        Shown { chainCategory with suppressed := [] } hierarchy.root node ∧
        OwnSection (parts { chainCategory with suppressed := [] } hierarchy) node ∧
        (((chainTree stepBody).readText stepFile).map (fun content =>
          (statements node.name stepFile content).map (fun p => p.statement.bound?))).toOption =
            some [some "PARAM_STEP".toList] ∧
        node.rendered = [] := by
  have hchildren : ((build Settings.standard emptyTable (chainTree stepBody)
      { chainCategory with suppressed := [] }).map
        (fun b => b.1.root.children.map (fun e => (e.2.name, e.2.rendered)))).toOption =
          some [("IndependenceMetropolis".toList, [])] := by
    decide +kernel
  obtain ⟨⟨hierarchy, statistics⟩, h, hnodes⟩ := ok_measured _ _ hchildren
  have hone : ("IndependenceMetropolis".toList, []) ∈
      hierarchy.root.children.map (fun e => (e.2.name, e.2.rendered)) := by
    rw [hnodes]
    simp
  obtain ⟨e, he, hnode⟩ := List.mem_map.mp hone
  obtain ⟨hname, hrendered⟩ := Prod.mk.inj hnode
  have hshown : Shown { chainCategory with suppressed := [] } hierarchy.root e.2 :=
    .child _ e .root he rfl
  refine ⟨hierarchy, statistics, e.2, h, hshown, shown_section _ hierarchy e.2 hshown, ?_,
    hrendered⟩
  rw [hname]
  decide +kernel

end ParameterManual.Assembly
