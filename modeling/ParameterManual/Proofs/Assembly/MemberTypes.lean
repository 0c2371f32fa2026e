import ParameterManual.Proofs.Assembly.Lineage
import ParameterManual.Proofs.Constructor.Origin

/-!
# Types of bound members

A bound variable has the type of its member, and a member has its type from
the nearest class of the lineage that declares it. What every object has gives
way to any declaration.
-/

set_option autoImplicit false

namespace ParameterManual

namespace MemberTable

theorem scan_sorted (className content : Text) : TextMap.Sorted (scan className content) :=
  TextMap.sorted_insertAll _ [] List.Pairwise.nil

theorem find_layered (own base : MemberTable) (hown : TextMap.Sorted own) (member : Text) :
    TextMap.find? member (own.layeredOver base) =
      (TextMap.find? member own).or (TextMap.find? member base) := by
  rw [layeredOver, TextMap.find?_insertAll, TextMap.lookup_last_sorted own hown]

end MemberTable

namespace Constructor

/-- The last statement that binds a symbol names a member. -/
def LastMember (list : List Placed) (s member : Text) : Prop :=
  ∃ before last after, list = before ++ last :: after ∧ last.statement.bound? = some s ∧
    last.statement.member? = some member ∧ ∀ q ∈ after, q.statement.bound? ≠ some s

variable (scope : Scope) (file content : Text) (own : List Variable)
variable (h : extract scope file content = .ok own)
include h

theorem extract_members_known (p : Placed) (hp : p ∈ statements scope.className file content)
    (s : Text) (hs : p.statement.bound? = some s) :
    ∃ member typeName, p.statement.member? = some member ∧
      TextMap.find? member scope.members = some typeName := by
  obtain ⟨v, hv, -⟩ := bound_binding scope file content own s h p hp hs
  obtain ⟨hmember, htype⟩ := binding_typed scope p v hv
  exact ⟨v.member, v.typeName, hmember, htype⟩

/-- A variable that is bound has the type of the member that the last bind of
its symbol names. -/
theorem extract_members_typed (hkeyed : Keyed scope.inherited) (s : Text)
    (hs : ∃ p ∈ statements scope.className file content, p.statement.bound? = some s) :
    ∃ v ∈ own, v.symbol = s ∧ LastMember (statements scope.className file content) s v.member ∧
      TextMap.find? v.member scope.members = some v.typeName := by
  have hexplained := statements_explained scope hkeyed file content own h
  obtain ⟨v, hv, rfl⟩ := List.mem_map.mp ((hexplained.symbols s).mpr (Or.inl hs))
  obtain ⟨before, last, after, w, hsplit, hlast, hafter, hw, hsame⟩ := hexplained.bound v hv hs
  obtain ⟨hmember, htype⟩ := binding_typed scope last w hw
  have hm : v.member = w.member := by rw [hsame]
  have ht : v.typeName = w.typeName := by rw [hsame]
  rw [← hm] at hmember htype
  rw [← ht] at htype
  exact ⟨v, hv, rfl, ⟨before, last, after, hsplit, hlast, hmember, hafter⟩, htype⟩

end Constructor

namespace Assembly
open ClassNode Constructor

/-- The type that the first of some types to declare a member gives it. -/
def nearestType? (tree : FileTree) (lineage : List SourcePair) (member : Text) : Option Text :=
  lineage.findSome? (fun pair => TextMap.find? member (declaredBy tree pair))

/-- The type of a member in a lineage. Label and type are strings where no
class declares them. -/
def memberType? (tree : FileTree) (lineage : List SourcePair) (member : Text) : Option Text :=
  (nearestType? tree lineage member).or
    (if member = "label_".toList ∨ member = "type_".toList then some "string".toList else none)

theorem declaredBy_sorted (tree : FileTree) (pair : SourcePair) :
    TextMap.Sorted (declaredBy tree pair) := by
  rw [declaredBy]
  split
  · exact MemberTable.scan_sorted _ _
  · exact List.Pairwise.nil

theorem find_framework (member : Text) :
    TextMap.find? member MemberTable.framework =
      if member = "label_".toList ∨ member = "type_".toList then some "string".toList else none := by
  have htable : MemberTable.framework =
      [("label_".toList, "string".toList), ("type_".toList, "string".toList)] := by decide
  rw [htable, TextMap.find?, TextMap.find?, TextMap.find?]
  by_cases hlabel : "label_".toList = member
  · rw [if_pos hlabel, if_pos (Or.inl hlabel.symm)]
  · rw [if_neg hlabel]
    by_cases htype : "type_".toList = member
    · rw [if_pos htype, if_pos (Or.inr htype.symm)]
    · rw [if_neg htype, if_neg (not_or_intro (Ne.symm hlabel) (Ne.symm htype))]

theorem seen_nearest (tree : FileTree) (lineage : List SourcePair) (member : Text) :
    TextMap.find? member (seenMembers tree lineage) = memberType? tree lineage member := by
  induction lineage with
  | nil => exact find_framework member
  | cons pair above ih =>
    rw [seenMembers, MemberTable.find_layered _ _ (declaredBy_sorted tree pair), ih, memberType?,
      memberType?, nearestType?, nearestType?, List.findSome?_cons, ← Option.or_assoc]
    cases TextMap.find? member (declaredBy tree pair) <;> rfl

section resolution
variable (settings : Settings) (translations : TranslationTable) (tree : FileTree)
variable (category : Category)

theorem reached_known (pair : SourcePair) (above : List SourcePair) (levels : Nat)
    (node : ClassNode)
    (h : Reached settings translations tree category pair above levels node) :
    ∃ content, tree.readText pair.source = .ok content ∧
      ∀ p ∈ statements pair.name pair.source content, ∀ s, p.statement.bound? = some s →
        ∃ member typeName, p.statement.member? = some member ∧
          memberType? tree (pair :: above) member = some typeName := by
  obtain ⟨inherited, scanned, -, hscanned, -⟩ := h.read
  obtain ⟨hmembers, content, hcontent, hextract⟩ := scan_ok _ pair _ inherited scanned hscanned
  refine ⟨content, hcontent, ?_⟩
  intro p hp s hs
  obtain ⟨member, typeName, hmember, htype⟩ :=
    extract_members_known _ pair.source content scanned.documented hextract p hp s hs
  refine ⟨member, typeName, hmember, ?_⟩
  rw [← seen_nearest, ← htype, hmembers]
  rfl

/-- The node of a reached type has a variable for every symbol that the
constructor binds, and the variable has the type of its member in the
lineage. -/
theorem reached_typed (pair : SourcePair) (above : List SourcePair) (levels : Nat)
    (node : ClassNode)
    (h : Reached settings translations tree category pair above levels node) :
    ∃ content, tree.readText pair.source = .ok content ∧
      ∀ s, (∃ p ∈ statements pair.name pair.source content, p.statement.bound? = some s) →
        ∃ v, TextMap.find? s node.documented = some v ∧
          LastMember (statements pair.name pair.source content) s v.member ∧
          memberType? tree (pair :: above) v.member = some v.typeName := by
  obtain ⟨inherited, scanned, hkeyed, hscanned, hdeclares⟩ := h.read
  obtain ⟨hmembers, content, hcontent, hextract⟩ := scan_ok _ pair _ inherited scanned hscanned
  refine ⟨content, hcontent, ?_⟩
  intro s hs
  obtain ⟨v, hv, rfl, hlast, htype⟩ :=
    extract_members_typed _ pair.source content scanned.documented hextract hkeyed s hs
  refine ⟨v, hdeclares.found v hv, hlast, ?_⟩
  rw [← seen_nearest, ← htype, hmembers]
  rfl

end resolution

theorem levels_two (category : Category) : levels category ≤ 2 := by
  obtain ⟨n, hn, hlevels⟩ := levels_bound category
  omega

/-- In a build that succeeds, every constructor of a type with its lineage of
at most three types binds members only that the lineage knows. Every node is
that of such a type, and what the constructor binds has the type that the
nearest class of the lineage gives the member. -/
theorem members_typed (settings : Settings) (translations : TranslationTable) (tree : FileTree)
    (category : Category) (hierarchy : Hierarchy) (statistics : Statistics)
    (h : build settings translations tree category = .ok (hierarchy, statistics)) :
    (∀ pair above, Lineage settings tree category (pair :: above) →
      above.length ≤ 2 ∧ ∃ content, tree.readText pair.source = .ok content ∧
        ∀ p ∈ statements pair.name pair.source content, ∀ s, p.statement.bound? = some s →
          ∃ member typeName, p.statement.member? = some member ∧
            memberType? tree (pair :: above) member = some typeName) ∧
    ∀ node ancestors, Ancestry hierarchy.root (node :: ancestors) →
      ∃ pair above content, Lineage settings tree category (pair :: above) ∧
        List.Forall₂ ReadFrom (node :: ancestors) (pair :: above) ∧
        tree.readText pair.source = .ok content ∧
        ∀ s, (∃ p ∈ statements pair.name pair.source content, p.statement.bound? = some s) →
          ∃ v, TextMap.find? s node.documented = some v ∧
            LastMember (statements pair.name pair.source content) s v.member ∧
            memberType? tree (pair :: above) v.member = some v.typeName := by
  constructor
  · intro pair above hlineage
    obtain ⟨_, _, n, node, heq, hlength, hreached⟩ := lineage_reached settings translations tree
      category hierarchy statistics h _ hlineage
    obtain ⟨rfl, rfl⟩ := List.cons.inj heq
    have hlevels := levels_two category
    exact ⟨by omega, reached_known settings translations tree category pair above n node hreached⟩
  · intro node ancestors hnodes
    obtain ⟨_, _, pair, above, n, heq, hlineage, hread, -, hreached⟩ := ancestry_lineage settings
      translations tree category hierarchy statistics h _ hnodes
    obtain ⟨rfl, rfl⟩ := List.cons.inj heq
    obtain ⟨content, hcontent, htyped⟩ :=
      reached_typed settings translations tree category pair above n node hreached
    exact ⟨pair, above, content, hlineage, hread, hcontent, htyped⟩

def shadowedTree : FileTree :=
  ⟨.folder [("source".toList, .folder [
    ("Processes".toList, .folder [
      ("Children".toList, .folder [
        ("Growth".toList, .folder [
          ("Linear.cpp".toList, .file (.text ("Linear::Linear() \x7b\n" ++
            "  parameters_.Bind<unsigned>(PARAM_RATE, &rate_, \"Rate\", \"\");\n" ++
            "  parameters_.Bind<string>(PARAM_LABEL, &label_, \"Its label\", \"\");\n" ++
            "\x7d\n").toList)),
          ("Linear.h".toList, .file (.text "class Linear \x7b\n\x7d;\n".toList))]),
        ("Growth.cpp".toList, .file (.text "Growth::Growth() \x7b\n\x7d\n".toList)),
        ("Growth.h".toList, .file (.text
          "class Growth \x7b\n  unsigned rate_;\n\x7d;\n".toList)),
        ("Other.cpp".toList, .file (.text "Other::Other() \x7b\n\x7d\n".toList)),
        ("Other.h".toList, .file (.text "class Other \x7b\n  string rate_;\n\x7d;\n".toList))]),
      ("Process.cpp".toList, .file (.text "Process::Process() \x7b\n\x7d\n".toList)),
      ("Process.h".toList, .file (.text "class Process \x7b\n  Double rate_;\n\x7d;\n".toList))
      ])])], []⟩

theorem members_typed_shadowed :
    ∃ hierarchy statistics parent node,
      build Settings.standard labelTable shadowedTree (Category.ofFolder "Processes".toList) =
        .ok (hierarchy, statistics) ∧
      Ancestry hierarchy.root [node, parent, hierarchy.root] ∧
      (TextMap.find? "PARAM_RATE".toList node.documented).map Variable.typeName =
        some "unsigned".toList ∧
      (TextMap.find? Variable.labelSymbol node.documented).map Variable.typeName =
        some "string".toList ∧
      ∃ pair above content,
        Lineage Settings.standard shadowedTree (Category.ofFolder "Processes".toList)
          (pair :: above) ∧
        List.Forall₂ ReadFrom [node, parent, hierarchy.root] (pair :: above) ∧
        shadowedTree.readText pair.source = .ok content ∧
        ∀ s, (∃ p ∈ statements pair.name pair.source content, p.statement.bound? = some s) →
          ∃ v, TextMap.find? s node.documented = some v ∧
            LastMember (statements pair.name pair.source content) s v.member ∧
            memberType? shadowedTree (pair :: above) v.member = some v.typeName := by
  let types (node : ClassNode) : List (Option Text) :=
    ["PARAM_RATE".toList, Variable.labelSymbol].map (fun s =>
      (TextMap.find? s node.documented).map Variable.typeName)
  obtain ⟨⟨hierarchy, statistics⟩, h, hmeasured⟩ :=
    ok_measured (fun b => b.1.root.children.flatMap (fun e => e.2.children.map (fun d => types d.2)))
      [[some "unsigned".toList, some "string".toList]]
      (by decide +kernel : ((build Settings.standard labelTable shadowedTree
        (Category.ofFolder "Processes".toList)).map _).toOption = _)
  have hone : [some "unsigned".toList, some "string".toList] ∈
      hierarchy.root.children.flatMap (fun e => e.2.children.map (fun d => types d.2)) := by
    rw [hmeasured]
    exact List.mem_singleton_self _
  obtain ⟨e, he, hbelow⟩ := List.mem_flatMap.mp hone
  obtain ⟨d, hd, htypes⟩ := List.mem_map.mp hbelow
  obtain ⟨hrate, hlabel⟩ := List.cons.inj htypes
  have hnodes : Ancestry hierarchy.root [d.2, e.2, hierarchy.root] :=
    .child e.2 _ d (.child hierarchy.root [] e .root he) hd
  obtain ⟨-, htyped⟩ := members_typed Settings.standard labelTable shadowedTree _ hierarchy
    statistics h
  exact ⟨hierarchy, statistics, e.2, d.2, h, hnodes, hrate, (List.cons.inj hlabel).1,
    htyped d.2 _ hnodes⟩

end Assembly

end ParameterManual
