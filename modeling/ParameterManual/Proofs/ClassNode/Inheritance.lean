import ParameterManual.Proofs.ClassNode.Tree
import ParameterManual.Proofs.Constructor.Symbols

/-!
# What a subtype has of its parent

A subtype sees every variable of its parent, its own in the place of those of
the same symbol. The others are the parent's, but for the names of label and
type. It documents its own variables only, in the order of its constructor.
-/

set_option autoImplicit false

namespace ParameterManual.ClassNode

theorem document_keyed (node : ClassNode) (v : Variable) (h : Keyed node.documented) :
    Keyed (node.document v).documented := by
  intro e he
  rcases TextMap.mem_insert v.symbol v node.documented e he with rfl | he
  · rfl
  · exact h e he

theorem layer_keyed (node : ClassNode) (own : List Variable) (h : Keyed node.documented) :
    Keyed (node.layer own).documented := by
  induction own generalizing node with
  | nil => exact h
  | cons v rest ih => exact ih (node.document v) (document_keyed node v h)

theorem layer_frame (node : ClassNode) (own : List Variable) :
    node.layer own = { node with
      documented := (node.layer own).documented, order := (node.layer own).order } := by
  induction own generalizing node with
  | nil =>
    cases node
    rfl
  | cons v rest ih => exact ih (node.document v)

theorem layer_name (node : ClassNode) (own : List Variable) :
    (node.layer own).name = node.name := by
  rw [layer_frame]

theorem layer_order (node : ClassNode) (own : List Variable) (hown : DistinctSymbols own) :
    (node.layer own).order =
      node.order ++ (own.map Variable.symbol).filter (fun s => !node.order.contains s) := by
  induction own generalizing node with
  | nil => exact (List.append_nil _).symm
  | cons v rest ih =>
    obtain ⟨hv, hrest⟩ := List.nodup_cons.mp hown
    have hstep := ih (node.document v) hrest
    change ((node.document v).layer rest).order = _
    rw [hstep, List.map_cons, List.filter_cons]
    by_cases hc : node.order.contains v.symbol = true
    · have horder : (node.document v).order = node.order := if_pos hc
      rw [horder, if_neg (by rw [hc]; decide)]
    · have horder : (node.document v).order = node.order ++ [v.symbol] := if_neg hc
      have hlater : (rest.map Variable.symbol).filter
          (fun s => !(node.order ++ [v.symbol]).contains s) =
            (rest.map Variable.symbol).filter (fun s => !node.order.contains s) := by
        apply List.filter_congr
        intro s hs
        have hne : s ≠ v.symbol := by
          rintro rfl
          exact hv hs
        simp [hne]
      rw [horder, hlater, if_pos (by simpa using hc), List.append_assoc, List.singleton_append]

theorem layer_other (node : ClassNode) (own : List Variable) (s : Text)
    (hs : s ∉ own.map Variable.symbol) :
    TextMap.find? s (node.layer own).documented = TextMap.find? s node.documented := by
  induction own generalizing node with
  | nil => rfl
  | cons v rest ih =>
    rw [List.map_cons, List.mem_cons, not_or] at hs
    have hstep := ih (node.document v) hs.2
    exact hstep.trans (TextMap.find?_insert_of_ne hs.1 v node.documented)

theorem layer_own (node : ClassNode) (own : List Variable) (hown : DistinctSymbols own)
    (v : Variable) (hv : v ∈ own) :
    TextMap.find? v.symbol (node.layer own).documented = some v := by
  induction own generalizing node with
  | nil => simp at hv
  | cons w rest ih =>
    obtain ⟨hw, hrest⟩ := List.nodup_cons.mp hown
    rcases List.mem_cons.mp hv with rfl | hv
    · have hstep := layer_other (node.document v) rest v.symbol hw
      exact hstep.trans (TextMap.find?_insert_self v.symbol v node.documented)
    · exact ih (node.document w) hrest hv

theorem find?_inherited (parent : ClassNode) (s : Text) :
    TextMap.find? s parent.inheritedVariables = (TextMap.find? s parent.documented).map (fun v =>
      if s = Variable.labelSymbol ∨ s = Variable.typeSymbol then { v with name := [] } else v) := by
  rw [inheritedVariables, TextMap.find?_mapValue, TextMap.find?_mapValue]
  by_cases hl : s = Variable.labelSymbol
  · have ht : s ≠ Variable.typeSymbol := by
      rw [hl]
      decide
    rw [if_neg ht, if_pos hl]
    simp only [hl, true_or, if_true]
  · rw [if_neg hl]
    by_cases ht : s = Variable.typeSymbol
    · rw [if_pos ht]
      simp only [ht, or_true, if_true]
    · rw [if_neg ht]
      simp only [hl, ht, or_self, if_false, Option.map_id']

theorem inherited_keyed (parent : ClassNode) (h : Keyed parent.documented) :
    Keyed parent.inheritedVariables := by
  have hunnamed (key : Text) (m : TextMap Variable) (hm : Keyed m) :
      Keyed (TextMap.mapValue (fun v => { v with name := [] }) key m) := by
    intro e he
    obtain ⟨d, hd, rfl⟩ := List.mem_map.mp he
    by_cases hk : d.1 = key
    · simpa [hk] using (hm d hd).trans hk
    · simpa [hk] using hm d hd
  exact hunnamed _ _ (hunnamed _ _ h)

/-- A child has the variables of its parent and its own, and documents its
own. -/
structure Inherits (parent child : ClassNode) (own : List Variable) : Prop where
  parentName : child.parentName = parent.name
  order : child.order = own.map Variable.symbol
  keyed : Keyed child.documented
  symbols : ∀ s, s ∈ TextMap.keys child.documented ↔
    s ∈ TextMap.keys parent.documented ∨ s ∈ child.order
  declared : ∀ v ∈ own, TextMap.find? v.symbol child.documented = some v
  unchanged : ∀ s v, s ∉ child.order → TextMap.find? s parent.documented = some v →
    TextMap.find? s child.documented = some
      (if s = Variable.labelSymbol ∨ s = Variable.typeSymbol then { v with name := [] } else v)

theorem derive_inherits (parent : ClassNode) (name : Text) (own : List Variable)
    (hparent : Keyed parent.documented) (hown : DistinctSymbols own) :
    Inherits parent (parent.derive name own) own := by
  have horder : (parent.derive name own).order = own.map Variable.symbol := by
    rw [derive, layer_order _ own hown]
    exact List.filter_eq_self.mpr (fun _ _ => rfl)
  have hother (s : Text) (hs : s ∉ (parent.derive name own).order) :
      TextMap.find? s (parent.derive name own).documented =
        TextMap.find? s parent.inheritedVariables := by
    rw [horder] at hs
    exact layer_other _ own s hs
  constructor
  · exact congrArg ClassNode.parentName
      (layer_frame (empty name parent.name parent.inheritedVariables) own)
  · exact horder
  · exact layer_keyed _ own (inherited_keyed parent hparent)
  · intro s
    rw [TextMap.mem_keys, TextMap.mem_keys]
    by_cases hs : s ∈ (parent.derive name own).order
    · have hfound := hs
      rw [horder] at hfound
      obtain ⟨v, hv, rfl⟩ := List.mem_map.mp hfound
      have hdeclared : TextMap.find? v.symbol (parent.derive name own).documented = some v :=
        layer_own _ own hown v hv
      simp [hdeclared, hs]
    · rw [hother s hs, find?_inherited, Option.isSome_map]
      simp [hs]
  · intro v hv
    exact layer_own _ own hown v hv
  · intro s v hs hv
    rw [hother s hs, find?_inherited, hv, Option.map_some]

theorem inherits_placed (parent child : ClassNode) (own : List Variable)
    (children : List (Text × ClassNode)) (filePath : Option Text) (h : Inherits parent child own) :
    Inherits parent { child with children, filePath } own :=
  { h with }

end ParameterManual.ClassNode
