import ParameterManual.Proofs.ClassNode.Inheritance
import ParameterManual.Proofs.ClassNode.Listing
import ParameterManual.Proofs.Constructor.Origin
import ParameterManual.Proofs.Outcome
import ParameterManual.Proofs.Text.Entries

/-!
# Nodes that operations make

A node is made as a root, derived from a node that is made, or takes one as a
child. It is given variables when it is made, and a symbol may be given more
than once. Its order then has each symbol where it was given first, and its
map has what was given for the symbol last.
-/

set_option autoImplicit false

namespace ParameterManual.ClassNode
open Constructor

/-- The nodes that operations make, each with the variables given to it. -/
inductive Made : ClassNode → List Variable → Prop where
  | root (name : Text) (first second : Variable) (own : List Variable)
      (distinct : first.symbol ≠ second.symbol) :
      Made (root name first second own) (first :: second :: own)
  | derive (parent : ClassNode) (given : List Variable) (name : Text) (own : List Variable)
      (hparent : Made parent given) : Made (parent.derive name own) own
  | withChild (node child : ClassNode) (given others : List Variable) (hnode : Made node given)
      (hchild : Made child others) : Made (node.withChild child) given

/-- The last variable that is given for a symbol. -/
def LastGiven (given : List Variable) (s : Text) (v : Variable) : Prop :=
  ∃ before after, given = before ++ v :: after ∧ v.symbol = s ∧ ∀ w ∈ after, w.symbol ≠ s

def entries (given : List Variable) : List (Text × Variable) :=
  given.map (fun v => (v.symbol, v))

theorem document_order (node : ClassNode) (v : Variable) :
    (node.document v).order = withSymbol node.order v.symbol := by
  by_cases h : v.symbol ∈ node.order <;> simp [document, withSymbol, h]

theorem withSymbol_nodup (symbols : List Text) (s : Text) (h : symbols.Nodup) :
    (withSymbol symbols s).Nodup := by
  rw [withSymbol]
  split
  · exact h
  · rename_i hs
    rw [← List.concat_eq_append]
    exact h.concat hs

theorem eraseDups_nodup (symbols : List Text) : symbols.eraseDups.Nodup := by
  induction symbols using List.reverseRecOn with
  | nil => exact List.nodup_nil
  | append_singleton symbols s ih =>
    rw [eraseDups_more]
    exact withSymbol_nodup _ s ih

theorem layer_given (node : ClassNode) (given own : List Variable)
    (h : node.order = (given.map Variable.symbol).eraseDups) :
    (node.layer own).order = ((given ++ own).map Variable.symbol).eraseDups := by
  induction own generalizing node given with
  | nil => rwa [List.append_nil]
  | cons v rest ih =>
    have hstep : (node.document v).order = ((given ++ [v]).map Variable.symbol).eraseDups := by
      rw [document_order, h, List.map_append, List.map_singleton, eraseDups_more]
    have hrest := ih (node.document v) (given ++ [v]) hstep
    rwa [List.append_assoc] at hrest

theorem layer_entries (node : ClassNode) (own : List Variable) :
    (node.layer own).documented = TextMap.insertAll (entries own) node.documented := by
  induction own generalizing node with
  | nil => rfl
  | cons v rest ih => exact ih (node.document v)

theorem made_order (node : ClassNode) (given : List Variable) (h : Made node given) :
    node.order = (given.map Variable.symbol).eraseDups := by
  induction h with
  | root name first second own distinct =>
    apply layer_given _ [first, second] own
    simp [List.eraseDups_cons, Ne.symm distinct]
  | derive parent given name own _ _ => exact layer_given _ [] own rfl
  | withChild node child given others _ _ ih _ => exact ih

theorem made_documented (node : ClassNode) (given : List Variable) (h : Made node given) :
    ∃ seen, node.documented = TextMap.insertAll (entries given) seen := by
  induction h with
  | root name first second own distinct => exact ⟨[], layer_entries _ own⟩
  | derive parent given name own _ _ => exact ⟨parent.inheritedVariables, layer_entries _ own⟩
  | withChild node child given others _ _ ih _ => exact ih

theorem made_keyed (node : ClassNode) (given : List Variable) (h : Made node given) :
    Keyed node.documented := by
  induction h with
  | root name first second own distinct =>
    apply layer_keyed _ own
    intro e he
    rcases TextMap.mem_insertAll (entries [first, second]) [] e he with he | he
    · obtain ⟨v, -, rfl⟩ := List.mem_map.mp he
      rfl
    · cases he
  | derive parent given name own _ ih => exact layer_keyed _ own (inherited_keyed parent ih)
  | withChild node child given others _ _ ih _ => exact ih

theorem made_children (node : ClassNode) (given : List Variable) (h : Made node given) :
    ∀ e ∈ node.children, e.2.name = e.1 := by
  induction h with
  | root name first second own distinct =>
    rw [root, layer_children]
    simp [empty]
  | derive parent given name own _ _ =>
    rw [derive, layer_children]
    simp [empty]
  | withChild node child given others _ _ ih _ =>
    intro e he
    rcases TextMap.mem_insert child.name child node.children e he with rfl | he
    · rfl
    · exact ih e he

theorem last_given (given : List Variable) (seen : TextMap Variable) (s : Text)
    (hs : s ∈ given.map Variable.symbol) :
    ∃ v, LastGiven given s v ∧ TextMap.find? s (TextMap.insertAll (entries given) seen) = some v := by
  have hgiven : ∃ v ∈ given, v.symbol = s := List.mem_map.mp hs
  obtain ⟨before, v, after, rfl, rfl, hlast⟩ := last_where (fun v => v.symbol = s) given hgiven
  refine ⟨v, ⟨before, after, rfl, rfl, hlast⟩, ?_⟩
  have hafter : ∀ e ∈ entries after, e.1 ≠ v.symbol := List.forall_mem_map.mpr hlast
  have hsplit : TextMap.insertAll (entries (before ++ v :: after)) seen =
      TextMap.insertAll (entries after)
        (TextMap.insert v.symbol v (TextMap.insertAll (entries before) seen)) := by
    rw [entries, List.map_append, TextMap.insertAll, List.foldl_append]
    rfl
  rw [hsplit, TextMap.find?_insertAll_other _ _ _ hafter, TextMap.find?_insert_self]

theorem found_each (R : Text → Variable → Prop) (m : TextMap Variable) (order : List Text)
    (h : ∀ s ∈ order, ∃ v, R s v ∧ TextMap.find? s m = some v) :
    List.Forall₂ R order (order.filterMap (fun s => TextMap.find? s m)) := by
  induction order with
  | nil => exact .nil
  | cons s rest ih =>
    obtain ⟨⟨v, hv, hfound⟩, hrest⟩ := List.forall_mem_cons.mp h
    have hfirst : (s :: rest).filterMap (fun s => TextMap.find? s m) =
        v :: rest.filterMap (fun s => TextMap.find? s m) := List.filterMap_cons_some hfound
    rw [hfirst]
    exact .cons hv (ih hrest)

theorem made_ordered (node : ClassNode) (given : List Variable) (h : Made node given) :
    List.Forall₂ (LastGiven given) node.order node.ordered := by
  obtain ⟨seen, hseen⟩ := made_documented node given h
  apply found_each
  intro s hs
  rw [made_order node given h, List.mem_eraseDups] at hs
  rw [hseen]
  exact last_given given seen s hs

/-- The order, the map and the children of a node are in step, and its counts
are those of its tree. -/
structure InStep (node : ClassNode) (given : List Variable) : Prop where
  first : node.order = (given.map Variable.symbol).eraseDups
  once : node.order.Nodup
  known : ∀ s ∈ node.order, s ∈ TextMap.keys node.documented
  keyed : Keyed node.documented
  named : ∀ e ∈ node.children, e.2.name = e.1
  ordered : List.Forall₂ (LastGiven given) node.order node.ordered
  types : node.typeCount = node.listing.length
  rendered : node.documentedCount =
    ((node.listing.flatMap (fun e => e.2.ordered)).filter Variable.isRendered).length

/-- Whatever operations make a node and whatever variables they are given, the
node lists each symbol once and keys its variables and children by what they
are called. In order it has one variable for each symbol, the last one given. -/
theorem made_inStep (node : ClassNode) (given : List Variable) (h : Made node given) :
    InStep node given := by
  have horder := made_order node given h
  constructor
  · exact horder
  · rw [horder]
    exact eraseDups_nodup _
  · intro s hs
    obtain ⟨seen, hseen⟩ := made_documented node given h
    rw [horder, List.mem_eraseDups] at hs
    obtain ⟨v, -, hfound⟩ := last_given given seen s hs
    rw [TextMap.mem_keys, hseen, hfound, Option.isSome_some]
  · exact made_keyed node given h
  · exact made_children node given h
  · exact made_ordered node given h
  · exact (listing_length node).symm
  · exact listing_rendered node

def rate : Variable :=
  Variable.plain .parameter "PARAM_RATE".toList "rate_".toList "rate".toList "Double".toList

def laterRate : Variable := { rate with description := "The rate".toList }

def boundLabel : Variable :=
  Variable.plain .parameter Variable.labelSymbol "label_".toList "name".toList "string".toList

def reboundRoot : ClassNode :=
  root "Process".toList Variable.label Variable.type [rate, boundLabel, laterRate]

def reboundTree : ClassNode :=
  reboundRoot.withChild (reboundRoot.derive "Growth".toList [laterRate, rate])

theorem made_inStep_rebound :
    Made reboundTree [Variable.label, Variable.type, rate, boundLabel, laterRate] ∧
      reboundTree.ordered = [boundLabel, Variable.type, laterRate] ∧
      reboundTree.documentedCount = 4 ∧
      InStep reboundTree [Variable.label, Variable.type, rate, boundLabel, laterRate] := by
  have hroot : Made reboundRoot [Variable.label, Variable.type, rate, boundLabel, laterRate] :=
    .root _ _ _ _ (by decide)
  have htree : Made reboundTree [Variable.label, Variable.type, rate, boundLabel, laterRate] :=
    .withChild _ _ _ _ hroot (.derive _ _ "Growth".toList _ hroot)
  exact ⟨htree, by decide, by decide, made_inStep _ _ htree⟩

end ParameterManual.ClassNode
