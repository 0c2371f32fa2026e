import ParameterManual.Proofs.ClassNode.Inheritance
import ParameterManual.Proofs.Constructor.Entry

/-!
# What a node shows of its own variables

A node finds each variable of its constructor under its symbol, and lists the
symbol once. So the variables that are in order at the node, taken one symbol
at a time, are the entries of the constructor, and the node renders those that
have a name.
-/

set_option autoImplicit false

namespace ParameterManual.ClassNode
open Constructor

structure Declares (node : ClassNode) (own : List Variable) : Prop where
  distinct : DistinctSymbols own
  keyed : Keyed node.documented
  once : node.order.Nodup
  listed : ∀ v ∈ own, v.symbol ∈ node.order
  found : ∀ v ∈ own, TextMap.find? v.symbol node.documented = some v

theorem filter_found (m : TextMap Variable) (hm : Keyed m) (order : List Text)
    (honce : order.Nodup) (s : Text) :
    (order.filterMap (fun symbol => TextMap.find? symbol m)).filter (fun w => w.symbol = s) =
      if s ∈ order then (TextMap.find? s m).toList else [] := by
  induction order with
  | nil => rfl
  | cons symbol rest ih =>
    obtain ⟨hsymbol, hrest⟩ := List.nodup_cons.mp honce
    have hfirst : ([symbol].filterMap (fun symbol => TextMap.find? symbol m)).filter
        (fun w => w.symbol = s) = if symbol = s then (TextMap.find? s m).toList else [] := by
      cases hf : TextMap.find? symbol m with
      | none =>
        by_cases hs : symbol = s
        · simp [hf, ← hs]
        · simp [hf, hs]
      | some v =>
        have hv : v.symbol = symbol := hm (symbol, v) (TextMap.mem_of_find? _ symbol v hf)
        by_cases hs : symbol = s
        · simp [hf, hv, ← hs]
        · simp [hf, hv, hs]
    rw [← List.singleton_append, List.filterMap_append, List.filter_append, hfirst, ih hrest]
    by_cases hs : symbol = s
    · have hlater : s ∉ rest := hs ▸ hsymbol
      simp [hs, hlater]
    · simp [hs, Ne.symm hs]

/-- A node has the variables of its constructor in order, each once. -/
theorem declared_ordered (node : ClassNode) (own : List Variable) (h : Declares node own)
    (v : Variable) (hv : v ∈ own) : node.ordered.filter (fun w => w.symbol = v.symbol) = [v] := by
  rw [ordered, filter_found node.documented h.keyed node.order h.once, if_pos (h.listed v hv),
    h.found v hv, Option.toList_some]

theorem declared_rendered (node : ClassNode) (own : List Variable) (h : Declares node own)
    (v : Variable) (hv : v ∈ own) :
    node.rendered.filter (fun w => w.symbol = v.symbol) = if v.isRendered then [v] else [] := by
  have hswap := List.filter_comm (fun w : Variable => decide (w.symbol = v.symbol))
    Variable.isRendered node.ordered
  rw [rendered, hswap, declared_ordered node own h v hv, List.filter_singleton,
    Bool.cond_eq_ite]

theorem inherits_declares (parent child : ClassNode) (own : List Variable)
    (hown : DistinctSymbols own) (h : Inherits parent child own) : Declares child own where
  distinct := hown
  keyed := h.keyed
  once := h.order ▸ hown
  listed := fun _ hv => h.order ▸ List.mem_map_of_mem hv
  found := h.declared

end ParameterManual.ClassNode
