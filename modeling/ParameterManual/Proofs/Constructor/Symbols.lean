import ParameterManual.Constructor.Extraction
import ParameterManual.Proofs.Outcome
import ParameterManual.Proofs.Text.Map

/-!
# Symbols of a constructor

A bind replaces the variable of its symbol, and a registration adds one only
where there is none. So a constructor documents at most one variable under a
symbol, as long as what it inherits stands under its own symbols.
-/

set_option autoImplicit false

namespace ParameterManual

/-- Every variable of a map stands under its symbol. -/
def Keyed (m : TextMap Variable) : Prop := ∀ e ∈ m, e.2.symbol = e.1

def DistinctSymbols (own : List Variable) : Prop := (own.map Variable.symbol).Nodup

namespace Constructor

theorem hasSymbol_iff (own : List Variable) (symbol : Text) :
    hasSymbol own symbol = true ↔ symbol ∈ own.map Variable.symbol := by
  simp [hasSymbol]

theorem update_symbols (f : Variable → Variable) (symbol : Text) (own : List Variable)
    (hf : ∀ v, v.symbol = symbol → (f v).symbol = symbol) :
    (updateSymbol f symbol own).map Variable.symbol = own.map Variable.symbol := by
  induction own with
  | nil => rfl
  | cons v own ih =>
    rw [updateSymbol]
    split
    · rename_i hs
      rw [List.map_cons, List.map_cons, hf v hs, hs]
    · rw [List.map_cons, List.map_cons, ih]

theorem append_distinct (own : List Variable) (v : Variable) (hown : DistinctSymbols own)
    (hv : ¬ hasSymbol own v.symbol = true) : DistinctSymbols (own ++ [v]) := by
  rw [hasSymbol_iff] at hv
  rw [DistinctSymbols, List.map_append, List.map_singleton, List.nodup_append]
  refine ⟨hown, by simp, ?_⟩
  intro s hs t ht
  rw [List.mem_singleton.mp ht]
  rintro rfl
  exact hv hs

theorem update_distinct (f : Variable → Variable) (symbol : Text) (own : List Variable)
    (hf : ∀ v, v.symbol = symbol → (f v).symbol = symbol) (hown : DistinctSymbols own) :
    DistinctSymbols (updateSymbol f symbol own) := by
  rw [DistinctSymbols, update_symbols f symbol own hf]
  exact hown

theorem upsert_distinct (own : List Variable) (v : Variable) (hown : DistinctSymbols own) :
    DistinctSymbols (upsert own v) := by
  rw [upsert]
  split
  · exact update_distinct (fun _ => v) v.symbol own (fun _ _ => rfl) hown
  · rename_i hv
    exact append_distinct own v hown hv

section registrations
variable (scope : Scope) (hkeyed : Keyed scope.inherited)
include hkeyed

theorem inherited_distinct (symbol : Text) (own : List Variable) (hown : DistinctSymbols own) :
    DistinctSymbols (withInherited scope symbol own) := by
  rw [withInherited]
  split
  · exact hown
  · rename_i hnew
    cases hf : TextMap.find? symbol scope.inherited with
    | none => simpa using hown
    | some v =>
      have hv : v.symbol = symbol := hkeyed (symbol, v) (TextMap.mem_of_find? _ symbol v hf)
      apply append_distinct own v hown
      rw [hv]
      exact hnew

theorem estimable_distinct (symbol : Text) (own : List Variable) (hown : DistinctSymbols own) :
    DistinctSymbols (registerEstimable scope symbol own) :=
  update_distinct _ symbol _ (fun _ hv => hv) (inherited_distinct scope hkeyed symbol own hown)

theorem addressable_distinct (l : Location) (symbol member : Text) (own result : List Variable)
    (hown : DistinctSymbols own)
    (hr : registerAddressable scope l symbol member own = .ok result) :
    DistinctSymbols result := by
  have hseen := inherited_distinct scope hkeyed symbol own hown
  rw [registerAddressable] at hr
  split at hr
  · obtain rfl := Except.ok.inj hr
    exact update_distinct _ symbol _ (fun _ hv => hv) hseen
  · rename_i hnew
    obtain ⟨name, -, hr⟩ := bind_ok hr
    obtain rfl := Except.ok.inj hr
    exact append_distinct _ _ hseen hnew

theorem register_distinct (l : Location) (own result : List Variable) (arguments : List Text)
    (hown : DistinctSymbols own) (hr : register scope l own arguments = .ok result) :
    DistinctSymbols result := by
  unfold register at hr
  split at hr
  · obtain rfl := Except.ok.inj hr
    exact hown
  · split at hr
    · obtain rfl := Except.ok.inj hr
      exact estimable_distinct scope hkeyed _ own hown
    · obtain rfl := Except.ok.inj hr
      exact hown
  · split at hr
    · exact addressable_distinct scope hkeyed l _ _ own result hown hr
    · obtain rfl := Except.ok.inj hr
      exact hown
  · cases hr

theorem statement_distinct (l : Location) (own result : List Variable) (s : Statement)
    (hown : DistinctSymbols own) (hr : applyStatement scope l own s = .ok result) :
    DistinctSymbols result := by
  cases s with
  | bind template arguments modifiers =>
    obtain ⟨v, -, rfl⟩ := map_ok hr
    exact upsert_distinct own v hown
  | bindTable arguments =>
    obtain ⟨v, -, rfl⟩ := map_ok hr
    exact upsert_distinct own v hown
  | register arguments => exact register_distinct scope hkeyed l own result arguments hown hr

theorem collected_distinct (own result : List Variable) (c : Collected)
    (hown : DistinctSymbols own) (hr : applyCollected scope own c = .ok result) :
    DistinctSymbols result := by
  rw [applyCollected] at hr
  split at hr
  · cases hr
  · obtain rfl := Except.ok.inj hr
    exact hown
  · exact statement_distinct scope hkeyed c.location own result _ hown hr

theorem extract_distinct (file content : Text) (own : List Variable)
    (hr : extract scope file content = .ok own) : DistinctSymbols own := by
  obtain ⟨collected, -, hr⟩ := bind_ok hr
  cases collected with
  | none =>
    obtain rfl := Except.ok.inj hr
    exact List.nodup_nil
  | some statements =>
    apply foldlM_kept (applyCollected scope) DistinctSymbols statements _ [] own List.nodup_nil hr
    intro c _ before after hbefore hstep
    exact collected_distinct scope hkeyed before after c hbefore hstep

end registrations

end Constructor

end ParameterManual
