import ParameterManual.Constructor.Extraction
import ParameterManual.Proofs.Outcome
import ParameterManual.Proofs.Text.Map

/-!
# Properties of every variable of a constructor

The variables that a constructor documents are bound, made up for a
registration, or copied from the parent, and a registration sets a flag of
one. A property that these steps give and keep is one of all its variables.
-/

set_option autoImplicit false

namespace ParameterManual.Constructor

/-- A property that each way of documenting a variable gives or keeps. -/
structure Documents (scope : Scope) (p : Variable → Prop) : Prop where
  bound : ∀ l arguments modifiers v, bindVariable scope l arguments modifiers = .ok v → p v
  table : ∀ l arguments v, tableVariable scope l arguments = .ok v → p v
  placeholder : ∀ l symbol member name typeName, scope.translate l symbol = .ok name →
    p { Variable.plain .placeholder symbol member name typeName with isAddressable := true }
  estimable : ∀ v, p v → p { v with isEstimable := true }
  addressable : ∀ v, p v → p { v with isAddressable := true }
  inherited : ∀ e ∈ scope.inherited, p e.2

variable {scope : Scope} {p : Variable → Prop}

theorem update_all (f : Variable → Variable) (symbol : Text) (own : List Variable)
    (hf : ∀ v, p v → p (f v)) (hown : ∀ v ∈ own, p v) : ∀ v ∈ updateSymbol f symbol own, p v := by
  induction own with
  | nil => exact hown
  | cons w own ih =>
    obtain ⟨hw, hown⟩ := List.forall_mem_cons.mp hown
    rw [updateSymbol]
    split
    · exact List.forall_mem_cons.mpr ⟨hf w hw, hown⟩
    · exact List.forall_mem_cons.mpr ⟨hw, ih hown⟩

theorem append_all (own : List Variable) (v : Variable) (hown : ∀ w ∈ own, p w) (hv : p v) :
    ∀ w ∈ own ++ [v], p w := by
  intro w hw
  rcases List.mem_append.mp hw with hw | hw
  · exact hown w hw
  · rw [List.mem_singleton.mp hw]
    exact hv

theorem upsert_all (own : List Variable) (v : Variable) (hown : ∀ w ∈ own, p w) (hv : p v) :
    ∀ w ∈ upsert own v, p w := by
  rw [upsert]
  split
  · exact update_all (fun _ => v) v.symbol own (fun _ _ => hv) hown
  · exact append_all own v hown hv

theorem inherited_all (symbol : Text) (own : List Variable) (h : Documents scope p)
    (hown : ∀ v ∈ own, p v) : ∀ v ∈ withInherited scope symbol own, p v := by
  rw [withInherited]
  split
  · exact hown
  · cases hf : TextMap.find? symbol scope.inherited with
    | none => simpa using hown
    | some v =>
      have hv := h.inherited (symbol, v) (TextMap.mem_of_find? _ symbol v hf)
      simpa using append_all own v hown hv

theorem addressable_all (l : Location) (symbol member : Text) (own result : List Variable)
    (h : Documents scope p) (hown : ∀ v ∈ own, p v)
    (hr : registerAddressable scope l symbol member own = .ok result) : ∀ v ∈ result, p v := by
  have hseen := inherited_all symbol own h hown
  rw [registerAddressable] at hr
  split at hr
  · obtain rfl := Except.ok.inj hr
    exact update_all _ symbol _ h.addressable hseen
  · obtain ⟨name, hname, hr⟩ := bind_ok hr
    obtain rfl := Except.ok.inj hr
    exact append_all _ _ hseen (h.placeholder l symbol member name _ hname)

theorem register_all (l : Location) (own result : List Variable) (arguments : List Text)
    (h : Documents scope p) (hown : ∀ v ∈ own, p v)
    (hr : register scope l own arguments = .ok result) : ∀ v ∈ result, p v := by
  unfold register at hr
  split at hr
  · obtain rfl := Except.ok.inj hr
    exact hown
  · split at hr
    · obtain rfl := Except.ok.inj hr
      exact update_all _ _ _ h.estimable (inherited_all _ own h hown)
    · obtain rfl := Except.ok.inj hr
      exact hown
  · split at hr
    · exact addressable_all l _ _ own result h hown hr
    · obtain rfl := Except.ok.inj hr
      exact hown
  · cases hr

theorem statement_all (l : Location) (own result : List Variable) (s : Statement)
    (h : Documents scope p) (hown : ∀ v ∈ own, p v)
    (hr : applyStatement scope l own s = .ok result) : ∀ v ∈ result, p v := by
  cases s with
  | bind template arguments modifiers =>
    obtain ⟨v, hv, rfl⟩ := map_ok hr
    exact upsert_all own v hown (h.bound l arguments modifiers v hv)
  | bindTable arguments =>
    obtain ⟨v, hv, rfl⟩ := map_ok hr
    exact upsert_all own v hown (h.table l arguments v hv)
  | register arguments => exact register_all l own result arguments h hown hr

theorem collected_all (own result : List Variable) (c : Collected) (h : Documents scope p)
    (hown : ∀ v ∈ own, p v) (hr : applyCollected scope own c = .ok result) :
    ∀ v ∈ result, p v := by
  rw [applyCollected] at hr
  split at hr
  · cases hr
  · obtain rfl := Except.ok.inj hr
    exact hown
  · exact statement_all c.location own result _ h hown hr

theorem extract_all (file content : Text) (own : List Variable) (h : Documents scope p)
    (hr : extract scope file content = .ok own) : ∀ v ∈ own, p v := by
  obtain ⟨collected, -, hr⟩ := bind_ok hr
  cases collected with
  | none =>
    obtain rfl := Except.ok.inj hr
    simp
  | some statements =>
    refine foldlM_kept (applyCollected scope) (fun own => ∀ v ∈ own, p v) statements ?_ [] own
      (by simp) hr
    intro c _ before after hbefore hstep
    exact collected_all before after c h hbefore hstep

end ParameterManual.Constructor
