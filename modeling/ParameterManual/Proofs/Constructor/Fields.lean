import ParameterManual.Proofs.Constructor.Documented
import ParameterManual.Proofs.Constructor.Modifiers
import ParameterManual.Proofs.Constructor.Statements

/-!
# Fields that go together

The last argument of a bind is a flag or a default, and the kind of a variable
says which of its fields can be set at all. Whatever a constructor binds, makes
up, copies or flags, the fields of its variables fit their kind.
-/

set_option autoImplicit false

namespace ParameterManual
open Constructor

/-- The fields of a variable fit its kind and one another. -/
structure Variable.Fitting (v : Variable) : Prop where
  optional : v.isOptional = true → isContainer v.typeName = true ∧ v.default = none
  default : v.default ≠ some []
  table : v.kind = .table → v.default = none ∧ Unset v ∧ v.isOptional = false
  placeholder : v.kind = .placeholder →
    v.isAddressable = true ∧ v.description = [] ∧ v.value = [] ∧ v.default = none ∧ Unset v
  synthetic : v.kind = .synthetic →
    (v.symbol = labelSymbol ∨ v.symbol = typeSymbol) ∧ v.typeName = "string".toList

theorem Variable.synthetic_fitting (symbol name description : Text)
    (h : symbol = labelSymbol ∨ symbol = typeSymbol) :
    (synthetic symbol name description).Fitting where
  optional := fun ho => by cases ho
  default := fun hd => by cases hd
  table := fun hk => by cases hk
  placeholder := fun hk => by cases hk
  synthetic := fun _ => ⟨h, rfl⟩

theorem Variable.flagged_fitting (v : Variable) (name : Text) (estimable addressable : Bool)
    (h : v.Fitting) (ha : v.isAddressable = true → addressable = true) :
    Variable.Fitting
      { v with name := name, isEstimable := estimable, isAddressable := addressable } :=
  { h with
    table := fun hk =>
      have ⟨hdefault, hunset, hrequired⟩ := h.table hk
      ⟨hdefault, { hunset with }, hrequired⟩
    placeholder := fun hk =>
      have ⟨haddressable, hdescription, hvalue, hdefault, hunset⟩ := h.placeholder hk
      ⟨ha haddressable, hdescription, hvalue, hdefault, { hunset with }⟩ }

namespace Constructor

variable (scope : Scope) (l : Location)

structure Undecided (kind : BindKind) (v : Variable) : Prop where
  kind : v.kind = kind
  default : v.default = none
  required : v.isOptional = false

theorem bound_undecided (kind : BindKind) (label member description value : Text) (v : Variable)
    (h : boundVariable scope l kind label member description value = .ok v) :
    Undecided kind v := by
  rw [boundVariable] at h
  split at h
  · obtain ⟨name, -, h⟩ := bind_ok h
    obtain ⟨typeName, -, h⟩ := bind_ok h
    obtain rfl := Except.ok.inj h
    exact ⟨rfl, rfl, rfl⟩
  · cases h

structure Decided (v : Variable) : Prop where
  kind : v.kind = .parameter
  optional : v.isOptional = true → isContainer v.typeName = true ∧ v.default = none
  default : v.default ≠ some []

theorem undecided_decided (v : Variable) (h : Undecided .parameter v) : Decided v where
  kind := h.kind
  optional := fun ho => by simp [h.required] at ho
  default := by simp [h.default]

theorem fifth_decided (v w : Variable) (t : Text) (hv : Undecided .parameter v)
    (h : withFifth scope l v t = .ok w) : Decided w := by
  unfold withFifth at h
  split at h
  · rename_i flag hflag
    obtain rfl := Except.ok.inj h
    have hcontainer : isContainer v.typeName = true := by
      by_contra hc
      rw [if_neg hc] at hflag
      cases hflag
    exact ⟨hv.kind, fun _ => ⟨hcontainer, hv.default⟩, (undecided_decided v hv).default⟩
  · obtain ⟨text, -, h⟩ := bind_ok h
    obtain rfl := Except.ok.inj h
    split
    · exact undecided_decided v hv
    · rename_i htext
      exact ⟨hv.kind, fun ho => by simp [hv.required] at ho, by simpa using htext⟩

theorem bind_frame (arguments : List Text) (modifiers : List Modifier) (v : Variable)
    (h : bindVariable scope l arguments modifiers = .ok v) :
    ∃ plain, bindVariable scope l arguments [] = .ok plain ∧ v = { plain with
      lowerBound := v.lowerBound, upperBound := v.upperBound, allowedValues := v.allowedValues } := by
  rw [bind_modifiers] at h
  obtain ⟨plain, hplain, hchain⟩ := bind_ok h
  obtain ⟨settings, -, hv⟩ := (chain_ok scope l modifiers plain v).mp hchain
  rw [settings_on] at hv
  exact ⟨plain, hplain, by rw [hv]⟩

theorem bind_decided (arguments : List Text) (modifiers : List Modifier) (v : Variable)
    (h : bindVariable scope l arguments modifiers = .ok v) : Decided v := by
  obtain ⟨plain, hplain, hv⟩ := bind_frame scope l arguments modifiers v h
  have hdecided : Decided plain := by
    unfold bindVariable at hplain
    split at hplain
    · rename_i label member description value more
      split at hplain
      · rename_i hmore
        obtain ⟨bound, hbound, hplain⟩ := bind_ok hplain
        obtain ⟨whole, hwhole, hplain⟩ := bind_ok hplain
        obtain rfl := Except.ok.inj hplain
        have hundecided := bound_undecided scope l .parameter label member description value bound
          hbound
        -- there is at most one argument more
        match more with
        | [] =>
          obtain rfl := Except.ok.inj hwhole
          exact undecided_decided bound hundecided
        | [t] =>
          obtain ⟨w, hw, hlast⟩ := bind_ok hwhole
          obtain rfl := Except.ok.inj hlast
          exact fifth_decided scope l bound w t hundecided hw
        | _ :: _ :: _ => simp at hmore
      · cases hplain
    · cases hplain
  rw [hv]
  exact ⟨hdecided.kind, hdecided.optional, hdecided.default⟩

theorem bind_fitting (arguments : List Text) (modifiers : List Modifier) (v : Variable)
    (h : bindVariable scope l arguments modifiers = .ok v) : v.Fitting := by
  have hdecided := bind_decided scope l arguments modifiers v h
  exact {
    optional := hdecided.optional
    default := hdecided.default
    table := fun hk => by simp [hdecided.kind] at hk
    placeholder := fun hk => by simp [hdecided.kind] at hk
    synthetic := fun hk => by simp [hdecided.kind] at hk }

theorem table_fitting (arguments : List Text) (v : Variable)
    (h : tableVariable scope l arguments = .ok v) : v.Fitting := by
  obtain ⟨label, member, description, value, flags, rfl, hbound⟩ := table_bound scope l arguments v h
  have hundecided := bound_undecided scope l .table label member description value v hbound
  exact {
    optional := fun ho => by simp [hundecided.required] at ho
    default := by simp [hundecided.default]
    table := fun _ => ⟨hundecided.default, bound_unset scope l .table _ _ _ _ v hbound,
      hundecided.required⟩
    placeholder := fun hk => by simp [hundecided.kind] at hk
    synthetic := fun hk => by simp [hundecided.kind] at hk }

theorem placeholder_fitting (symbol member name typeName : Text) :
    Variable.Fitting
      { Variable.plain .placeholder symbol member name typeName with isAddressable := true } where
  optional := fun ho => by cases ho
  default := fun hd => by cases hd
  table := fun hk => by cases hk
  placeholder := fun _ => ⟨rfl, rfl, rfl, rfl, ⟨rfl, rfl, rfl⟩⟩
  synthetic := fun hk => by cases hk

/-- Whatever a constructor documents fits if what it inherits does. -/
theorem documents_fitting (hi : ∀ e ∈ scope.inherited, e.2.Fitting) :
    Documents scope Variable.Fitting where
  bound := fun l arguments modifiers v h => bind_fitting scope l arguments modifiers v h
  table := fun l arguments v h => table_fitting scope l arguments v h
  placeholder := fun _ symbol member name typeName _ =>
    placeholder_fitting symbol member name typeName
  estimable := fun v hv => Variable.flagged_fitting v v.name true v.isAddressable hv id
  addressable := fun v hv => Variable.flagged_fitting v v.name v.isEstimable true hv (fun _ => rfl)
  inherited := hi

end Constructor

end ParameterManual
