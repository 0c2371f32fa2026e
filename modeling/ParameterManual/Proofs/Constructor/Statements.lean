import ParameterManual.Proofs.Constructor.Symbols

/-!
# Statements and the symbols they name

A constructor is a list of statements, each with its place. A bind names the
symbol that it binds. A registration of a member names the symbol that it
flags, unless its label is computed. What a constructor documents is what its
statements come to in turn, and each of them does one of four things.
-/

set_option autoImplicit false

namespace ParameterManual

namespace Statement

def bound? : Statement → Option Text
  | .bind _ (label :: _) _ => some label.trim
  | .bindTable (label :: _) => some label.trim
  | _ => none

def member? : Statement → Option Text
  | .bind _ (_ :: member :: _) _ => some (Constructor.memberName member)
  | .bindTable (_ :: member :: _) => some (Constructor.memberName member)
  | .register (_ :: member :: _) => some (Constructor.memberName member)
  | _ => none

end Statement

namespace Constructor

structure Registration where
  symbol : Text
  member : Text
  hasUsage : Bool
  deriving DecidableEq, Repr

def Registration.of? (table : TranslationTable) : Statement → Option Registration
  | .register (label :: member :: usage) =>
    if table.isSymbol label.trim then some ⟨label.trim, memberName member, !usage.isEmpty⟩
    else none
  | _ => none

structure Placed where
  statement : Statement
  location : Location
  deriving DecidableEq, Repr

def Placed.of? (c : Collected) : Option Placed :=
  match Statement.parse c.text with
  | .ok (some s) => some ⟨s, c.location⟩
  | _ => none

def statements (className file content : Text) : List Placed :=
  match collect className file content with
  | .ok (some collected) => collected.filterMap Placed.of?
  | _ => []

variable (scope : Scope)

def applyPlaced (own : List Variable) (p : Placed) : Except Failure (List Variable) :=
  applyStatement scope p.location own p.statement

/-- The variable that a statement binds. -/
def binding (p : Placed) : Option Variable :=
  match p.statement with
  | .bind _ arguments modifiers => (bindVariable scope p.location arguments modifiers).toOption
  | .bindTable arguments => (tableVariable scope p.location arguments).toOption
  | .register _ => none

theorem collected_placed (collected : List Collected) (before own : List Variable)
    (h : collected.foldlM (applyCollected scope) before = .ok own) :
    (collected.filterMap Placed.of?).foldlM (applyPlaced scope) before = .ok own := by
  induction collected generalizing before with
  | nil => exact h
  | cons c rest ih =>
    rw [List.foldlM_cons] at h
    obtain ⟨next, hstep, hrest⟩ := bind_ok h
    rw [applyCollected] at hstep
    rw [List.filterMap_cons, Placed.of?]
    cases hparse : Statement.parse c.text with
    | error what =>
      rw [hparse] at hstep
      cases hstep
    | ok found =>
      rw [hparse] at hstep
      cases found with
      | none =>
        obtain rfl := Except.ok.inj hstep
        exact ih before hrest
      | some s =>
        exact bind_ok_iff.mpr ⟨next, hstep, ih next hrest⟩

/-- What a constructor documents is what its statements come to. -/
theorem extract_statements (file content : Text) (own : List Variable)
    (h : extract scope file content = .ok own) :
    (statements scope.className file content).foldlM (applyPlaced scope) [] = .ok own := by
  obtain ⟨collected, hcollect, h⟩ := bind_ok h
  rw [statements, hcollect]
  cases collected with
  | none => exact h
  | some collected => exact collected_placed scope collected [] own h

/-- A variable is another one but for what the fifth argument and the
modifiers of a bind can set. -/
def SameButDetails (v w : Variable) : Prop :=
  w = { v with
    default := w.default, lowerBound := w.lowerBound, upperBound := w.upperBound,
    allowedValues := w.allowedValues, isOptional := w.isOptional }

theorem details_trans (u v w : Variable) (h : SameButDetails u v) (h' : SameButDetails v w) :
    SameButDetails u w := by
  rw [SameButDetails] at h h' ⊢
  rw [h', h]

section binds
variable (l : Location)

theorem bounded_details (bounded : Bound → Variable) (v w : Variable) (value : Text)
    (flag : Option Text) (hb : ∀ b, SameButDetails v (bounded b))
    (hr : (do return bounded (← boundOf scope l value flag)) = Except.ok w) :
    SameButDetails v w := by
  obtain ⟨b, -, hr⟩ := bind_ok hr
  obtain rfl := Except.ok.inj hr
  exact hb b

theorem modifier_details (v w : Variable) (m : Modifier)
    (hr : applyModifier scope l v m = .ok w) : SameButDetails v w := by
  have hlower (b : Bound) : SameButDetails v { v with lowerBound := some b } := rfl
  have hupper (b : Bound) : SameButDetails v { v with upperBound := some b } := rfl
  unfold applyModifier at hr
  split at hr
  · obtain rfl := Except.ok.inj hr
    rfl
  · split at hr
    · exact bounded_details scope l _ v w _ none hlower hr
    · exact bounded_details scope l _ v w _ _ hlower hr
    · cases hr
  · split at hr
    · exact bounded_details scope l _ v w _ none hupper hr
    · exact bounded_details scope l _ v w _ _ hupper hr
    · cases hr
  · split at hr
    · split at hr
      · obtain ⟨low, -, hr⟩ := bind_ok hr
        obtain ⟨high, -, hr⟩ := bind_ok hr
        obtain rfl := Except.ok.inj hr
        rfl
      · cases hr
    · cases hr
  · obtain ⟨values, -, hr⟩ := bind_ok hr
    obtain rfl := Except.ok.inj hr
    rfl

theorem fifth_details (v w : Variable) (t : Text) (hr : withFifth scope l v t = .ok w) :
    SameButDetails v w := by
  unfold withFifth at hr
  split at hr
  · obtain rfl := Except.ok.inj hr
    rfl
  · obtain ⟨text, -, hr⟩ := bind_ok hr
    obtain rfl := Except.ok.inj hr
    split
    · rfl
    · rfl

/-- A variable that is bound under a symbol has the symbol's display text for
a name, and no flag yet. -/
structure Named (s : Text) (v : Variable) : Prop where
  symbol : v.symbol = s
  name : scope.translations.get? s = some v.name
  notEstimable : v.isEstimable = false
  notAddressable : v.isAddressable = false

theorem named_details (symbol : Text) (v w : Variable) (h : Named scope symbol v)
    (hd : SameButDetails v w) : Named scope symbol w := by
  rw [SameButDetails] at hd
  rw [hd]
  exact { h with }

theorem translate_get (symbol name : Text) (h : scope.translate l symbol = .ok name) :
    scope.translations.get? symbol = some name := by
  rw [Scope.translate] at h
  split at h
  · rename_i text hget
    obtain rfl := Except.ok.inj h
    exact hget
  · cases h

theorem bound_named (kind : BindKind) (label member description value : Text) (v : Variable)
    (h : boundVariable scope l kind label member description value = .ok v) :
    Named scope label.trim v := by
  rw [boundVariable] at h
  split at h
  · obtain ⟨name, hname, h⟩ := bind_ok h
    obtain ⟨typeName, -, h⟩ := bind_ok h
    obtain rfl := Except.ok.inj h
    exact ⟨rfl, translate_get scope l label.trim name hname, rfl, rfl⟩
  · cases h

theorem bound_typed (kind : BindKind) (label member description value : Text) (v : Variable)
    (h : boundVariable scope l kind label member description value = .ok v) :
    v.member = memberName member ∧ TextMap.find? (memberName member) scope.members =
      some v.typeName := by
  rw [boundVariable] at h
  split at h
  · obtain ⟨name, -, h⟩ := bind_ok h
    obtain ⟨typeName, htype, h⟩ := bind_ok h
    obtain rfl := Except.ok.inj h
    refine ⟨rfl, ?_⟩
    rw [Scope.memberType] at htype
    split at htype
    · rename_i found hfound
      obtain rfl := Except.ok.inj htype
      exact hfound
    · cases htype
  · cases h

theorem bind_bound (arguments : List Text) (modifiers : List Modifier) (v : Variable)
    (h : bindVariable scope l arguments modifiers = .ok v) :
    ∃ label member description value more w,
      arguments = label :: member :: description :: value :: more ∧
      boundVariable scope l .parameter label member description value = .ok w ∧
      SameButDetails w v := by
  unfold bindVariable at h
  split at h
  · rename_i label member description value more
    split at h
    · obtain ⟨bound, hbound, h⟩ := bind_ok h
      obtain ⟨whole, hwhole, h⟩ := bind_ok h
      have hfifth := foldlM_kept (withFifth scope l) (SameButDetails bound) more
        (fun t _ u w hu hw => details_trans bound u w hu (fifth_details scope l u w t hw))
        bound whole rfl hwhole
      refine ⟨label, member, description, value, more, bound, rfl, hbound, ?_⟩
      exact foldlM_kept (applyModifier scope l) (SameButDetails bound) modifiers
        (fun m _ u w hu hw => details_trans bound u w hu (modifier_details scope l u w m hw))
        whole v hfifth h
    · cases h
  · cases h

theorem table_bound (arguments : List Text) (v : Variable)
    (h : tableVariable scope l arguments = .ok v) :
    ∃ label member description value flags,
      arguments = label :: member :: description :: value :: flags ∧
      boundVariable scope l .table label member description value = .ok v := by
  unfold tableVariable at h
  split at h
  · split at h
    · obtain ⟨-, -, h⟩ := bind_ok h
      exact ⟨_, _, _, _, _, rfl, h⟩
    · cases h
  · cases h

end binds

theorem binding_bound (p : Placed) (v : Variable) (h : binding scope p = some v) :
    ∃ kind label member description value w, p.statement.bound? = some label.trim ∧
      p.statement.member? = some (memberName member) ∧
      boundVariable scope p.location kind label member description value = .ok w ∧
      SameButDetails w v := by
  obtain ⟨s, l⟩ := p
  cases s with
  | bind template arguments modifiers =>
    obtain ⟨label, member, description, value, more, w, rfl, hw, hd⟩ :=
      bind_bound scope l arguments modifiers v (ok_some h)
    exact ⟨.parameter, label, member, description, value, w, rfl, rfl, hw, hd⟩
  | bindTable arguments =>
    obtain ⟨label, member, description, value, flags, rfl, hw⟩ :=
      table_bound scope l arguments v (ok_some h)
    exact ⟨.table, label, member, description, value, v, rfl, rfl, hw, rfl⟩
  | register arguments => cases h

theorem binding_named (p : Placed) (v : Variable) (h : binding scope p = some v) :
    p.statement.bound? = some v.symbol ∧ Named scope v.symbol v := by
  obtain ⟨kind, label, member, description, value, w, hbound, -, hw, hd⟩ :=
    binding_bound scope p v h
  have hv := named_details scope label.trim w v
    (bound_named scope p.location kind label member description value w hw) hd
  rw [hv.symbol]
  exact ⟨hbound, hv⟩

theorem binding_typed (p : Placed) (v : Variable) (h : binding scope p = some v) :
    p.statement.member? = some v.member ∧
      TextMap.find? v.member scope.members = some v.typeName := by
  obtain ⟨kind, label, member, description, value, w, -, hmember, hw, hd⟩ :=
    binding_bound scope p v h
  obtain ⟨hname, htype⟩ := bound_typed scope p.location kind label member description value w hw
  rw [← hname] at hmember htype
  rw [hd]
  exact ⟨hmember, htype⟩

theorem register_cases (l : Location) (own result : List Variable) (arguments : List Text)
    (h : register scope l own arguments = .ok result) :
    (Registration.of? scope.translations (.register arguments) = none ∧ result = own) ∨
      ∃ r, Registration.of? scope.translations (.register arguments) = some r ∧
        ((r.hasUsage = false ∧ result = registerEstimable scope r.symbol own) ∨
          (r.hasUsage = true ∧
            registerAddressable scope l r.symbol r.member own = .ok result)) := by
  unfold register at h
  split at h
  · obtain rfl := Except.ok.inj h
    exact Or.inl ⟨rfl, rfl⟩
  · split at h
    · rename_i hsymbol
      obtain rfl := Except.ok.inj h
      exact Or.inr ⟨_, if_pos hsymbol, Or.inl ⟨rfl, rfl⟩⟩
    · rename_i hsymbol
      obtain rfl := Except.ok.inj h
      exact Or.inl ⟨if_neg hsymbol, rfl⟩
  · split at h
    · rename_i hsymbol
      exact Or.inr ⟨_, if_pos hsymbol, Or.inr ⟨rfl, h⟩⟩
    · rename_i hsymbol
      obtain rfl := Except.ok.inj h
      exact Or.inl ⟨if_neg hsymbol, rfl⟩
  · cases h

/-- All that a statement can do to the variables before it. -/
theorem placed_cases (p : Placed) (own result : List Variable)
    (h : applyPlaced scope own p = .ok result) :
    (Registration.of? scope.translations p.statement = none ∧
        ∃ v, binding scope p = some v ∧ result = upsert own v) ∨
      (p.statement.bound? = none ∧
        ((Registration.of? scope.translations p.statement = none ∧ result = own) ∨
          ∃ r, Registration.of? scope.translations p.statement = some r ∧
            ((r.hasUsage = false ∧ result = registerEstimable scope r.symbol own) ∨
              (r.hasUsage = true ∧
                registerAddressable scope p.location r.symbol r.member own = .ok result)))) := by
  obtain ⟨s, l⟩ := p
  cases s with
  | bind template arguments modifiers =>
    obtain ⟨v, hv, rfl⟩ := map_ok h
    refine Or.inl ⟨rfl, v, ?_, rfl⟩
    simp only [binding, hv]
    rfl
  | bindTable arguments =>
    obtain ⟨v, hv, rfl⟩ := map_ok h
    refine Or.inl ⟨rfl, v, ?_, rfl⟩
    simp only [binding, hv]
    rfl
  | register arguments =>
    exact Or.inr ⟨rfl, register_cases scope l own result arguments h⟩

end Constructor

end ParameterManual
