import ParameterManual.Constructor.Extraction

/-!
# Statements in two readings

A statement is taken in steps: a symbol is translated, a member is looked up,
and a form is refused. A relation between results that these steps give, and
that steps in turn keep, is one between what the whole statement comes to in
two scopes at two places.
-/

set_option autoImplicit false

namespace ParameterManual.Constructor
open Source

/-- A relation between results that successful steps give and steps in turn
keep. -/
structure Stepwise (R : ∀ {α : Type}, Except Failure α → Except Failure α → Prop) : Prop where
  ok : ∀ {α : Type} (a : α), R (.ok a) (.ok a)
  bind : ∀ {α β : Type} {x y : Except Failure α} {f g : α → Except Failure β},
    R x y → (∀ a, R (f a) (g a)) → R (x >>= f) (y >>= g)

section steps
variable {R : ∀ {α : Type}, Except Failure α → Except Failure α → Prop} (hR : Stepwise @R)
variable {α β : Type}
include hR

theorem Stepwise.map {x y : Except Failure α} (f : α → β) (h : R x y) :
    R (f <$> x) (f <$> y) := by
  have hbind (z : Except Failure α) : f <$> z = z >>= fun a => .ok (f a) := by
    cases z with
    | error e => rfl
    | ok a => rfl
  rw [hbind, hbind]
  exact hR.bind h (fun a => hR.ok (f a))

theorem Stepwise.mapM (f g : α → Except Failure β) (list : List α) (h : ∀ a, R (f a) (g a)) :
    R (list.mapM f) (list.mapM g) := by
  induction list with
  | nil => exact hR.ok []
  | cons a rest ih =>
    rw [List.mapM_cons, List.mapM_cons]
    exact hR.bind (h a) (fun b => hR.bind ih (fun others => hR.ok (b :: others)))

theorem Stepwise.foldlM (f g : β → α → Except Failure β) (list : List α)
    (h : ∀ b a, R (f b a) (g b a)) (start : β) : R (list.foldlM f start) (list.foldlM g start) := by
  induction list generalizing start with
  | nil => exact hR.ok start
  | cons a rest ih =>
    rw [List.foldlM_cons, List.foldlM_cons]
    exact hR.bind (h start a) ih

theorem Stepwise.forM (f g : α → Except Failure PUnit) (list : List α) (h : ∀ a, R (f a) (g a)) :
    R (list.forM f) (list.forM g) := by
  induction list with
  | nil => exact hR.ok ()
  | cons a rest ih => exact hR.bind (h a) (fun _ => ih)

end steps

/-- Two scopes that see the same members and variables and know the same
symbols, each read at a place of its own: what they give at a step is
related. -/
structure Abreast (R : ∀ {α : Type}, Except Failure α → Except Failure α → Prop)
    (scope other : Scope) (l m : Location) : Prop where
  stepwise : Stepwise @R
  symbols : ∀ token, other.translations.isSymbol token = scope.translations.isSymbol token
  members : other.members = scope.members
  inherited : other.inherited = scope.inherited
  translate : ∀ symbol, R (scope.translate l symbol) (other.translate m symbol)
  memberType : ∀ member, R (scope.memberType l member) (other.memberType m member)
  malformed : ∀ {α : Type} (what : Malformation),
    R (α := α) (.error (.malformed what l)) (.error (.malformed what m))

theorem resolve_translates (scope : Scope) (l : Location) (t : Text) :
    scope.resolve l t =
      if scope.translations.isSymbol (withoutCast t.trim) then
        scope.translate l (withoutCast t.trim)
      else .ok (literalText (withoutCast t.trim)) := by
  simp only [Scope.resolve, resolveValue, Scope.translate]
  by_cases hs : scope.translations.isSymbol (withoutCast t.trim) = true
  · rw [if_pos hs, if_pos hs]
    cases scope.translations.get? (withoutCast t.trim) with
    | none => rfl
    | some text => rfl
  · rw [if_neg hs, if_neg hs]

section readers
variable {R : ∀ {α : Type}, Except Failure α → Except Failure α → Prop}
variable {scope other : Scope} {l m : Location} (h : Abreast @R scope other l m)
include h

theorem resolve_abreast (t : Text) : R (scope.resolve l t) (other.resolve m t) := by
  rw [resolve_translates, resolve_translates, h.symbols]
  split
  · exact h.translate _
  · exact h.stepwise.ok _

theorem boolean_abreast (t : Text) : R (boolean l t) (boolean m t) := by
  unfold boolean
  cases booleanOf? t with
  | none => exact h.malformed (.notBoolean t.trim)
  | some b => exact h.stepwise.ok b

theorem inclusiveFlag_abreast (flag : Option Text) :
    R (inclusiveFlag l flag) (inclusiveFlag m flag) := by
  cases flag with
  | none => exact h.stepwise.ok true
  | some t => exact boolean_abreast h t

theorem boundOf_abreast (value : Text) (flag : Option Text) :
    R (boundOf scope l value flag) (boundOf other m value flag) := by
  unfold boundOf
  exact h.stepwise.bind (resolve_abreast h value)
    (fun text => h.stepwise.bind (inclusiveFlag_abreast h flag)
      (fun inclusive => h.stepwise.ok _))

theorem modifier_abreast (v : Variable) (modifier : Modifier) :
    R (applyModifier scope l v modifier) (applyModifier other m v modifier) := by
  have hbound (bounded : Bound → Variable) (value : Text) (flag : Option Text) :=
    h.stepwise.bind (boundOf_abreast h value flag) (fun b => h.stepwise.ok (bounded b))
  have harity (least most : Nat) : R (α := Variable) (.error (modifierArity l modifier least most))
      (.error (modifierArity m modifier least most)) :=
    h.malformed (.modifierArity modifier.name least most modifier.arguments.length)
  unfold applyModifier
  cases ModifierKind.ofName? modifier.name with
  | none => exact h.stepwise.ok v
  | some kind =>
    cases kind with
    | lowerBound =>
      dsimp only
      split
      · exact hbound _ _ none
      · exact hbound _ _ _
      · exact harity 1 2
    | upperBound =>
      dsimp only
      split
      · exact hbound _ _ none
      · exact hbound _ _ _
      · exact harity 1 2
    | range =>
      dsimp only
      split
      · split
        · exact h.stepwise.bind (boundOf_abreast h _ _) (fun b => hbound _ _ _)
        · exact harity 2 4
      · exact harity 2 4
    | allowedValues =>
      exact h.stepwise.bind (h.stepwise.mapM _ _ _ (resolve_abreast h))
        (fun values => h.stepwise.ok _)

theorem boundVariable_abreast (kind : BindKind) (label member description value : Text) :
    R (boundVariable scope l kind label member description value)
      (boundVariable other m kind label member description value) := by
  unfold boundVariable
  dsimp only
  rw [h.symbols]
  split
  · exact h.stepwise.bind (h.translate _)
      (fun name => h.stepwise.bind (h.memberType _) (fun typeName => h.stepwise.ok _))
  · exact h.malformed (.labelNotSymbol label.trim)

theorem withFifth_abreast (v : Variable) (t : Text) :
    R (withFifth scope l v t) (withFifth other m v t) := by
  unfold withFifth
  split
  · exact h.stepwise.ok _
  · exact h.stepwise.bind (resolve_abreast h t) (fun value => h.stepwise.ok _)

theorem bindVariable_abreast (arguments : List Text) (modifiers : List Modifier) :
    R (bindVariable scope l arguments modifiers) (bindVariable other m arguments modifiers) := by
  unfold bindVariable
  split
  · split
    · exact h.stepwise.bind (boundVariable_abreast h _ _ _ _ _)
        (fun v => h.stepwise.bind (h.stepwise.foldlM _ _ _ (withFifth_abreast h) v)
          (h.stepwise.foldlM _ _ modifiers (modifier_abreast h)))
    · exact h.malformed (.bindArity _)
  · exact h.malformed (.bindArity _)

theorem tableVariable_abreast (arguments : List Text) :
    R (tableVariable scope l arguments) (tableVariable other m arguments) := by
  unfold tableVariable
  split
  · split
    · exact h.stepwise.bind
        (h.stepwise.forM _ _ _ (fun flag => h.stepwise.map (fun _ => ()) (boolean_abreast h flag)))
        (fun _ => boundVariable_abreast h _ _ _ _ _)
    · exact h.malformed (.tableArity _)
  · exact h.malformed (.tableArity _)

theorem withInherited_abreast (symbol : Text) (own : List Variable) :
    withInherited other symbol own = withInherited scope symbol own := by
  rw [withInherited, withInherited, h.inherited]

theorem register_abreast (own : List Variable) (arguments : List Text) :
    R (register scope l own arguments) (register other m own arguments) := by
  unfold register
  split
  · exact h.stepwise.ok own
  · rw [h.symbols]
    split
    · rw [registerEstimable, registerEstimable, withInherited_abreast h]
      exact h.stepwise.ok _
    · exact h.stepwise.ok own
  · rw [h.symbols]
    split
    · unfold registerAddressable
      dsimp only
      rw [withInherited_abreast h, h.members]
      split
      · exact h.stepwise.ok _
      · exact h.stepwise.bind (h.translate _) (fun name => h.stepwise.ok _)
    · exact h.stepwise.ok own
  · exact h.malformed (.registrationArity _)

theorem statement_abreast (own : List Variable) (s : Statement) :
    R (applyStatement scope l own s) (applyStatement other m own s) := by
  cases s with
  | bind template arguments modifiers =>
    exact h.stepwise.map (upsert own) (bindVariable_abreast h arguments modifiers)
  | bindTable arguments => exact h.stepwise.map (upsert own) (tableVariable_abreast h arguments)
  | register arguments => exact register_abreast h own arguments

theorem collected_abreast (own : List Variable) (text : Text) :
    R (applyCollected scope own ⟨text, l⟩) (applyCollected other own ⟨text, m⟩) := by
  unfold applyCollected
  dsimp only
  cases Statement.parse text with
  | error what => exact h.malformed what
  | ok found =>
    cases found with
    | none => exact h.stepwise.ok own
    | some s => exact statement_abreast h own s

end readers

end ParameterManual.Constructor
