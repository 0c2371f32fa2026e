import ParameterManual.Proofs.Constructor.Abreast

/-!
# What a statement is blamed for

A statement is refused for a symbol without display text, for a member that
is not declared, or for its form. Where it stands plays no part in this and is
only told along, so the same statement elsewhere has the same result or is
refused for the same reason.
-/

set_option autoImplicit false

namespace ParameterManual

inductive Blame where
  | unknownSymbol (symbol : Text)
  | unknownMember (member className : Text)
  | malformed (what : Malformation)

def Blame.failure : Blame → Location → Failure
  | .unknownSymbol symbol, l => .unknownSymbol symbol l
  | .unknownMember member className, l => .unknownMember member className l
  | .malformed what, l => .malformed what l

namespace Constructor
open Source

inductive Moved (l m : Location) {α : Type} : Except Failure α → Except Failure α → Prop
  | ok (a : α) : Moved l m (.ok a) (.ok a)
  | error (b : Blame) : Moved l m (.error (b.failure l)) (.error (b.failure m))

variable {l m : Location}

theorem Moved.blame {α : Type} {x : Except Failure α} {f : Failure} (h : Moved l l x x)
    (hf : x = .error f) : ∃ b : Blame, f = b.failure l := by
  cases h with
  | ok a => cases hf
  | error b => exact ⟨b, (Except.error.inj hf).symm⟩

theorem moved_stepwise : Stepwise (@Moved l m) where
  ok := .ok
  bind := by
    intro α β x y f g h hf
    cases h with
    | ok a => exact hf a
    | error b => exact .error b

section readers
variable (scope : Scope) (l m : Location)

theorem translate_moved (symbol : Text) :
    Moved l m (scope.translate l symbol) (scope.translate m symbol) := by
  unfold Scope.translate
  cases scope.translations.get? symbol with
  | none => exact .error (.unknownSymbol symbol)
  | some text => exact .ok text

theorem memberType_moved (member : Text) :
    Moved l m (scope.memberType l member) (scope.memberType m member) := by
  unfold Scope.memberType
  cases TextMap.find? member scope.members with
  | none => exact .error (.unknownMember member scope.className)
  | some typeName => exact .ok typeName

theorem moved_abreast : Abreast (@Moved l m) scope scope l m where
  stepwise := moved_stepwise
  symbols := fun _ => rfl
  members := rfl
  inherited := rfl
  translate := translate_moved scope l m
  memberType := memberType_moved scope l m
  malformed := fun what => .error (.malformed what)

theorem collected_moved (own : List Variable) (text : Text) :
    Moved l m (applyCollected scope own ⟨text, l⟩) (applyCollected scope own ⟨text, m⟩) :=
  collected_abreast (moved_abreast scope l m) own text

end readers

end Constructor

end ParameterManual
