import ParameterManual.Proofs.Constructor.Documented
import ParameterManual.Proofs.Translation

/-!
# Variables ready for the manual

Every text of a variable that goes to the manual is escaped where it is read:
the display text of a symbol by its table, a literal, cast or other argument
when it is resolved. So a constructor documents variables whose texts are as
they stand in the manual.
-/

set_option autoImplicit false

namespace ParameterManual
open Markup

/-- All texts of a variable that are rendered stand as they are. -/
structure Variable.Ready (v : Variable) : Prop where
  name : Escaped v.name
  description : Escaped v.description
  value : Escaped v.value
  default : ∀ t ∈ v.default, Escaped t
  lowerBound : ∀ b ∈ v.lowerBound, Escaped b.value
  upperBound : ∀ b ∈ v.upperBound, Escaped b.value
  allowedValues : ∀ values ∈ v.allowedValues, ∀ t ∈ values, Escaped t

theorem Variable.plain_ready (kind : BindKind) (symbol member name typeName : Text)
    (h : Escaped name) : (plain kind symbol member name typeName).Ready :=
  ⟨h, nil_escaped, nil_escaped, by simp [plain], by simp [plain], by simp [plain], by simp [plain]⟩

theorem Variable.synthetic_ready (symbol name description : Text) (hn : Escaped name)
    (hd : Escaped description) : (synthetic symbol name description).Ready :=
  { plain_ready .synthetic symbol [] name "string".toList hn with description := hd }

theorem Variable.unnamed_ready (v : Variable) (h : v.Ready) : ({ v with name := [] }).Ready :=
  { h with name := nil_escaped }

namespace Constructor

variable (scope : Scope) (l : Location)

theorem literal_escaped (t : Text) : Escaped (literalText t) := escape_escaped _

theorem translate_escaped (symbol text : Text) (h : scope.translations.Filled)
    (hr : scope.translate l symbol = .ok text) : Escaped text := by
  rw [Scope.translate] at hr
  split at hr
  · rename_i found hget
    obtain rfl := Except.ok.inj hr
    exact TranslationTable.filled_displayed scope.translations h symbol found hget
  · cases hr

theorem resolve_escaped (t text : Text) (h : scope.translations.Filled)
    (hr : scope.resolve l t = .ok text) : Escaped text := by
  rw [Scope.resolve] at hr
  split at hr
  · rename_i found hvalue
    obtain rfl := Except.ok.inj hr
    rw [resolveValue] at hvalue
    split at hvalue
    · split at hvalue
      · rename_i shown hget
        obtain rfl := Except.ok.inj hvalue
        exact TranslationTable.filled_displayed scope.translations h _ shown hget
      · cases hvalue
    · obtain rfl := Except.ok.inj hvalue
      exact literal_escaped _
  · cases hr

theorem bound_escaped (value : Text) (flag : Option Text) (b : Bound)
    (h : scope.translations.Filled) (hr : boundOf scope l value flag = .ok b) :
    Escaped b.value := by
  obtain ⟨text, htext, hr⟩ := bind_ok hr
  obtain ⟨inclusive, -, hr⟩ := bind_ok hr
  obtain rfl := Except.ok.inj hr
  exact resolve_escaped scope l value text h htext

theorem bounded_ready (bounded : Bound → Variable) (w : Variable) (value : Text)
    (flag : Option Text) (h : scope.translations.Filled)
    (hb : ∀ b, Escaped b.value → (bounded b).Ready)
    (hr : (do return bounded (← boundOf scope l value flag)) = Except.ok w) : w.Ready := by
  obtain ⟨b, hbound, hr⟩ := bind_ok hr
  obtain rfl := Except.ok.inj hr
  exact hb b (bound_escaped scope l value flag b h hbound)

theorem modifier_ready (v w : Variable) (m : Modifier) (h : scope.translations.Filled)
    (hv : v.Ready) (hr : applyModifier scope l v m = .ok w) : w.Ready := by
  have hlower (b : Bound) (hb : Escaped b.value) : ({ v with lowerBound := some b }).Ready :=
    { hv with lowerBound := by simpa using hb }
  have hupper (b : Bound) (hb : Escaped b.value) : ({ v with upperBound := some b }).Ready :=
    { hv with upperBound := by simpa using hb }
  unfold applyModifier at hr
  split at hr
  · obtain rfl := Except.ok.inj hr
    exact hv
  · split at hr
    · exact bounded_ready scope l _ w _ none h hlower hr
    · exact bounded_ready scope l _ w _ _ h hlower hr
    · cases hr
  · split at hr
    · exact bounded_ready scope l _ w _ none h hupper hr
    · exact bounded_ready scope l _ w _ _ h hupper hr
    · cases hr
  · split at hr
    · split at hr
      · obtain ⟨low, hlow, hr⟩ := bind_ok hr
        obtain ⟨high, hhigh, hr⟩ := bind_ok hr
        obtain rfl := Except.ok.inj hr
        have hbelow := hlower low (bound_escaped scope l _ _ low h hlow)
        have habove := hupper high (bound_escaped scope l _ _ high h hhigh)
        exact { hbelow with upperBound := habove.upperBound }
      · cases hr
    · cases hr
  · obtain ⟨values, hvalues, hr⟩ := bind_ok hr
    obtain rfl := Except.ok.inj hr
    have hall : ∀ t ∈ values, Escaped t := by
      intro t ht
      obtain ⟨argument, -, hresolve⟩ := mem_mapM (scope.resolve l) _ values hvalues t ht
      exact resolve_escaped scope l argument t h hresolve
    exact { hv with allowedValues := by simpa using hall }

theorem bound_ready (kind : BindKind) (label member description value : Text) (v : Variable)
    (h : scope.translations.Filled)
    (hr : boundVariable scope l kind label member description value = .ok v) : v.Ready := by
  rw [boundVariable] at hr
  split at hr
  · obtain ⟨name, hname, hr⟩ := bind_ok hr
    obtain ⟨typeName, -, hr⟩ := bind_ok hr
    obtain rfl := Except.ok.inj hr
    have hplain := Variable.plain_ready kind label.trim (memberName member) name typeName
      (translate_escaped scope l label.trim name h hname)
    exact { hplain with
      description := literal_escaped description, value := literal_escaped value }
  · cases hr

theorem fifth_ready (v w : Variable) (t : Text) (h : scope.translations.Filled) (hv : v.Ready)
    (hr : withFifth scope l v t = .ok w) : w.Ready := by
  unfold withFifth at hr
  split at hr
  · obtain rfl := Except.ok.inj hr
    exact { hv with }
  · obtain ⟨text, htext, hr⟩ := bind_ok hr
    obtain rfl := Except.ok.inj hr
    have hescaped := resolve_escaped scope l t text h htext
    split
    · exact hv
    · exact { hv with default := by simpa using hescaped }

theorem bind_ready (arguments : List Text) (modifiers : List Modifier) (v : Variable)
    (h : scope.translations.Filled) (hr : bindVariable scope l arguments modifiers = .ok v) :
    v.Ready := by
  unfold bindVariable at hr
  split at hr
  · rename_i label member description value more
    split at hr
    · obtain ⟨bound, hbound, hr⟩ := bind_ok hr
      obtain ⟨whole, hwhole, hr⟩ := bind_ok hr
      have hready := bound_ready scope l .parameter label member description value bound h hbound
      have hfifth := foldlM_kept (withFifth scope l) Variable.Ready more
        (fun t _ u w hu hw => fifth_ready scope l u w t h hu hw) bound whole hready hwhole
      exact foldlM_kept (applyModifier scope l) Variable.Ready modifiers
        (fun m _ u w hu hw => modifier_ready scope l u w m h hu hw) whole v hfifth hr
    · cases hr
  · cases hr

theorem table_ready (arguments : List Text) (v : Variable) (h : scope.translations.Filled)
    (hr : tableVariable scope l arguments = .ok v) : v.Ready := by
  unfold tableVariable at hr
  split at hr
  · split at hr
    · obtain ⟨-, -, hr⟩ := bind_ok hr
      exact bound_ready scope l .table _ _ _ _ v h hr
    · cases hr
  · cases hr

theorem documents_ready (h : scope.translations.Filled) (hi : ∀ e ∈ scope.inherited, e.2.Ready) :
    Documents scope Variable.Ready where
  bound := fun l arguments modifiers v hr => bind_ready scope l arguments modifiers v h hr
  table := fun l arguments v hr => table_ready scope l arguments v h hr
  placeholder := fun l symbol member name typeName hr =>
    { Variable.plain_ready .placeholder symbol member name typeName
        (translate_escaped scope l symbol name h hr) with }
  estimable := fun _ hv => { hv with }
  addressable := fun _ hv => { hv with }
  inherited := hi

end Constructor

end ParameterManual
