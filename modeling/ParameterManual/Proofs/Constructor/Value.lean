import ParameterManual.Constructor.Extraction
import ParameterManual.Proofs.Source.Arguments

/-!
# Binds of literals

An argument that starts as a literal is neither a symbol nor a cast nor a
flag, so its value is what it spells. A bind of three such arguments makes a
variable of the three texts.
-/

set_option autoImplicit false

namespace ParameterManual.Constructor
open Source Text

variable {argument t : Text}

theorem spelled_literal (h : Spells argument t) : literalText argument = Markup.escape t := by
  rw [literalText, h.unquote]

theorem spelled_not_cast (h : Spells argument t) : withoutCast argument = argument := by
  obtain ⟨rest, hq⟩ := h.quoted
  subst hq
  simp [withoutCast, numericTypes, castArgument?, afterLead?]

theorem spelled_not_symbol (table : TranslationTable) (h : Spells argument t) :
    table.isSymbol argument = false := by
  obtain ⟨rest, hq⟩ := h.quoted
  have hname : argument.all isNameChar = false := by
    rw [hq, List.all_cons]
    rfl
  rw [TranslationTable.isSymbol, hname, Bool.and_false]

theorem spelled_not_boolean (h : Spells argument t) : booleanOf? argument = none := by
  obtain ⟨rest, hq⟩ := h.quoted
  rw [booleanOf?, trim_ink_self argument h.ink, hq]
  simp

theorem spelled_resolves (scope : Scope) (l : Location) (h : Spells argument t) :
    scope.resolve l argument = .ok (Markup.escape t) := by
  have hvalue : resolveValue scope.translations argument = .ok (Markup.escape t) := by
    rw [resolveValue, trim_ink_self argument h.ink, spelled_not_cast h,
      spelled_not_symbol scope.translations h, spelled_literal h]
    rfl
  rw [Scope.resolve, hvalue]

theorem escape_nil_iff (t : Text) : Markup.escape t = [] ↔ t = [] := by
  cases t with
  | nil => simp [Markup.escape, Markup.escapeText]
  | cons c t =>
    rw [Markup.escape, Markup.escapeText]
    split
    · simp
    · split
      · simp
      · split <;> simp

theorem symbol_names (table : TranslationTable) (symbol : Text)
    (h : table.isSymbol symbol = true) :
    symbol ≠ [] ∧ ∀ c ∈ symbol, isNameChar c = true := by
  obtain ⟨⟨hmark, hlead⟩, hall⟩ : (¬ table.symbolPrefix = [] ∧
      startsWith table.symbolPrefix symbol = true) ∧ ∀ c ∈ symbol, isNameChar c = true := by
    simpa [TranslationTable.isSymbol] using h
  refine ⟨?_, hall⟩
  rintro rfl
  obtain ⟨c, rest, hp⟩ := List.exists_cons_of_ne_nil hmark
  rw [hp] at hlead
  exact absurd hlead (by simp [startsWith, afterLead?])

theorem name_trim (name : Text) (h : ∀ c ∈ name, isNameChar c = true) : trim name = name := by
  by_cases hne : name = []
  · rw [hne]
    rfl
  · exact trim_ink_self name (ink_of_name name hne h)

theorem reference_ink (member : Text) (h : ∀ c ∈ member, isNameChar c = true) :
    Ink ('&' :: member) := by
  refine ink_of_solid _ (by simp) ?_
  rw [List.any_cons, Bool.or_eq_false_iff]
  exact ⟨rfl, by simpa using fun c hc => name_not_blank c (h c hc)⟩

theorem reference_names (member : Text) (h : ∀ c ∈ member, isNameChar c = true) :
    memberName ('&' :: member) = member := by
  have hdrop : member.dropWhile (· == '&') = member := by
    cases member with
    | nil => rfl
    | cons c rest =>
      have hc : c ≠ '&' := name_char_ne c '&' (h c (by simp)) rfl
      simp [hc]
  rw [memberName, trim_ink_self _ (reference_ink member h), List.dropWhile_cons_of_pos rfl,
    hdrop, name_trim member h]

def literalVariable (symbol member name typeName d e v : Text) : Variable :=
  { Variable.plain .parameter symbol member name typeName with
    description := Markup.escape d, value := Markup.escape e,
    default := if v = [] then none else some (Markup.escape v) }

theorem bind_spelled (scope : Scope) (l : Location) (symbol member name typeName d e v : Text)
    (description value default : Text) (hsymbol : scope.translations.isSymbol symbol = true)
    (hname : scope.translations.get? symbol = some name)
    (hmember : ∀ c ∈ member, isNameChar c = true)
    (htype : TextMap.find? member scope.members = some typeName)
    (hd : Spells description d) (he : Spells value e) (hv : Spells default v) :
    bindVariable scope l [symbol, '&' :: member, description, value, default] [] =
      .ok (literalVariable symbol member name typeName d e v) := by
  have hbound : boundVariable scope l .parameter symbol ('&' :: member) description value =
      .ok { Variable.plain .parameter symbol member name typeName with
        description := Markup.escape d, value := Markup.escape e } := by
    have htrim := name_trim symbol (symbol_names _ symbol hsymbol).2
    simp [boundVariable, htrim, hsymbol, Scope.translate, hname, reference_names member hmember,
      Scope.memberType, htype, spelled_literal hd, spelled_literal he]
    rfl
  have hfifth (u : Variable) : withFifth scope l u default =
      .ok { u with default := if v = [] then u.default else some (Markup.escape v) } := by
    have hflag : (if isContainer u.typeName = true then booleanOf? default else none) = none := by
      rw [spelled_not_boolean hv, ite_self]
    rw [withFifth, hflag]
    simp only [spelled_resolves scope l hv]
    change Except.ok (if Markup.escape v = [] then u else _) = _
    by_cases hnil : v = []
    · simp [hnil, (escape_nil_iff []).mpr rfl]
    · have hne : Markup.escape v ≠ [] := fun h => hnil ((escape_nil_iff v).mp h)
      simp [hnil, hne]
  rw [bindVariable]
  simp [hbound, hfifth]
  rfl

end ParameterManual.Constructor
