import ParameterManual.Manual.Names
import ParameterManual.Proofs.Markup.Inert
import ParameterManual.Proofs.Text.Replacing

/-!
# Names of types in the manual

The command and the label of a type come from its name by steps that put inert
texts in the place of inert ones: a separator before a capital, a letter for
its capital, a replacement of the rules for what they replace. So the markup
of a name is in them what it is in the name.
-/

set_option autoImplicit false

namespace ParameterManual

namespace Text
open Markup

theorem upper_inert (c : Char) (h : isAsciiUpper c = true) : Inert [c] := by
  apply inert_char
  · rw [Bool.eq_false_iff]
    intro hs
    simp only [isSpecial, Bool.or_eq_true, beq_iff_eq] at hs
    rcases hs with (((rfl | rfl) | rfl) | rfl) | rfl <;> cases h
  · rintro rfl
    cases h

theorem high_inert (n : Nat) (h : 0x60 ≤ n) : Inert [Char.ofNat n] := by
  have hn : (Char.ofNat n).toNat = n ∨ (Char.ofNat n).toNat = 0 := by
    by_cases hv : n.isValidChar
    · left
      rw [Char.ofNat, dif_pos hv]
      rfl
    · right
      rw [Char.ofNat, dif_neg hv]
      rfl
  have hother (c : Char) (hc : 0 < c.toNat ∧ c.toNat < 0x60) : Char.ofNat n ≠ c := by
    rintro rfl
    omega
  apply inert_char
  · simp only [isSpecial, Bool.or_eq_false_iff, beq_eq_false_iff_ne]
    exact ⟨⟨⟨⟨hother _ (by decide), hother _ (by decide)⟩, hother _ (by decide)⟩,
      hother _ (by decide)⟩, hother _ (by decide)⟩
  · exact hother _ (by decide)

theorem above_ascii (c : Char) (h : ¬ c.toNat < 0x80) : Inert [c] := by
  have hc := high_inert c.toNat (by omega)
  rw [Char.ofNat_toNat] at hc
  exact hc

/-- A character stays as it is, or has an inert form in lower case and is
inert itself. -/
theorem lowerChar_cases (c : Char) :
    lowerChar c = [c] ∨ Inert [c] ∧ Inert (lowerChar c) := by
  rw [lowerChar]
  split
  · rw [asciiLowerChar]
    split
    · rename_i hupper
      have hrange : 'A' ≤ c := by
        rw [isAsciiUpper, Bool.and_eq_true, decide_eq_true_eq] at hupper
        exact hupper.1
      have hletter : 0x41 ≤ c.toNat := hrange
      exact Or.inr ⟨upper_inert c hupper, high_inert _ (by omega)⟩
    · exact Or.inl rfl
  · rename_i hc
    have hself := above_ascii c hc
    split
    · exact Or.inr ⟨hself, inert_append ['i'] _ (by decide) (by decide)⟩
    · split
      · rename_i run hrun
        have htable : ∀ run ∈ lowerRuns, 0x60 ≤ run.2.2.2 := by decide +kernel
        have hletter := htable run (List.mem_of_find?_eq_some hrun)
        exact Or.inr ⟨hself, high_inert _ (by omega)⟩
      · exact Or.inl rfl

theorem lower_alike (escaped : Bool) (before t : Text) :
    Alike escaped t (lowerAfter before t) := by
  induction t generalizing escaped before with
  | nil => exact alike_refl escaped []
  | cons c t ih =>
    rw [lowerAfter]
    split
    · rename_i hsigma
      subst hsigma
      split
      · exact alike_inert escaped ['Σ'] ['ς'] t _ (by decide) (by decide) (ih false _)
      · exact alike_inert escaped ['Σ'] ['σ'] t _ (by decide) (by decide) (ih false _)
    · rcases lowerChar_cases c with hself | ⟨hc, hlower⟩
      · rw [hself]
        exact alike_cons escaped c t _ (ih _ _)
      · exact alike_inert escaped [c] (lowerChar c) t _ hc hlower (ih false _)

theorem replace_alike (escaped : Bool) (old new t : Text) (hold : Inert old) (hnew : Inert new) :
    Alike escaped t (replaceAll old new t) := by
  cases old with
  | nil => exact absurd rfl hold.nonempty
  | cons a part =>
    rw [replaceAll]
    -- an occurrence takes the text forward by its whole length
    induction hlength : t.length using Nat.strong_induction_on generalizing escaped t with
    | _ n ih =>
      cases t with
      | nil => exact alike_refl escaped []
      | cons c t =>
        rw [List.length_cons] at hlength
        rcases replaceFrom_cases a part new c t with ⟨rest, hrest, hreplaced⟩ | hkept
        · have hshort := congrArg List.length hrest
          rw [List.length_append, List.length_cons, List.length_cons] at hshort
          rw [hreplaced, hrest]
          exact alike_inert escaped (a :: part) new rest _ hold hnew
            (ih rest.length (by omega) false rest rfl)
        · rw [hkept]
          exact alike_cons escaped c t _ (ih t.length (by omega) _ t rfl)

end Text

namespace Manual
open Markup

theorem split_alike (escaped : Bool) (separator : Text) (last : Option Char) (t : Text)
    (h : Inert separator) : Alike escaped t (splitCapitals separator last t) := by
  induction t generalizing escaped last with
  | nil => exact alike_refl escaped []
  | cons c t ih =>
    rw [splitCapitals]
    split
    · rename_i hcapital
      rw [Bool.and_eq_true] at hcapital
      have hc := Text.upper_inert c hcapital.1
      have hpiece := inert_append separator [c] h hc
      have halike := alike_inert escaped [c] (separator ++ [c]) t _ hc hpiece (ih false (some c))
      rw [List.append_assoc] at halike
      exact halike
    · exact alike_cons escaped c t _ (ih _ _)

def NameRule.Steady (rule : NameRule) : Prop := Inert rule.source ∧ Inert rule.target

instance : DecidablePred NameRule.Steady := fun rule =>
  inferInstanceAs (Decidable (Inert rule.source ∧ Inert rule.target))

theorem defaults_steady : ∀ rule ∈ NameRule.defaults, rule.Steady := by decide

section names
variable (rules : List NameRule) (h : ∀ rule ∈ rules, rule.Steady)
include h

theorem rules_alike (t : Text) : Alike false t (NameRule.applyAll rules t) := by
  induction rules generalizing t with
  | nil => exact alike_refl false t
  | cons rule rest ih =>
    have hrule := h rule (by simp)
    have hfirst := Text.replace_alike false rule.source rule.target t hrule.1 hrule.2
    exact alike_trans false t _ _ hfirst (ih (fun r hr => h r (by simp [hr])) _)

theorem label_alike (name : Text) : Alike false name (label rules name) :=
  alike_trans false name _ _ (split_alike false " ".toList none name (by decide))
    (rules_alike rules h _)

theorem command_alike (name : Text) : Alike false name (command rules name) := by
  have hsplit := split_alike false "\\_".toList none name (by decide)
  have hlower := Text.lower_alike false [] (splitCapitals "\\_".toList none name)
  exact alike_trans false name _ _ hsplit
    (alike_trans false _ _ _ hlower (rules_alike rules h _))

end names

end Manual

end ParameterManual
