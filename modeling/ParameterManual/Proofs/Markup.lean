import ParameterManual.Markup

/-!
# Escaping escaped text

Escaping puts a backslash in front of each special character that needs one
and leaves inline math alone. Its result needs no more backslashes, and the
dollar signs that pair up in it are those that paired up before.
-/

set_option autoImplicit false

namespace ParameterManual.Markup

/-- Text as it stands in the manual: escaping leaves it unchanged. -/
def Escaped (t : Text) : Prop := escape t = t

instance : DecidablePred Escaped := fun t => inferInstanceAs (Decidable (escape t = t))

theorem special_plain (c : Char) (h : isSpecial c = true) : c ≠ '\\' := by
  rintro rfl
  simp [isSpecial] at h

theorem delimiter_rest (c : Char) (t : Text) (escaped : Bool) (h : ¬ (c = '$' ∧ escaped = false)) :
    hasDelimiter escaped (c :: t) = hasDelimiter (c == '\\') t := by
  have hself : (c == '$' && !escaped) = false := by simpa using h
  rw [hasDelimiter, hself, Bool.false_or]

theorem delimiter_kept (escaped : Bool) (t : Text) (h : hasDelimiter escaped t = true) :
    hasDelimiter escaped (escapeMath escaped t) = true := by
  induction t generalizing escaped with
  | nil => simp [hasDelimiter] at h
  | cons c t ih =>
    rw [escapeMath]
    by_cases hclose : c = '$' ∧ escaped = false
    · obtain ⟨rfl, rfl⟩ := hclose
      simp [hasDelimiter]
    · rw [delimiter_rest c t escaped hclose] at h
      rw [if_neg hclose, delimiter_rest c _ escaped hclose, ih (c == '\\') h]

/-- A text is in text or in math from its first character on; either way a
second pass meets the character that the first one kept, in the same state. -/
theorem escape_parts_twice (t : Text) (escaped : Bool) :
    escapeText escaped (escapeText escaped t) = escapeText escaped t ∧
      escapeMath escaped (escapeMath escaped t) = escapeMath escaped t := by
  induction t generalizing escaped with
  | nil => exact ⟨rfl, rfl⟩
  | cons c t ih =>
    constructor
    · rw [escapeText]
      by_cases he : escaped = true
      · rw [if_pos he, escapeText, if_pos he, (ih _).1]
      · rw [if_neg he]
        by_cases hopen : c = '$' ∧ hasDelimiter false t = true
        · have hkept := delimiter_kept false t hopen.2
          rw [if_pos hopen, escapeText, if_neg he, if_pos ⟨hopen.1, hkept⟩, (ih _).2]
        · rw [if_neg hopen]
          by_cases hspecial : isSpecial c = true
          · -- the backslash that was put in front makes the character stand for itself
            have hc := special_plain c hspecial
            rw [if_pos hspecial, escapeText, if_neg he, if_neg (by simp),
              if_neg (by simp [isSpecial]), beq_self_eq_true, escapeText, if_pos rfl,
              beq_eq_false_iff_ne.mpr hc, (ih _).1]
          · have hc : c ≠ '$' := by
              rintro rfl
              simp [isSpecial] at hspecial
            rw [if_neg hspecial, escapeText, if_neg he, if_neg (fun h => hc h.1),
              if_neg hspecial, (ih _).1]
    · rw [escapeMath]
      by_cases hclose : c = '$' ∧ escaped = false
      · rw [if_pos hclose, escapeMath, if_pos hclose, (ih _).1]
      · rw [if_neg hclose, escapeMath, if_neg hclose, (ih _).2]

theorem escape_escaped (t : Text) : Escaped (escape t) := (escape_parts_twice t false).1

theorem nil_escaped : Escaped [] := rfl

end ParameterManual.Markup
