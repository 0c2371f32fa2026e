import ParameterManual.Proofs.Markup.Joining

/-!
# Inert texts

An inert text is escaped and has neither a dollar sign that counts nor a
backslash at its end. It closes off what stands before it, and it can be put in
the place of another: texts that differ by inert pieces only have the same
inline math, and one of them is escaped exactly if the other is.
-/

set_option autoImplicit false

namespace ParameterManual.Markup

structure Inert (t : Text) : Prop where
  nonempty : t ≠ []
  escaped : Escaped t
  undelimited : hasDelimiter false t = false
  ends : after false t = false

instance : DecidablePred Inert := fun t =>
  decidable_of_iff
    (t ≠ [] ∧ Escaped t ∧ hasDelimiter false t = false ∧ after false t = false)
    ⟨fun ⟨hn, he, hd, ha⟩ => ⟨hn, he, hd, ha⟩,
      fun h => ⟨h.nonempty, h.escaped, h.undelimited, h.ends⟩⟩

theorem inert_separate (t : Text) (h : Inert t) : Separate t :=
  ⟨undelimited_closed false t h.undelimited, h.ends⟩

theorem inert_append (t more : Text) (h : Inert t) (hmore : Inert more) : Inert (t ++ more) where
  nonempty := List.append_ne_nil_of_left_ne_nil h.nonempty more
  escaped := (escaped_append t more (inert_separate t h)).mpr ⟨h.escaped, hmore.escaped⟩
  undelimited := by rw [delimiter_append, h.undelimited, h.ends, hmore.undelimited, Bool.or_self]
  ends := (separate_append t more (inert_separate t h) (inert_separate more hmore)).ends

theorem inert_char (c : Char) (hs : isSpecial c = false) (hc : c ≠ '\\') : Inert [c] := by
  have hd : c ≠ '$' := by
    rintro rfl
    cases hs
  constructor
  · exact List.cons_ne_nil c []
  · simp [Escaped, escape, escapeText, hasDelimiter, hs]
  · simp [hasDelimiter, hd]
  · exact beq_eq_false_iff_ne.mpr hc

section inert
variable (escaped : Bool) (t rest : Text)

theorem inert_delimiter (h : Inert t) :
    hasDelimiter escaped (t ++ rest) = hasDelimiter false rest := by
  cases t with
  | nil => exact absurd rfl h.nonempty
  | cons c t =>
    have hends := h.ends
    have hnone := h.undelimited
    rw [after_cons] at hends
    rw [hasDelimiter, Bool.or_eq_false_iff] at hnone
    rw [List.cons_append, hasDelimiter, delimiter_append, hends, hnone.2, Bool.false_or]
    have hfirst : (c == '$' && !escaped) = false := by
      cases escaped with
      | false => exact hnone.1
      | true => exact Bool.and_false _
    rw [hfirst, Bool.false_or]

theorem inert_text (h : Inert t) : escapeText escaped (t ++ rest) = t ++ escapeText false rest := by
  have hself : escapeText false (t ++ rest) = t ++ escapeText false rest := by
    rw [undelimited_closed false t h.undelimited rest, h.ends]
    exact congrArg (· ++ _) h.escaped
  cases escaped with
  | false => exact hself
  | true =>
    -- the first character stays as it is, so nothing turns on what was before it
    cases t with
    | nil => exact absurd rfl h.nonempty
    | cons c t =>
      have hd : c ≠ '$' := by
        rintro rfl
        cases h.undelimited
      have hs : isSpecial c = false := by
        cases hs : isSpecial c with
        | false => rfl
        | true =>
          have hkept := h.escaped
          rw [Escaped, escape, text_special c t hs (fun hc => absurd hc hd)] at hkept
          exact absurd (List.cons.inj hkept).1.symm (special_plain c hs)
      rw [← hself, List.cons_append, text_escaped, text_plain c _ hs]

theorem undelimited_math (h : hasDelimiter escaped t = false) :
    escapeMath escaped (t ++ rest) = t ++ escapeMath (after escaped t) rest := by
  induction t generalizing escaped with
  | nil => rfl
  | cons c t ih =>
    rw [hasDelimiter, Bool.or_eq_false_iff] at h
    have hopen : ¬ (c = '$' ∧ escaped = false) := by
      rintro ⟨rfl, rfl⟩
      cases h.1
    rw [List.cons_append, math_other c _ escaped hopen, ih _ h.2, after_cons, List.cons_append]

theorem inert_after (h : Inert t) : after escaped t = false := by
  cases t with
  | nil => exact absurd rfl h.nonempty
  | cons c t => exact h.ends

theorem inert_math (h : Inert t) : escapeMath escaped (t ++ rest) = t ++ escapeMath false rest := by
  have hnone : hasDelimiter escaped t = false := by
    have hd := inert_delimiter escaped t [] h
    rw [List.append_nil] at hd
    exact hd
  rw [undelimited_math escaped t rest hnone, inert_after escaped t h]

theorem inert_kept (h : Inert t) : escapeText escaped t = t := by
  have hself := inert_text escaped t [] h
  rw [List.append_nil, escapeText, List.append_nil] at hself
  exact hself

theorem inert_closed (h : Inert t) : Closed escaped t :=
  kept_closed escaped t (inert_kept escaped t h)

end inert

section enclosed
variable (t last : Text) (h : Closed false t) (hlast : Inert last)
include h hlast

/-- An inert text ends whatever a backslash before it began. -/
theorem separate_ended : Separate (t ++ last) where
  closed := closed_append false t last h (inert_closed _ last hlast)
  ends := by rw [after_append, inert_after _ last hlast]

theorem escaped_ended : Escaped (t ++ last) ↔ Escaped t :=
  (kept_append false t last h).trans (and_iff_left (inert_kept _ last hlast))

variable (first : Text) (hfirst : Inert first)
include hfirst

theorem separate_enclosed : Separate (first ++ (t ++ last)) :=
  separate_append first _ (inert_separate first hfirst) (separate_ended t last h hlast)

theorem escaped_enclosed : Escaped (first ++ (t ++ last)) ↔ Escaped t := by
  rw [escaped_append first _ (inert_separate first hfirst), escaped_ended t last h hlast]
  exact and_iff_right hfirst.escaped

end enclosed

/-- The same inline math opens and closes in two texts, and one needs no
backslashes exactly if the other needs none. -/
structure Alike (escaped : Bool) (t u : Text) : Prop where
  delimiter : hasDelimiter escaped t = hasDelimiter escaped u
  text : escapeText escaped t = t ↔ escapeText escaped u = u
  math : escapeMath escaped t = t ↔ escapeMath escaped u = u

theorem alike_refl (escaped : Bool) (t : Text) : Alike escaped t t := ⟨rfl, Iff.rfl, Iff.rfl⟩

theorem alike_trans (escaped : Bool) (t u v : Text) (h : Alike escaped t u)
    (h' : Alike escaped u v) : Alike escaped t v :=
  ⟨h.delimiter.trans h'.delimiter, h.text.trans h'.text, h.math.trans h'.math⟩

theorem alike_cons (escaped : Bool) (c : Char) (t u : Text) (h : Alike (c == '\\') t u) :
    Alike escaped (c :: t) (c :: u) := by
  constructor
  · rw [hasDelimiter, hasDelimiter, h.delimiter]
  · cases escaped with
    | true =>
      rw [text_escaped, text_escaped]
      simp only [List.cons.injEq, true_and, h.text]
    | false =>
      by_cases hopen : c = '$' ∧ hasDelimiter false t = true
      · obtain ⟨rfl, hd⟩ := hopen
        rw [text_opens t hd, text_opens u (h.delimiter ▸ hd)]
        simp only [List.cons.injEq, true_and]
        exact h.math
      · cases hs : isSpecial c with
        | false =>
          rw [text_plain c t hs, text_plain c u hs]
          simp only [List.cons.injEq, true_and, h.text]
        | true =>
          -- a backslash is put before the character in both
          have hfirst : c = '$' → hasDelimiter false t = false :=
            fun hc => Bool.eq_false_iff.mpr (fun hd => hopen ⟨hc, hd⟩)
          have hlast : c = '$' → hasDelimiter false u = false := by
            rintro rfl
            exact h.delimiter ▸ hfirst rfl
          have hne : '\\' ≠ c := (special_plain c hs).symm
          rw [text_special c t hs hfirst, text_special c u hs hlast]
          simp [hne]
  · by_cases hclose : c = '$' ∧ escaped = false
    · obtain ⟨rfl, rfl⟩ := hclose
      rw [math_closes, math_closes]
      simp only [List.cons.injEq, true_and]
      exact h.text
    · rw [math_other c t escaped hclose, math_other c u escaped hclose]
      simp only [List.cons.injEq, true_and, h.math]

theorem alike_inert (escaped : Bool) (v w t u : Text) (hv : Inert v) (hw : Inert w)
    (h : Alike false t u) : Alike escaped (v ++ t) (w ++ u) := by
  constructor
  · rw [inert_delimiter escaped v t hv, inert_delimiter escaped w u hw, h.delimiter]
  · rw [inert_text escaped v t hv, inert_text escaped w u hw, List.append_cancel_left_eq,
      List.append_cancel_left_eq, h.text]
  · rw [inert_math escaped v t hv, inert_math escaped w u hw, List.append_cancel_left_eq,
      List.append_cancel_left_eq, h.math]

end ParameterManual.Markup
