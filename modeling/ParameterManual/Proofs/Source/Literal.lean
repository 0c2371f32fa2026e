import ParameterManual.Source.Argument

/-!
# Texts written as string literals

A text is written between double quotes, with a backslash before each double
quote and each backslash in it. Read back, alone or next to other literals,
it is the text again, and nothing of it lies outside the literal.
-/

set_option autoImplicit false

namespace ParameterManual.Source

def escapedChar (c : Char) : Text := if c = '"' ∨ c = '\\' then ['\\', c] else [c]

def literal (t : Text) : Text := '"' :: (t.flatMap escapedChar ++ ['"'])

theorem inside_escaped (t : Text) :
    (Quoting.inside '"' false).after (t.flatMap escapedChar) = .inside '"' false ∧
      (Quoting.inside '"' false).bare (t.flatMap escapedChar) = [] := by
  induction t with
  | nil => exact ⟨rfl, rfl⟩
  | cons c t ih =>
    have hc : (Quoting.inside '"' false).after (escapedChar c) = .inside '"' false ∧
        (Quoting.inside '"' false).bare (escapedChar c) = [] := by
      by_cases h : c = '"' ∨ c = '\\'
      · simp [escapedChar, h, Quoting.after, Quoting.next, Quoting.bare, Quoting.covers]
      · have hq : c ≠ '"' ∧ c ≠ '\\' := by simpa [not_or] using h
        simp [escapedChar, hq.1, hq.2, Quoting.after, Quoting.next, Quoting.bare, Quoting.covers]
    rw [List.flatMap_cons, Quoting.after_append, Quoting.bare_append, hc.1, hc.2]
    simpa using ih

theorem after_literal (t : Text) : Quoting.code.after (literal t) = .code := by
  change ((Quoting.inside '"' false).after (t.flatMap escapedChar ++ ['"'])) = .code
  rw [Quoting.after_append, (inside_escaped t).1]
  rfl

theorem bare_literal (t : Text) : Quoting.code.bare (literal t) = [] := by
  change ((Quoting.inside '"' false).bare (t.flatMap escapedChar ++ ['"'])) = []
  rw [Quoting.bare_append, (inside_escaped t).1, (inside_escaped t).2]
  rfl

theorem rest_quote (t : Text) : literalRest ('"' :: t) = literalContents t := by
  rw [literalRest.eq_def]
  simp

theorem rest_plain (c : Char) (t : Text) (h : c ≠ '"' ∧ c ≠ '\\') :
    literalRest (c :: t) = c :: literalRest t := by
  rw [literalRest.eq_def]
  simp [h]

theorem literalRest_escaped (t rest : Text) :
    literalRest (t.flatMap escapedChar ++ '"' :: rest) = t ++ literalContents rest := by
  induction t with
  | nil => exact rest_quote rest
  | cons c t ih =>
    by_cases h : c = '"' ∨ c = '\\'
    · simp [escapedChar, h, literalRest, ih]
    · have hq : c ≠ '"' ∧ c ≠ '\\' := by simpa [not_or] using h
      rw [List.flatMap_cons, List.append_assoc]
      simp only [escapedChar, h, if_false, List.singleton_append]
      rw [rest_plain c _ hq, ih, List.cons_append]

theorem contents_literal (t rest : Text) :
    literalContents (literal t ++ rest) = t ++ literalContents rest := by
  simpa [literal, literalContents] using literalRest_escaped t rest

theorem contents_skip (g rest : Text) (h : '"' ∉ g) :
    literalContents (g ++ rest) = literalContents rest := by
  induction g with
  | nil => rfl
  | cons c g ih =>
    have hc : c ≠ '"' := fun he => h (by simp [he])
    simpa [literalContents, hc] using ih (fun hm => h (by simp [hm]))

end ParameterManual.Source
