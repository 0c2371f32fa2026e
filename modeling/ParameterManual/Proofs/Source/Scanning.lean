import ParameterManual.Source.Call
import ParameterManual.Source.Comment

/-!
# Scans that pass over a stretch of text

Every scanner goes by the characters that lie outside literals. A stretch
without the characters that a scanner looks for leaves only its quoting
state behind, whatever its literals hold.
-/

set_option autoImplicit false

namespace ParameterManual.Source

theorem bare_cons (s : Quoting) (c : Char) (t : Text) :
    s.bare (c :: t) = if s.covers c then (s.next c).bare t else c :: (s.next c).bare t := rfl

theorem bare_sublist (s : Quoting) (t : Text) : (s.bare t).Sublist t := by
  induction t generalizing s with
  | nil => exact List.Sublist.refl []
  | cons c t ih =>
    rw [bare_cons]
    split
    · exact (ih (s.next c)).cons c
    · exact (ih (s.next c)).cons_cons c

theorem bare_mem (s : Quoting) (t : Text) (c : Char) (h : c ∈ s.bare t) : c ∈ t :=
  (bare_sublist s t).subset h

theorem bare_unquoted (t : Text) (h : ∀ c ∈ t, Quoting.isQuote c = false) :
    Quoting.code.bare t = t := by
  induction t with
  | nil => rfl
  | cons c t ih =>
    have hc := h c (by simp)
    have hnext : Quoting.code.next c = .code := by simp [Quoting.next, hc]
    rw [bare_cons, hnext, ih (fun d hd => h d (by simp [hd]))]
    simp [Quoting.covers, hc]

theorem next_uncovered (s : Quoting) (c : Char) (h : ¬ s.covers c = true) : s.next c = s := by
  cases s with
  | code =>
    have hq : Quoting.isQuote c = false := by simpa [Quoting.covers] using h
    simp [Quoting.next, hq]
  | inside q e => simp [Quoting.covers] at h

theorem delta_free (s : Quoting) (line : Text)
    (h : ∀ c ∈ s.bare line, c ≠ '\x7b' ∧ c ≠ '\x7d') : braceDeltaFrom s line = 0 := by
  induction line generalizing s with
  | nil => rfl
  | cons c t ih =>
    rw [bare_cons] at h
    rw [braceDeltaFrom]
    by_cases hc : s.covers c = true
    · rw [if_pos hc] at h
      simp [hc, ih (s.next c) h]
    · rw [if_neg hc] at h
      have hself := h c (by simp)
      simp [hc, braceWeight, hself, ih (s.next c) (fun d hd => h d (by simp [hd]))]

end ParameterManual.Source
