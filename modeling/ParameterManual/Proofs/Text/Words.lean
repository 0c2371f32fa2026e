import ParameterManual.Proofs.Text.Spacing

/-!
# Words of a text

A blank ends a word, and blanks are part of none. So the words of a text that
is put together are read off its pieces.
-/

set_option autoImplicit false

namespace ParameterManual.Text

theorem words_append (t u : Text) (c : Char) (h : isBlank c = true) :
    words (t ++ c :: u) = words t ++ words u := by
  rw [words, List.splitOnP_append_cons t u h, List.filter_append]
  rfl

theorem words_gap (g t : Text) (h : isAllBlank g = true) : words (g ++ t) = words t := by
  induction g with
  | nil => rfl
  | cons c g ih =>
    obtain ⟨hc, hg⟩ := Bool.and_eq_true_iff.mp h
    exact (words_append [] (g ++ t) c hc).trans (ih hg)

theorem words_behind (t : Text) (c : Char) (h : isBlank c = true) : words (t ++ [c]) = words t := by
  rw [words_append t [] c h]
  exact List.append_nil (words t)

theorem words_solid (w : Text) (hne : w ≠ []) (h : w.any isBlank = false) : words w = [w] := by
  rw [words, List.splitOnP_eq_singleton (by simpa using h)]
  simp [hne]

theorem words_first (w g t : Text) (hne : w ≠ []) (h : w.any isBlank = false)
    (hg : isAllBlank g = true) (hgne : g ≠ []) : words (w ++ (g ++ t)) = w :: words t := by
  obtain ⟨c, g, rfl⟩ := List.exists_cons_of_ne_nil hgne
  obtain ⟨hc, hrest⟩ := Bool.and_eq_true_iff.mp hg
  rw [List.cons_append, words_append w (g ++ t) c hc, words_solid w hne h, words_gap g t hrest]
  rfl

theorem words_closed (w g : Text) (hne : w ≠ []) (h : w.any isBlank = false)
    (hg : isAllBlank g = true) : words (w ++ g) = [w] := by
  by_cases hgap : g = []
  · rw [hgap, List.append_nil, words_solid w hne h]
  · have hfirst := words_first w g [] hne h hg hgap
    rwa [List.append_nil] at hfirst

theorem words_ne_nil (t : Text) (h : isAllBlank t = false) : words t ≠ [] := by
  induction t with
  | nil => simp [isAllBlank] at h
  | cons c t ih =>
    by_cases hc : isBlank c = true
    · rw [← List.singleton_append, words_gap [c] t (by simp [isAllBlank, hc])]
      exact ih (by simpa [isAllBlank, hc] using h)
    · obtain ⟨w, ws, hws⟩ := List.exists_cons_of_ne_nil (List.splitOnP_ne_nil isBlank t)
      rw [words, List.splitOnP_cons_eq_if_modifyHead, if_neg hc, hws]
      simp

end ParameterManual.Text
