import Mathlib.Data.List.Forall2
import ParameterManual.Text.Basic

/-!
# Texts written as lines

A text is written as its lines, each with a newline behind it or with a
carriage return and a newline, the last one possibly with neither. Read again
the lines are the same, but for a carriage return that a line itself ends
with and for an empty last line that nothing ends.
-/

set_option autoImplicit false

namespace ParameterManual.Text

inductive Written : List Text → Text → Prop
  | none : Written [] []
  | last (line : Text) : Written [line] line
  | line (line ending text : Text) (lines : List Text)
      (ended : ending = ['\n'] ∨ ending = ['\r', '\n']) (rest : Written lines text) :
      Written (line :: lines) (line ++ ending ++ text)

theorem lines_plain (c d : Char) (t line : Text) (rest : List Text) (h : c ≠ '\n') (hd : d ≠ '\n')
    (hrest : lines (d :: t) = line :: rest) : lines (c :: d :: t) = (c :: line) :: rest := by
  have hplain := lines.eq_4 c (d :: t) h (fun _ _ hu => hd (List.cons.inj hu).1)
  rw [hrest] at hplain
  exact hplain

theorem lines_single (c : Char) (h : c ≠ '\n') : lines [c] = [[c]] :=
  lines.eq_4 c [] h (fun _ _ hu => by cases hu)

theorem lines_return (t : Text) : lines ('\r' :: '\n' :: t) = [] :: lines t := by
  simp [lines]

theorem lines_newline (line t : Text) (h : '\n' ∉ line) :
    ∃ first, lines (line ++ '\n' :: t) = first :: lines t ∧
      (line = first ∨ line = first ++ ['\r']) := by
  induction line with
  | nil => exact ⟨[], by simp [lines], Or.inl rfl⟩
  | cons c line ih =>
    have hc : c ≠ '\n' := fun he => h (by simp [he])
    cases line with
    | nil =>
      by_cases hr : c = '\r'
      · obtain rfl := hr
        exact ⟨[], lines_return t, Or.inr rfl⟩
      · have hplain := lines.eq_4 c ('\n' :: t) hc (fun _ he => absurd he hr)
        exact ⟨[c], hplain, Or.inl rfl⟩
    | cons d line =>
      have hd : d ≠ '\n' := fun he => h (by simp [he])
      obtain ⟨first, hfirst, hline⟩ := ih (fun hm => h (List.mem_cons_of_mem c hm))
      rw [List.cons_append] at hfirst
      refine ⟨c :: first, ?_, ?_⟩
      · exact lines_plain c d _ first _ hc hd hfirst
      · rcases hline with hline | hline
        · exact Or.inl (by rw [hline])
        · exact Or.inr (by rw [hline, List.cons_append])

theorem lines_both (line t : Text) (h : '\n' ∉ line) :
    lines (line ++ '\r' :: '\n' :: t) = line :: lines t := by
  induction line with
  | nil => exact lines_return t
  | cons c line ih =>
    have hc : c ≠ '\n' := fun he => h (by simp [he])
    have hrest := ih (fun hm => h (List.mem_cons_of_mem c hm))
    cases line with
    | nil => exact lines_plain c '\r' _ [] _ hc (by decide) hrest
    | cons d line =>
      have hd : d ≠ '\n' := fun he => h (by simp [he])
      exact lines_plain c d _ (d :: line) _ hc hd hrest

theorem lines_last (line : Text) (h : '\n' ∉ line) (hne : line ≠ []) : lines line = [line] := by
  induction line with
  | nil => exact absurd rfl hne
  | cons c line ih =>
    have hc : c ≠ '\n' := fun he => h (by simp [he])
    cases line with
    | nil => exact lines_single c hc
    | cons d line =>
      have hd : d ≠ '\n' := fun he => h (by simp [he])
      have hrest := ih (fun hm => h (List.mem_cons_of_mem c hm)) (by simp)
      exact lines_plain c d line (d :: line) [] hc hd hrest

theorem written_longer (c : Char) (line : Text) (rest : List Text) (t : Text)
    (h : Written (line :: rest) t) : Written ((c :: line) :: rest) (c :: t) := by
  cases h with
  | last => exact .last (c :: line)
  | line _ ending text _ ended rest => exact .line (c :: line) ending text _ ended rest

/-- Every text is written as its lines. -/
theorem lines_written (t : Text) : Written (lines t) t := by
  fun_induction lines t with
  | case1 => exact .none
  | case2 t ih => exact .line [] ['\n'] t _ (Or.inl rfl) ih
  | case3 t ih => exact .line [] ['\r', '\n'] t _ (Or.inr rfl) ih
  | case4 c t _ _ hnil ih =>
    rw [hnil] at ih
    cases ih
    exact .last [c]
  | case5 c t _ _ line rest hlines ih =>
    rw [hlines] at ih
    exact written_longer c line rest t ih

theorem lines_unbroken (t : Text) : ∀ line ∈ lines t, '\n' ∉ line := by
  fun_induction lines t with
  | case1 => simp
  | case2 t ih => exact List.forall_mem_cons.mpr ⟨by simp, ih⟩
  | case3 t ih => exact List.forall_mem_cons.mpr ⟨by simp, ih⟩
  | case4 c t hc _ _ _ => simpa using fun he => hc he.symm
  | case5 c t hc _ line rest hlines ih =>
    rw [hlines] at ih
    obtain ⟨hline, hrest⟩ := List.forall_mem_cons.mp ih
    refine List.forall_mem_cons.mpr ⟨?_, hrest⟩
    simpa using ⟨fun he => hc he.symm, hline⟩

theorem written_sublist (list : List Text) (t : Text) (h : Written list t) :
    ∀ line ∈ list, line.Sublist t := by
  induction h with
  | none => simp
  | last line => simp
  | line line ending text _ _ _ ih =>
    refine List.forall_mem_cons.mpr ⟨?_, fun other hother => ?_⟩
    · exact (List.sublist_append_left line ending).trans (List.sublist_append_left _ text)
    · exact (ih other hother).trans (List.sublist_append_right _ text)

/-- A line as it is read again. -/
def ReadAs (line own : Text) : Prop := line = own ∨ line = own ++ ['\r']

/-- Written lines are read again, but for an empty last one. -/
theorem written_read (list : List Text) (t : Text) (h : Written list t)
    (hline : ∀ line ∈ list, '\n' ∉ line) :
    ∃ kept, (list = kept ∨ list = kept ++ [[]]) ∧ List.Forall₂ ReadAs kept (lines t) := by
  induction h with
  | none => exact ⟨[], Or.inl rfl, .nil⟩
  | last line =>
    by_cases hne : line = []
    · obtain rfl := hne
      exact ⟨[], Or.inr rfl, .nil⟩
    · rw [lines_last line (hline line (by simp)) hne]
      exact ⟨[line], Or.inl rfl, .cons (Or.inl rfl) .nil⟩
  | line line ending text list ended _ ih =>
    obtain ⟨hfirst, hrest⟩ := List.forall_mem_cons.mp hline
    obtain ⟨kept, hkept, hread⟩ := ih hrest
    have hown : ∃ own, lines (line ++ ending ++ text) = own :: lines text ∧ ReadAs line own := by
      rcases ended with rfl | rfl
      · rw [List.append_assoc]
        exact lines_newline line text hfirst
      · rw [List.append_assoc]
        exact ⟨line, lines_both line text hfirst, Or.inl rfl⟩
    obtain ⟨own, hlines, hown⟩ := hown
    rw [hlines]
    refine ⟨line :: kept, ?_, .cons hown hread⟩
    rcases hkept with rfl | rfl
    · exact Or.inl rfl
    · exact Or.inr rfl

end ParameterManual.Text
