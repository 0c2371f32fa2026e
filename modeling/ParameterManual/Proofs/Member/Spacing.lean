import ParameterManual.Member.Declaration
import ParameterManual.Proofs.Text.Spacing

/-!
# Gaps inside types

Tightening goes through a text gap by gap. What it leaves of a gap depends on
the two characters that the gap stands between: nothing behind an opening
angle or a comma, nothing in front of a closing angle or a comma, and the
first blank everywhere else.
-/

set_option autoImplicit false

namespace ParameterManual.Member
open Text

/-- What is left of the gap between two characters. -/
def keptGap (last : Option Char) (gap : Text) (next : Char) : Text :=
  if last.any tightAfter || tightBefore next then [] else gap.take 1

/-- Whether the next character that is not blank takes away the gap in front
of it. -/
def closedAhead (t : Text) : Bool := (t.find? (fun d => !isBlank d)).any tightBefore

theorem ahead_blank (c : Char) (t : Text) (h : isBlank c = true) :
    closedAhead (c :: t) = closedAhead t := by
  rw [closedAhead, List.find?_cons_of_neg (by simp [h]), closedAhead]

theorem ahead_solid (c : Char) (t : Text) (h : isBlank c = false) :
    closedAhead (c :: t) = tightBefore c := by
  rw [closedAhead, List.find?_cons_of_pos (by simp [h]), Option.any_some]

theorem tighten_char (last : Option Char) (c : Char) (t : Text) (h : isBlank c = false) :
    tightenFrom last (c :: t) = c :: tightenFrom (some c) t := by
  simp [tightenFrom, h]

theorem tighten_taken (last : Option Char) (c : Char) (t : Text) (hc : isBlank c = true)
    (h : last.any tightAfter = true ∨ closedAhead t = true) :
    tightenFrom last (c :: t) = tightenFrom last t := by
  rw [tightenFrom, hc, Bool.true_and, ← closedAhead, if_pos (by simpa using h)]

theorem tighten_left (last : Option Char) (c : Char) (t : Text)
    (hlast : last.any tightAfter = false) (hnext : closedAhead t = false) :
    tightenFrom last (c :: t) = c :: tightenFrom (some c) t := by
  rw [tightenFrom, ← closedAhead, hlast, hnext, Bool.or_self, Bool.and_false, if_neg (by simp)]

theorem tighten_solid (last : Option Char) (w t : Text) (h : ∀ c ∈ w, isBlank c = false) :
    tightenFrom last (w ++ t) = w ++ tightenFrom (w.getLast?.or last) t := by
  induction w generalizing last with
  | nil => rfl
  | cons c w ih =>
    rw [List.cons_append, tighten_char last c (w ++ t) (h c (by simp)),
      ih (some c) (fun d hd => h d (by simp [hd])), List.getLast?_cons]
    cases w.getLast? <;> rfl

theorem tighten_behind (last : Option Char) (g t : Text) (hlast : last.any tightAfter = true)
    (hg : isAllBlank g = true) : tightenFrom last (g ++ t) = tightenFrom last t := by
  induction g with
  | nil => rfl
  | cons c g ih =>
    obtain ⟨hc, hrest⟩ := Bool.and_eq_true_iff.mp hg
    rw [List.cons_append, tighten_taken last c _ hc (Or.inl hlast), ih hrest]

theorem ahead_behind (g : Text) (d : Char) (t : Text) (hg : isAllBlank g = true)
    (hd : isBlank d = false) : closedAhead (g ++ d :: t) = tightBefore d := by
  induction g with
  | nil => exact ahead_solid d t hd
  | cons c g ih =>
    obtain ⟨hc, hrest⟩ := Bool.and_eq_true_iff.mp hg
    rw [List.cons_append, ahead_blank c _ hc, ih hrest]

theorem tighten_before (last : Option Char) (g : Text) (d : Char) (t : Text)
    (hg : isAllBlank g = true) (hd : isBlank d = false) (hnext : tightBefore d = true) :
    tightenFrom last (g ++ d :: t) = tightenFrom last (d :: t) := by
  induction g with
  | nil => rfl
  | cons c g ih =>
    obtain ⟨hc, hrest⟩ := Bool.and_eq_true_iff.mp hg
    have hahead := (ahead_behind g d t hrest hd).trans hnext
    rw [List.cons_append, tighten_taken last c _ hc (Or.inr hahead), ih hrest]

/-- One gap is tightened, whatever comes behind it. -/
theorem tighten_gap (last : Option Char) (g : Text) (d : Char) (t : Text)
    (hg : isAllBlank g = true) (hd : isBlank d = false) :
    tightenFrom last (g ++ d :: t) = keptGap last g d ++ d :: tightenFrom (some d) t := by
  by_cases hlast : last.any tightAfter = true
  · rw [tighten_behind last g _ hlast hg, tighten_char last d t hd, keptGap, hlast]
    rfl
  by_cases hnext : tightBefore d = true
  · rw [tighten_before last g d t hg hd hnext, tighten_char last d t hd, keptGap, hnext,
      Bool.or_true]
    rfl
  rw [Bool.not_eq_true] at hlast hnext
  rw [keptGap, hlast, hnext]
  cases g with
  | nil => exact tighten_char last d t hd
  | cons c g =>
    obtain ⟨hc, hrest⟩ := Bool.and_eq_true_iff.mp hg
    have hahead := (ahead_behind g d t hrest hd).trans hnext
    -- the first blank stays, and a blank behind a blank does not
    rw [List.cons_append, tighten_left last c _ hlast hahead,
      tighten_behind (some c) g _ (by simp [tightAfter, hc]) hrest, tighten_char (some c) d t hd]
    rfl

theorem tighten_sublist (last : Option Char) (t : Text) : (tightenFrom last t).Sublist t := by
  induction t generalizing last with
  | nil => exact List.Sublist.refl []
  | cons c t ih =>
    rw [tightenFrom]
    split
    · exact (ih last).cons c
    · exact (ih (some c)).cons_cons c

theorem tighten_blank (last : Option Char) (g : Text) (h : isAllBlank g = true) :
    isAllBlank (tightenFrom last g) = true :=
  (isAllBlank_iff _).mpr fun c hc =>
    (isAllBlank_iff g).mp h c ((tighten_sublist last g).subset hc)

end ParameterManual.Member
