import ParameterManual.Proofs.Source.ArgumentList
import ParameterManual.Proofs.Source.Stripping

/-!
# Lines broken at single spaces

A text can be broken at the single spaces outside its literals. Each piece
then closes its own literals, holds no comment if the text holds none, and
the braces that it leaves open are those of the text up to there.
-/

set_option autoImplicit false

namespace ParameterManual.Source
open Text

/-- A single space outside literals, between the two parts of a text. -/
structure Break (front back : Text) : Prop where
  outside : Quoting.code.after front = .code
  left : front.getLast?.any (fun c => !isBlank c) = true
  right : back.head?.any (fun c => !isBlank c) = true

theorem Break.ends {front back : Text} (h : Break front back) :
    (∃ r c, front = r ++ [c] ∧ isBlank c = false) ∧ ∃ c r, back = c :: r ∧ isBlank c = false := by
  obtain ⟨c, hc, hleft⟩ := (Option.any_eq_true _ _).mp h.left
  obtain ⟨d, hd, hright⟩ := (Option.any_eq_true _ _).mp h.right
  obtain ⟨r, hr⟩ := List.getLast?_eq_some_iff.mp hc
  obtain ⟨u, hu⟩ := List.head?_eq_some_iff.mp hd
  exact ⟨⟨r, c, hr, by simpa using hleft⟩, d, u, hu, by simpa using hright⟩

/-- A text as the pieces between some of its spaces. -/
structure Broken (t : Text) (pieces : List Text) : Prop where
  joined : joined [' '] pieces = t
  breaks : ∀ front back, pieces = front ++ back → front ≠ [] → back ≠ [] →
    Break (Text.joined [' '] front) (Text.joined [' '] back)

theorem joined_front (piece : Text) (back : List Text) :
    ∃ g, joined [' '] (piece :: back) = piece ++ g ∧ ∀ c ∈ g.head?, isBlank c = true := by
  by_cases hne : back = []
  · exact ⟨[], by simp [hne, joined], by simp⟩
  · exact ⟨' ' :: joined [' '] back, joined_cons piece back hne, by rintro c ⟨⟩; rfl⟩

theorem joined_back (front : List Text) (piece : Text) :
    ∃ g, joined [' '] (front ++ [piece]) = g ++ piece ∧ ∀ c ∈ g.getLast?, isBlank c = true := by
  by_cases hne : front = []
  · exact ⟨[], by simp [hne, joined], by simp⟩
  · refine ⟨joined [' '] front ++ [' '], ?_, ?_⟩
    · rw [joined_append front hne piece, List.append_assoc]
      rfl
    · rw [List.getLast?_concat]
      rintro c ⟨⟩
      rfl

namespace Broken

variable {t : Text} {pieces : List Text} (h : Broken t pieces) (hink : Ink t)
  (hclosed : Quoting.code.after t = .code)
include h hclosed

theorem front_closed (front back : List Text) (hsplit : pieces = front ++ back)
    (hfront : front ≠ []) : Quoting.code.after (Text.joined [' '] front) = .code := by
  by_cases hback : back = []
  · rw [hback, List.append_nil] at hsplit
    rw [← hsplit, h.joined]
    exact hclosed
  · exact (h.breaks front back hsplit hfront hback).outside

theorem piece_closed (front back : List Text) (piece : Text)
    (hsplit : pieces = front ++ piece :: back) : Quoting.code.after piece = .code := by
  have hthrough := h.front_closed hclosed (front ++ [piece]) back (by simp [hsplit]) (by simp)
  by_cases hne : front = []
  · simpa [hne, Text.joined] using hthrough
  · have hbefore := h.front_closed hclosed front (piece :: back) hsplit hne
    rw [joined_append front hne piece, Quoting.after_append, hbefore] at hthrough
    exact hthrough

omit hclosed
include hink

theorem piece_ink (front back : List Text) (piece : Text)
    (hsplit : pieces = front ++ piece :: back) : Ink piece := by
  have hfirst : ∃ c r, Text.joined [' '] (piece :: back) = c :: r ∧ isBlank c = false := by
    by_cases hne : front = []
    · rw [hne, List.nil_append] at hsplit
      rw [← hsplit, h.joined]
      exact hink.first
    · exact (h.breaks front (piece :: back) hsplit hne (by simp)).ends.2
  have hlast : ∃ r c, Text.joined [' '] (front ++ [piece]) = r ++ [c] ∧ isBlank c = false := by
    by_cases hne : back = []
    · rw [hne] at hsplit
      rw [← hsplit, h.joined]
      exact hink.last
    · exact (h.breaks (front ++ [piece]) back (by simp [hsplit]) (by simp) hne).ends.1
  constructor
  · obtain ⟨c, r, hc, hblank⟩ := hfirst
    obtain ⟨g, hg, hspace⟩ := joined_front piece back
    rw [hc] at hg
    cases piece with
    | nil =>
      rw [List.nil_append] at hg
      have := hspace c (by rw [← hg]; rfl)
      rw [hblank] at this
      cases this
    | cons d piece =>
      obtain ⟨rfl, -⟩ := List.cons.inj hg
      exact ⟨c, piece, rfl, hblank⟩
  · obtain ⟨r, c, hc, hblank⟩ := hlast
    obtain ⟨g, hg, hspace⟩ := joined_back front piece
    rw [hc] at hg
    rcases List.eq_nil_or_concat piece with rfl | ⟨own, d, rfl⟩
    · rw [List.append_nil] at hg
      have := hspace c (by rw [← hg]; simp)
      rw [hblank] at this
      cases this
    · rw [List.concat_eq_append, ← List.append_assoc] at hg
      obtain ⟨-, hd⟩ := List.append_inj' hg rfl
      obtain rfl : c = d := by simpa using hd
      exact ⟨own, c, by simp, hblank⟩

end Broken

theorem opens_append (s : Quoting) (t u : Text) (hu : ∀ c ∈ u.head?, c ≠ '/' ∧ c ≠ '*') :
    opensComment s (t ++ u) = (opensComment s t || opensComment (s.after t) u) := by
  induction t generalizing s with
  | nil => rfl
  | cons c t ih =>
    cases t with
    | nil =>
      cases u with
      | nil => rfl
      | cons d u =>
        have hd := hu d rfl
        simp [opensComment, hd, Quoting.after]
    | cons d t =>
      have hrest := ih (s.next c)
      rw [List.cons_append] at hrest
      rw [List.cons_append, List.cons_append, opensComment, hrest, opensComment, ← Bool.or_assoc]
      rfl

theorem opens_blank (g t : Text) (hg : isAllBlank g = true) :
    opensComment .code (g ++ t) = opensComment .code t := by
  induction g with
  | nil => rfl
  | cons c g ih =>
    obtain ⟨hc, hrest⟩ := Bool.and_eq_true_iff.mp hg
    have hslash : ¬ (Quoting.code = .code ∧ c = '/') := fun h => blank_ne c '/' hc rfl h.2
    have hnext : Quoting.code.next c = .code := by simp [Quoting.next, blank_not_quote c hc]
    rw [List.cons_append, opens_plain .code c _ hslash, hnext]
    exact ih hrest

theorem pieces_uncommented (pieces : List Text)
    (hclosed : ∀ piece ∈ pieces, Quoting.code.after piece = .code)
    (h : opensComment .code (joined [' '] pieces) = false) :
    ∀ piece ∈ pieces, opensComment .code piece = false := by
  induction pieces with
  | nil => simp
  | cons piece rest ih =>
    obtain ⟨hown, hothers⟩ := List.forall_mem_cons.mp hclosed
    by_cases hne : rest = []
    · simpa [hne, joined] using h
    · rw [joined_cons piece rest hne, opens_append .code piece _ (by simp), hown,
        Bool.or_eq_false_iff] at h
      have hrest := opens_blank [' '] (joined [' '] rest) rfl
      rw [List.singleton_append, h.2] at hrest
      exact List.forall_mem_cons.mpr ⟨h.1, ih hothers hrest.symm⟩

theorem line_plain (line : Text) (hclosed : Quoting.code.after line.trim = .code)
    (h : opensComment .code line.trim = false) : stripComments false line = (line, false) := by
  obtain ⟨g, r, hline, hg, hr⟩ := trim_split line
  have hbehind : ∀ c ∈ r.head?, c ≠ '/' ∧ c ≠ '*' := by
    intro c hc
    have hblank := (isAllBlank_iff r).mp hr c (List.mem_of_mem_head? hc)
    exact ⟨blank_ne c '/' hblank rfl, blank_ne c '*' hblank rfl⟩
  have hgap : opensComment .code r = false := by
    have := opens_blank r [] hr
    rwa [List.append_nil] at this
  apply strip_uncommented
  rw [hline, List.append_assoc, opens_blank g _ hg, opens_append .code line.trim r hbehind, h,
    hclosed, hgap]
  rfl

theorem codeOf_plain (lines : List Text)
    (h : ∀ line ∈ lines, Quoting.code.after line.trim = .code ∧
      opensComment .code line.trim = false) :
    codeOf false lines = lines.map trim ∧ openComment false lines = false := by
  induction lines with
  | nil => exact ⟨rfl, rfl⟩
  | cons line rest ih =>
    obtain ⟨⟨hclosed, hopens⟩, hrest⟩ := List.forall_mem_cons.mp h
    obtain ⟨hcode, hopen⟩ := ih hrest
    rw [codeOf_cons, openComment, codeLine, line_plain line hclosed hopens]
    exact ⟨by rw [hcode, List.map_cons], hopen⟩

theorem nesting_weight (depth e : Nat) (c : Char)
    (h : nesting '\x7b' '\x7d' depth c = some e) : braceWeight c = (e : Int) - depth := by
  grind [nesting, braceWeight]

theorem level_delta (s : Quoting) (depth e : Nat) (t : Text)
    (h : level (nesting '\x7b' '\x7d') s depth t = some e) :
    braceDeltaFrom s t = (e : Int) - depth := by
  induction t generalizing s depth with
  | nil =>
    obtain rfl : depth = e := Option.some.inj h
    simp [braceDeltaFrom]
  | cons c t ih =>
    rw [braceDeltaFrom]
    by_cases hc : s.covers c = true
    · rw [level_covered _ s depth c t hc] at h
      rw [if_pos hc, ih (s.next c) depth h]
      omega
    · rw [level_bare _ s depth c t hc] at h
      obtain ⟨next, hnext, hrest⟩ := Option.bind_eq_some_iff.mp h
      have hweight := nesting_weight depth next c hnext
      rw [if_neg hc, next_uncovered s c hc, ih s next hrest, hweight]
      omega

end ParameterManual.Source
