import ParameterManual.Proofs.Source.Layout
import ParameterManual.Source.Call

/-!
# Depth outside literals

The scans of arguments and calls count brackets outside literals. What the
count comes to over a stretch of text says how a scan goes on after it; where
a scan cuts a text says what the count came to on the way.
-/

set_option autoImplicit false

namespace ParameterManual.Source
open Text

/-- What counting the characters outside literals comes to over a text, none
if the count stops. -/
def level (count : Nat → Char → Option Nat) (s : Quoting) (depth : Nat) (t : Text) : Option Nat :=
  (s.bare t).foldlM count depth

def nesting (opening closing : Char) (depth : Nat) (c : Char) : Option Nat :=
  if c = opening then some (depth + 1)
  else if c = closing then if depth = 0 then none else some (depth - 1)
  else some depth

/-- Counts brackets of all kinds, and stops at a comma outside them. -/
def separating (depth : Nat) (c : Char) : Option Nat :=
  if c = ',' ∧ depth = 0 then none else some (depthAfter depth c)

theorem nesting_stops (opening closing : Char) (depth : Nat) (c : Char)
    (h : nesting opening closing depth c = none) : c = closing ∧ depth = 0 := by
  rw [nesting] at h
  split at h
  · cases h
  · split at h
    · rename_i _ hc
      split at h
      · rename_i hd
        exact ⟨hc, hd⟩
      · cases h
    · cases h

theorem separating_stops (depth : Nat) (c : Char) (h : separating depth c = none) :
    c = ',' ∧ depth = 0 := by
  rw [separating] at h
  split at h
  · rename_i hc
    exact hc
  · cases h

/-- A count that takes no notice of a kind of character. -/
def Ignores (count : Nat → Char → Option Nat) (p : Char → Prop) : Prop :=
  ∀ c, p c → ∀ depth, count depth c = some depth

theorem nesting_ignores (opening closing : Char) :
    Ignores (nesting opening closing) (fun c => c ≠ opening ∧ c ≠ closing) := by
  intro c hc depth
  simp [nesting, hc]

theorem separating_ignores :
    Ignores separating (fun c => c ≠ ',' ∧ opens c = false ∧ closes c = false) := by
  intro c hc depth
  simp [separating, depthAfter, hc]

section Counting

variable (count : Nat → Char → Option Nat)

theorem level_append (s : Quoting) (depth : Nat) (t u : Text) :
    level count s depth (t ++ u) =
      (level count s depth t).bind (fun e => level count (s.after t) e u) := by
  rw [level, Quoting.bare_append, List.foldlM_append]
  rfl

theorem level_covered (s : Quoting) (depth : Nat) (c : Char) (t : Text)
    (h : s.covers c = true) : level count s depth (c :: t) = level count (s.next c) depth t := by
  rw [level, bare_cons, if_pos h, level]

theorem level_bare (s : Quoting) (depth : Nat) (c : Char) (t : Text)
    (h : ¬ s.covers c = true) :
    level count s depth (c :: t) = (count depth c).bind (fun e => level count s e t) := by
  rw [level, bare_cons, if_neg h, next_uncovered s c h, List.foldlM_cons]
  rfl

theorem fold_ignored (p : Char → Prop) (hp : Ignores count p)
    (depth : Nat) (t : Text) (h : ∀ c ∈ t, p c) : t.foldlM count depth = some depth := by
  induction t with
  | nil => rfl
  | cons c t ih =>
    rw [List.foldlM_cons, hp c (h c (by simp)) depth]
    exact ih (fun d hd => h d (by simp [hd]))

theorem level_ignored (p : Char → Prop) (hp : Ignores count p) (s : Quoting) (depth : Nat)
    (t : Text) (h : ∀ c ∈ s.bare t, p c) : level count s depth t = some depth :=
  fold_ignored count p hp depth (s.bare t) h

end Counting

theorem uncovered_code (s : Quoting) (c : Char) (h : ¬ s.covers c = true) : s = .code := by
  cases s with
  | code => rfl
  | inside q e => simp [Quoting.covers] at h

theorem after_bare (s : Quoting) (c : Char) (t : Text) (h : ¬ s.covers c = true) :
    s.after (c :: t) = s.after t := by
  rw [Quoting.after, List.foldl_cons, next_uncovered s c h, Quoting.after]

theorem closing_bare (s : Quoting) (depth : Nat) (c : Char) (t : Text)
    (h : ¬ s.covers c = true) : cutAtClosing s depth (c :: t) =
      match nesting '(' ')' depth c with
      | some e => (cutAtClosing s e t).map (fun cut => (c :: cut.1, cut.2))
      | none => some ([], t) := by
  cases depth <;> by_cases ho : c = '(' <;> by_cases hc : c = ')' <;>
    simp_all [cutAtClosing, nesting]

theorem closing_covered (s : Quoting) (depth : Nat) (c : Char) (t : Text)
    (h : s.covers c = true) : cutAtClosing s depth (c :: t) =
      (cutAtClosing (s.next c) depth t).map (fun cut => (c :: cut.1, cut.2)) := by
  simp [cutAtClosing.eq_def s, h]

theorem closing_level (s : Quoting) (depth e : Nat) (w t : Text)
    (h : level (nesting '(' ')') s depth w = some e) :
    cutAtClosing s depth (w ++ t) =
      (cutAtClosing (s.after w) e t).map (fun cut => (w ++ cut.1, cut.2)) := by
  induction w generalizing s depth with
  | nil =>
    obtain rfl : depth = e := Option.some.inj h
    simp [Quoting.after]
  | cons c w ih =>
    rw [List.cons_append]
    by_cases hc : s.covers c = true
    · rw [level_covered _ s depth c w hc] at h
      rw [closing_covered s depth c _ hc, ih (s.next c) depth h, Option.map_map]
      rfl
    · rw [level_bare _ s depth c w hc] at h
      obtain ⟨next, hnext, hrest⟩ := Option.bind_eq_some_iff.mp h
      rw [closing_bare s depth c _ hc, hnext]
      change Option.map _ (cutAtClosing s next (w ++ t)) = _
      rw [ih s next hrest, Option.map_map, after_bare s c w hc]
      rfl

/-- The parenthesis that a text is cut at is the one that closes the open
ones. -/
theorem closing_found (s : Quoting) (depth : Nat) (t a rest : Text)
    (h : cutAtClosing s depth t = some (a, rest)) :
    t = a ++ ')' :: rest ∧ s.after a = .code ∧ level (nesting '(' ')') s depth a = some 0 := by
  induction t generalizing s depth a with
  | nil => cases h
  | cons c t ih =>
    by_cases hc : s.covers c = true
    · rw [closing_covered s depth c t hc] at h
      obtain ⟨⟨b, tail⟩, hb, hcut⟩ := Option.map_eq_some_iff.mp h
      obtain ⟨rfl, rfl⟩ := Prod.mk.inj hcut
      obtain ⟨rfl, hafter, hlevel⟩ := ih (s.next c) depth b hb
      refine ⟨rfl, hafter, ?_⟩
      rw [level_covered _ s depth c b hc, hlevel]
    · rw [closing_bare s depth c t hc] at h
      cases hnext : nesting '(' ')' depth c with
      | none =>
        rw [hnext] at h
        obtain ⟨rfl, rfl⟩ := Prod.mk.inj (Option.some.inj h)
        obtain ⟨rfl, rfl⟩ := nesting_stops _ _ depth c hnext
        exact ⟨rfl, uncovered_code s ')' hc, rfl⟩
      | some next =>
        rw [hnext] at h
        obtain ⟨⟨b, tail⟩, hb, hcut⟩ := Option.map_eq_some_iff.mp h
        obtain ⟨rfl, rfl⟩ := Prod.mk.inj hcut
        obtain ⟨rfl, hafter, hlevel⟩ := ih s next b hb
        refine ⟨rfl, ?_, ?_⟩
        · rw [after_bare s c b hc]
          exact hafter
        · rw [level_bare _ s depth c b hc, hnext]
          exact hlevel

theorem segments_bare (s : Quoting) (depth : Nat) (c : Char) (t : Text)
    (h : ¬ s.covers c = true) : segments s depth (c :: t) =
      match separating depth c with
      | some e => extendFirst c (segments s e t)
      | none => [] :: segments s 0 t := by
  rw [segments, if_neg h, separating]
  by_cases hc : c = ',' ∧ depth = 0
  · rw [if_pos hc, if_pos hc]
  · rw [if_neg hc, if_neg hc]

theorem segments_covered (s : Quoting) (depth : Nat) (c : Char) (t : Text)
    (h : s.covers c = true) :
    segments s depth (c :: t) = extendFirst c (segments (s.next c) depth t) := by
  rw [segments, if_pos h]

/-- A stretch without a comma outside brackets is part of one segment. -/
theorem segments_level (s : Quoting) (depth e : Nat) (w t : Text)
    (h : level separating s depth w = some e) :
    segments s depth (w ++ t) = w.foldr extendFirst (segments (s.after w) e t) := by
  induction w generalizing s depth with
  | nil =>
    obtain rfl : depth = e := Option.some.inj h
    rfl
  | cons c w ih =>
    rw [List.cons_append, List.foldr_cons]
    by_cases hc : s.covers c = true
    · rw [level_covered _ s depth c w hc] at h
      rw [segments_covered s depth c _ hc, ih (s.next c) depth h]
      rfl
    · rw [level_bare _ s depth c w hc] at h
      obtain ⟨next, hnext, hrest⟩ := Option.bind_eq_some_iff.mp h
      rw [segments_bare s depth c _ hc, hnext]
      change extendFirst c (segments s next (w ++ t)) = _
      rw [ih s next hrest, after_bare s c w hc]

theorem extend_first (w x : Text) (xs : List Text) :
    w.foldr extendFirst (x :: xs) = (w ++ x) :: xs := by
  induction w with
  | nil => rfl
  | cons c w ih => simp [ih, extendFirst]

theorem segments_ne (s : Quoting) (depth : Nat) (t : Text) : segments s depth t ≠ [] := by
  have hextend (c : Char) (ss : List Text) : extendFirst c ss ≠ [] := by
    cases ss <;> simp [extendFirst]
  cases t with
  | nil => simp [segments]
  | cons c t =>
    rw [segments]
    split
    · exact hextend c _
    · split
      · simp
      · exact hextend c _

theorem extend_found (c : Char) (ss : List Text) (w : Text) (ws : List Text) (hss : ss ≠ [])
    (h : extendFirst c ss = w :: ws) : ∃ v, ss = v :: ws ∧ w = c :: v := by
  obtain ⟨v, vs, rfl⟩ := List.exists_cons_of_ne_nil hss
  obtain ⟨rfl, rfl⟩ := List.cons.inj h
  exact ⟨v, rfl, rfl⟩

theorem segments_found (s : Quoting) (depth : Nat) (t w : Text) (ws : List Text)
    (h : segments s depth t = w :: ws) :
    (ws = [] ∧ t = w ∧ level separating s depth w ≠ none) ∨
      ∃ rest, t = w ++ ',' :: rest ∧ s.after w = .code ∧ level separating s depth w = some 0 ∧
        segments .code 0 rest = ws := by
  induction t generalizing s depth w with
  | nil =>
    obtain ⟨rfl, rfl⟩ := List.cons.inj h
    exact Or.inl ⟨rfl, rfl, by simp [level, Quoting.bare]⟩
  | cons c t ih =>
    by_cases hc : s.covers c = true
    · rw [segments_covered s depth c t hc] at h
      obtain ⟨v, hv, rfl⟩ := extend_found c _ w ws (segments_ne _ _ _) h
      rw [level_covered _ s depth c v hc]
      rcases ih (s.next c) depth v hv with ⟨rfl, rfl, hne⟩ | ⟨rest, rfl, hcode, hzero, hrest⟩
      · exact Or.inl ⟨rfl, rfl, hne⟩
      · exact Or.inr ⟨rest, rfl, hcode, hzero, hrest⟩
    · rw [segments_bare s depth c t hc] at h
      cases hnext : separating depth c with
      | none =>
        rw [hnext] at h
        obtain ⟨rfl, hws⟩ := List.cons.inj h
        obtain ⟨rfl, rfl⟩ := separating_stops depth c hnext
        obtain rfl := uncovered_code s ',' hc
        exact Or.inr ⟨t, rfl, rfl, rfl, hws⟩
      | some next =>
        rw [hnext] at h
        obtain ⟨v, hv, rfl⟩ := extend_found c _ w ws (segments_ne _ _ _) h
        rw [level_bare _ s depth c v hc, hnext, after_bare s c v hc]
        rcases ih s next v hv with ⟨rfl, rfl, hne⟩ | ⟨rest, rfl, hcode, hzero, hrest⟩
        · exact Or.inl ⟨rfl, rfl, hne⟩
        · exact Or.inr ⟨rest, rfl, hcode, hzero, hrest⟩

theorem opening_passed (s : Quoting) (w t : Text) (hw : ∀ c ∈ s.bare w, c ≠ '(')
    (hclosed : s.after w = .code) : cutAtOpening s (w ++ '(' :: t) = some (w, t) := by
  induction w generalizing s with
  | nil =>
    obtain rfl : s = .code := hclosed
    simp [cutAtOpening, Quoting.covers, Quoting.isQuote]
  | cons c w ih =>
    rw [bare_cons] at hw
    have hself : (!s.covers c && c == '(') = false := by
      by_cases hc : s.covers c = true
      · simp [hc]
      · rw [if_neg hc] at hw
        simp [hw c (by simp)]
    have hrest : ∀ d ∈ (s.next c).bare w, d ≠ '(' := by
      intro d hd
      apply hw d
      split
      · exact hd
      · exact List.mem_cons_of_mem c hd
    rw [List.cons_append, cutAtOpening, hself, ih (s.next c) hrest hclosed]
    rfl

theorem opening_append (head t : Text) (h : Outside (· ≠ '(') head) :
    cutAtOpening .code (head ++ '(' :: t) = some (head, t) :=
  opening_passed .code head t h.only h.closed

theorem opening_found (s : Quoting) (t w rest : Text) (h : cutAtOpening s t = some (w, rest)) :
    t = w ++ '(' :: rest ∧ s.after w = .code ∧ ∀ c ∈ s.bare w, c ≠ '(' := by
  induction t generalizing s w with
  | nil => cases h
  | cons c t ih =>
    rw [cutAtOpening] at h
    split at h
    · rename_i hc
      obtain ⟨rfl, rfl⟩ := Prod.mk.inj (Option.some.inj h)
      simp only [Bool.and_eq_true, Bool.not_eq_true', beq_iff_eq] at hc
      obtain ⟨hcover, rfl⟩ := hc
      refine ⟨rfl, uncovered_code s '(' (by simp [hcover]), by simp [Quoting.bare]⟩
    · rename_i hc
      obtain ⟨⟨v, tail⟩, hv, hcut⟩ := Option.map_eq_some_iff.mp h
      obtain ⟨rfl, rfl⟩ := Prod.mk.inj hcut
      obtain ⟨rfl, hafter, hbare⟩ := ih (s.next c) v hv
      refine ⟨rfl, hafter, ?_⟩
      rw [bare_cons]
      split
      · exact hbare
      · intro d hd
        rcases List.mem_cons.mp hd with rfl | hd
        · rintro rfl
          exact hc (by simp_all)
        · exact hbare d hd

end ParameterManual.Source
