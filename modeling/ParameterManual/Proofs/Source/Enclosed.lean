import ParameterManual.Proofs.Source.Depth

/-!
# Calls read back

A text that closes its literals and its parentheses is what a call has
between its own. Trimming takes nothing from it that a count goes by.
-/

set_option autoImplicit false

namespace ParameterManual.Source
open Text

def OpenedByQuote : Quoting → Prop
  | .code => True
  | .inside quote _ => Quoting.isQuote quote = true

theorem next_opened (s : Quoting) (c : Char) (h : OpenedByQuote s) : OpenedByQuote (s.next c) := by
  cases s with
  | code =>
    rw [Quoting.next]
    split
    · rename_i hc
      exact hc
    · trivial
  | inside quote escaped =>
    cases escaped with
    | true => exact h
    | false =>
      rw [Quoting.next]
      split
      · exact h
      · split
        · trivial
        · exact h

theorem after_opened (s : Quoting) (t : Text) (h : OpenedByQuote s) :
    OpenedByQuote (s.after t) := by
  induction t generalizing s with
  | nil => exact h
  | cons c t ih => exact ih (s.next c) (next_opened s c h)

theorem code_before_next (s : Quoting) (hs : OpenedByQuote s) (c : Char)
    (hc : Quoting.isQuote c = false) (h : s.next c = .code) : s = .code := by
  cases s with
  | code => rfl
  | inside quote escaped =>
    cases escaped with
    | true => cases h
    | false =>
      rw [Quoting.next] at h
      split at h
      · cases h
      · split at h
        · rename_i _ hquote
          subst hquote
          rw [OpenedByQuote, hc] at hs
          cases hs
        · cases h

theorem code_before_blank (s : Quoting) (hs : OpenedByQuote s) (g : Text)
    (hg : isAllBlank g = true) (h : s.after g = .code) : s = .code := by
  induction g generalizing s with
  | nil => exact h
  | cons c g ih =>
    obtain ⟨hc, hrest⟩ := Bool.and_eq_true_iff.mp hg
    have hnext := ih (s.next c) (next_opened s c hs) hrest h
    exact code_before_next s hs c (blank_not_quote c hc) hnext

theorem trim_bare (t : Text) (h : Quoting.code.after t = .code) :
    Quoting.code.after (trim t) = .code ∧ ∃ g r, isAllBlank g = true ∧ isAllBlank r = true ∧
      Quoting.code.bare t = g ++ Quoting.code.bare (trim t) ++ r := by
  obtain ⟨g, r, ht, hg, hr⟩ := trim_split t
  have before := outside_blank (fun c => isBlank c = true) (fun _ hc => hc) g hg
  have behind := outside_blank (fun c => isBlank c = true) (fun _ hc => hc) r hr
  have hcode : Quoting.code.after (trim t) = .code := by
    rw [ht, Quoting.after_append, Quoting.after_append, before.closed] at h
    exact code_before_blank _ (after_opened .code (trim t) trivial) r hr h
  refine ⟨hcode, Quoting.code.bare g, Quoting.code.bare r, ?_, ?_, ?_⟩
  · exact (isAllBlank_iff _).mpr before.only
  · exact (isAllBlank_iff _).mpr behind.only
  · conv => lhs; rw [ht]
    rw [Quoting.bare_append, Quoting.bare_append, Quoting.after_append, before.closed, hcode]

theorem outside_trim (p : Char → Prop) (t : Text) (h : Outside p t) : Outside p (trim t) := by
  obtain ⟨hcode, g, r, -, -, hbare⟩ := trim_bare t h.closed
  refine ⟨hcode, fun c hc => h.only c ?_⟩
  rw [hbare]
  simp [hc]

theorem level_trim (count : Nat → Char → Option Nat)
    (hcount : Ignores count (fun c => isBlank c = true)) (depth : Nat) (t : Text)
    (h : Quoting.code.after t = .code) :
    level count .code depth (trim t) = level count .code depth t := by
  obtain ⟨-, g, r, hg, hr, hbare⟩ := trim_bare t h
  have hback (e : Nat) : r.foldlM count e = some e :=
    fold_ignored count _ hcount e r ((isAllBlank_iff r).mp hr)
  rw [level, level, hbare, List.foldlM_append, List.foldlM_append,
    fold_ignored count _ hcount depth g ((isAllBlank_iff g).mp hg)]
  simp [hback]

theorem nesting_blank (opening closing : Char) (ho : isBlank opening = false)
    (hc : isBlank closing = false) :
    Ignores (nesting opening closing) (fun c => isBlank c = true) := by
  intro c hblank depth
  exact nesting_ignores opening closing c ⟨blank_ne c _ hblank ho, blank_ne c _ hblank hc⟩ depth

/-- A text that closes its literals and its parentheses. -/
structure Enclosed (t : Text) : Prop where
  closed : Quoting.code.after t = .code
  matched : level (nesting '(' ')') .code 0 t = some 0

/-- The argument text of a call ends where its parenthesis does. -/
theorem call_read (head arguments rest : Text) (hh : Outside (· ≠ '(') head)
    (ha : Enclosed arguments) : Call.ofText? (head ++ '(' :: (arguments ++ ')' :: rest)) =
      some ⟨trim head, arguments, rest⟩ := by
  have hclose : cutAtClosing .code 0 (arguments ++ ')' :: rest) = some (arguments, rest) := by
    rw [closing_level .code 0 0 arguments _ ha.matched, ha.closed]
    simp [cutAtClosing, Quoting.covers, Quoting.isQuote]
  rw [Call.ofText?, opening_append head _ hh]
  simp [hclose]

theorem call_found (t : Text) (call : Call) (h : Call.ofText? t = some call) :
    ∃ head, trim head = call.head ∧ Outside (· ≠ '(') head ∧ Enclosed call.arguments ∧
      t = head ++ '(' :: (call.arguments ++ ')' :: call.rest) := by
  obtain ⟨⟨head, inside⟩, hopen, h⟩ := Option.bind_eq_some_iff.mp h
  obtain ⟨⟨arguments, rest⟩, hclose, h⟩ := Option.bind_eq_some_iff.mp h
  obtain rfl : (⟨trim head, arguments, rest⟩ : Call) = call := Option.some.inj h
  obtain ⟨rfl, hclosed, hbare⟩ := opening_found .code t head inside hopen
  obtain ⟨rfl, hafter, hlevel⟩ := closing_found .code 0 inside arguments rest hclose
  exact ⟨head, rfl, ⟨hclosed, hbare⟩, ⟨hafter, hlevel⟩, rfl⟩

end ParameterManual.Source
