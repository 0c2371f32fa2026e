import ParameterManual.Proofs.Source.Enclosed

/-!
# Matching parentheses

A call is cut out of a text exactly if the first opening parenthesis outside
literals has a matching one, where matching is a matter of counting the
parentheses in between. One pass over the text that keeps the quoting state,
the place of the first opening parenthesis and a depth finds the same call,
and never takes one from a depth of zero.
-/

set_option autoImplicit false

namespace ParameterManual.Source
open Text

def bareCount (s : Quoting) (c : Char) (t : Text) : Nat := (s.bare t).count c

/-- A text that closes its literals, opens as many parentheses as it closes,
and up to no place closes more than it opened. -/
structure Matched (t : Text) : Prop where
  closed : Quoting.code.after t = .code
  opened : ∀ front, front <+: t → bareCount .code ')' front ≤ bareCount .code '(' front
  even : bareCount .code '(' t = bareCount .code ')' t

theorem count_covered (s : Quoting) (d c : Char) (t : Text) (h : s.covers c = true) :
    bareCount s d (c :: t) = bareCount (s.next c) d t := by
  rw [bareCount, bare_cons, if_pos h, bareCount]

theorem count_bare (s : Quoting) (d c : Char) (t : Text) (h : ¬ s.covers c = true) :
    bareCount s d (c :: t) = bareCount s d t + if c = d then 1 else 0 := by
  rw [bareCount, bare_cons, if_neg h, next_uncovered s c h, List.count_cons, bareCount]
  simp

theorem fronts_cons (c : Char) (t : Text) (p : Text → Prop) :
    (∀ front, front <+: c :: t → p front) ↔ p [] ∧ ∀ front, front <+: t → p (c :: front) := by
  constructor
  · intro h
    exact ⟨h [] List.nil_prefix, fun front hf => h _ ((List.prefix_cons_inj c).mpr hf)⟩
  · rintro ⟨hnil, hcons⟩ front hfront
    rcases List.prefix_cons_iff.mp hfront with rfl | ⟨rest, rfl, hrest⟩
    · exact hnil
    · exact hcons rest hrest

/-- The depth gets to the end of a text if no front of it closes more than was
open, and then it is what the numbers of parentheses leave. -/
theorem level_counts (s : Quoting) (depth e : Nat) (t : Text) :
    level (nesting '(' ')') s depth t = some e ↔
      (∀ front, front <+: t → bareCount s ')' front ≤ depth + bareCount s '(' front) ∧
        depth + bareCount s '(' t = e + bareCount s ')' t := by
  induction t generalizing s depth with
  | nil => simp [level, bareCount, Quoting.bare]
  | cons c t ih =>
    have hnil : bareCount s ')' [] ≤ depth + bareCount s '(' [] := by simp [bareCount, Quoting.bare]
    rw [fronts_cons, and_iff_right hnil]
    by_cases hc : s.covers c = true
    · simp only [level_covered _ s depth c t hc, count_covered s _ c _ hc, ih (s.next c) depth]
    · simp only [level_bare _ s depth c t hc, count_bare s _ c _ hc]
      by_cases ho : c = '('
      · subst ho
        have hstep : nesting '(' ')' depth '(' = some (depth + 1) := rfl
        rw [hstep, Option.bind_some, ih s (depth + 1)]
        simp only [if_true, show ¬ '(' = ')' by decide, if_false]
        exact and_congr (forall₂_congr fun _ _ => by omega) (by omega)
      by_cases hk : c = ')'
      · subst hk
        simp only [if_true, show ¬ ')' = '(' by decide, if_false]
        cases depth with
        | zero =>
          have hstep : nesting '(' ')' 0 ')' = none := rfl
          rw [hstep, Option.bind_none]
          -- the parenthesis alone is a front that closes more than was open
          refine ⟨by simp, fun h => ?_⟩
          have hfirst := h.1 [] List.nil_prefix
          simp [bareCount, Quoting.bare] at hfirst
        | succ depth =>
          have hstep : nesting '(' ')' (depth + 1) ')' = some depth := rfl
          rw [hstep, Option.bind_some, ih s depth]
          exact and_congr (forall₂_congr fun _ _ => by omega) (by omega)
      · rw [nesting_ignores '(' ')' c ⟨ho, hk⟩ depth, Option.bind_some, ih s depth]
        simp only [if_neg ho, if_neg hk, Nat.add_zero]

theorem enclosed_matched (t : Text) : Enclosed t ↔ Matched t := by
  have hcounts := level_counts .code 0 0 t
  simp only [Nat.zero_add] at hcounts
  constructor
  · intro h
    obtain ⟨opened, even⟩ := hcounts.mp h.matched
    exact ⟨h.closed, opened, even⟩
  · intro h
    exact ⟨h.closed, hcounts.mpr ⟨h.opened, h.even⟩⟩

theorem closing_none (s : Quoting) (depth : Nat) (t : Text) (h : cutAtClosing s depth t = none) :
    ∃ e, level (nesting '(' ')') s depth t = some e := by
  induction t generalizing s depth with
  | nil => exact ⟨depth, rfl⟩
  | cons c t ih =>
    by_cases hc : s.covers c = true
    · rw [closing_covered s depth c t hc, Option.map_eq_none_iff] at h
      rw [level_covered _ s depth c t hc]
      exact ih (s.next c) depth h
    · rw [closing_bare s depth c t hc] at h
      rw [level_bare _ s depth c t hc]
      cases hnext : nesting '(' ')' depth c with
      | none =>
        rw [hnext] at h
        cases h
      | some next =>
        rw [hnext] at h
        exact ih s next (Option.map_eq_none_iff.mp h)

theorem closing_unfound (s : Quoting) (depth e : Nat) (t : Text)
    (h : level (nesting '(' ')') s depth t = some e) : cutAtClosing s depth t = none := by
  have hcut := closing_level s depth e t [] h
  rw [List.append_nil] at hcut
  exact hcut

theorem closing_reached (arguments rest : Text) (hcode : Quoting.code.after arguments = .code)
    (heven : bareCount .code '(' arguments = bareCount .code ')' arguments) :
    ∃ cut, cutAtClosing .code 0 (arguments ++ ')' :: rest) = some cut := by
  rw [← Option.ne_none_iff_exists']
  intro hnone
  obtain ⟨e, hlevel⟩ := closing_none .code 0 _ hnone
  have hfront := ((level_counts .code 0 e _).mp hlevel).1 (arguments ++ [')'])
    ⟨rest, by simp⟩
  have hlast (c : Char) : bareCount .code c (arguments ++ [')']) =
      bareCount .code c arguments + if ')' = c then 1 else 0 := by
    rw [bareCount, Quoting.bare_append, List.count_append, hcode, ← bareCount, ← bareCount,
      count_bare .code c ')' [] (by decide)]
    simp [bareCount, Quoting.bare]
  rw [hlast, hlast] at hfront
  simp only [if_true, show ¬ ')' = '(' by decide, if_false] at hfront
  omega

theorem opening_unfound (s : Quoting) (t : Text) (h : ∀ c ∈ s.bare t, c ≠ '(') :
    cutAtOpening s t = none := by
  cases hcut : cutAtOpening s t with
  | none => rfl
  | some cut =>
    obtain ⟨rfl, hcode, -⟩ := opening_found s t cut.1 cut.2 hcut
    have hmem : '(' ∈ s.bare (cut.1 ++ '(' :: cut.2) := by
      rw [Quoting.bare_append, hcode, bare_cons]
      simp [Quoting.covers, Quoting.isQuote]
    exact absurd rfl (h '(' hmem)

/-- The state of one pass over a text that looks for a call. -/
structure Pass where
  quoting : Quoting
  /-- The place of the first opening parenthesis. -/
  opening : Option Nat
  depth : Nat

inductive Ending where
  | goesOn (pass : Pass)
  | closes (opening closing : Nat)
  | underflows

def Pass.start : Pass := ⟨.code, none, 0⟩

def Pass.step (pass : Pass) (place : Nat) (c : Char) : Ending :=
  if pass.quoting.covers c then .goesOn { pass with quoting := pass.quoting.next c }
  else if c = '(' then
    .goesOn { pass with opening := pass.opening.or (some place), depth := pass.depth + 1 }
  else if c = ')' then
    match pass.opening, pass.depth with
    | none, _ => .goesOn pass
    | some _, 0 => .underflows
    | some opening, 1 => .closes opening place
    | some _, depth + 2 => .goesOn { pass with depth := depth + 1 }
  else .goesOn pass

def Pass.run : Pass → (place : Nat) → Text → Ending
  | pass, _, [] => .goesOn pass
  | pass, place, c :: t =>
    match pass.step place c with
    | .goesOn next => next.run (place + 1) t
    | ending => ending

def Ending.call? (t : Text) : Ending → Option Call
  | .closes opening closing =>
    some ⟨trim (t.take opening), (t.take closing).drop (opening + 1), t.drop (closing + 1)⟩
  | _ => none

/-- What a pass knows of the text that it has gone over. -/
inductive Pass.Behind : Text → Pass → Prop
  | unopened (front : Text) (plain : ∀ c ∈ Quoting.code.bare front, c ≠ '(') :
      Pass.Behind front ⟨Quoting.code.after front, none, 0⟩
  | opened (head arguments : Text) (depth : Nat) (first : Outside (· ≠ '(') head)
      (counted : level (nesting '(' ')') .code 0 arguments = some depth) :
      Pass.Behind (head ++ '(' :: arguments)
        ⟨Quoting.code.after arguments, some head.length, depth + 1⟩

inductive Ending.Reached : Text → Ending → Prop
  | goesOn (front : Text) (pass : Pass) (behind : pass.Behind front) :
      Ending.Reached front (.goesOn pass)
  | closes (head arguments rest : Text) (first : Outside (· ≠ '(') head)
      (matched : Enclosed arguments) :
      Ending.Reached (head ++ '(' :: (arguments ++ ')' :: rest))
        (.closes head.length (head ++ '(' :: arguments).length)

theorem after_snoc (s : Quoting) (t : Text) (c : Char) :
    s.after (t ++ [c]) = (s.after t).next c := by
  rw [Quoting.after_append]
  rfl

theorem step_unopened (front : Text) (c : Char) (plain : ∀ d ∈ Quoting.code.bare front, d ≠ '(') :
    Ending.Reached (front ++ [c])
      (Pass.step ⟨Quoting.code.after front, none, 0⟩ front.length c) := by
  have hgoes (h : ¬ c = '(' ∨ (Quoting.code.after front).covers c = true) :
      Pass.Behind (front ++ [c]) ⟨(Quoting.code.after front).next c, none, 0⟩ := by
    rw [← after_snoc]
    refine .unopened _ ?_
    rw [Quoting.bare_append, bare_cons]
    intro d hd
    rcases List.mem_append.mp hd with hd | hd
    · exact plain d hd
    · by_cases hc : (Quoting.code.after front).covers c = true
      · simp [hc, Quoting.bare] at hd
      · obtain rfl : d = c := by simpa [hc, Quoting.bare] using hd
        exact h.resolve_right hc
  rw [Pass.step]
  by_cases hc : (Quoting.code.after front).covers c = true
  · rw [if_pos hc]
    exact .goesOn _ _ (hgoes (Or.inr hc))
  rw [if_neg hc]
  rw [next_uncovered _ c hc] at hgoes
  by_cases ho : c = '('
  · subst ho
    rw [if_pos rfl]
    have hcode := uncovered_code _ '(' hc
    rw [hcode]
    exact .goesOn _ _ (.opened front [] 0 ⟨hcode, plain⟩ rfl)
  · rw [if_neg ho, ite_self]
    exact .goesOn _ _ (hgoes (Or.inl ho))

theorem step_opened (head arguments : Text) (depth : Nat) (c : Char)
    (first : Outside (· ≠ '(') head)
    (counted : level (nesting '(' ')') .code 0 arguments = some depth) :
    Ending.Reached (head ++ '(' :: arguments ++ [c])
      (Pass.step ⟨Quoting.code.after arguments, some head.length, depth + 1⟩
        (head ++ '(' :: arguments).length c) := by
  have hgoes (e : Nat) (h : level (nesting '(' ')') .code 0 (arguments ++ [c]) = some e) :
      Pass.Behind (head ++ '(' :: arguments ++ [c])
        ⟨(Quoting.code.after arguments).next c, some head.length, e + 1⟩ := by
    rw [← after_snoc, List.append_assoc, List.cons_append]
    exact .opened head (arguments ++ [c]) e first h
  rw [level_append, counted, Option.bind_some] at hgoes
  rw [Pass.step]
  by_cases hc : (Quoting.code.after arguments).covers c = true
  · rw [if_pos hc]
    exact .goesOn _ _ (hgoes depth (level_covered _ _ depth c [] hc))
  rw [if_neg hc]
  rw [next_uncovered _ c hc] at hgoes
  have hgoes (e : Nat) (h : nesting '(' ')' depth c = some e) := hgoes e (by
    rw [level_bare _ _ depth c [] hc, h]
    rfl)
  by_cases ho : c = '('
  · subst ho
    rw [if_pos rfl]
    exact .goesOn _ _ (hgoes (depth + 1) rfl)
  rw [if_neg ho]
  by_cases hk : c = ')'
  · subst hk
    rw [if_pos rfl]
    cases depth with
    | zero =>
      rw [List.append_assoc, List.cons_append]
      exact .closes head arguments [] first ⟨uncovered_code _ ')' hc, counted⟩
    | succ depth => exact .goesOn _ _ (hgoes depth rfl)
  · rw [if_neg hk]
    exact .goesOn _ _ (hgoes depth (nesting_ignores '(' ')' c ⟨ho, hk⟩ depth))

/-- One step goes on with what the pass knows, or ends at the parenthesis that
matches; it does not underflow. -/
theorem step_reached (front : Text) (pass : Pass) (c : Char) (h : pass.Behind front) :
    Ending.Reached (front ++ [c]) (pass.step front.length c) := by
  cases h with
  | unopened _ plain => exact step_unopened front c plain
  | opened head arguments depth first counted =>
    exact step_opened head arguments depth c first counted

theorem run_reached (front t : Text) (pass : Pass) (h : pass.Behind front) :
    Ending.Reached (front ++ t) (pass.run front.length t) := by
  induction t generalizing front pass with
  | nil =>
    rw [List.append_nil]
    exact .goesOn front pass h
  | cons c t ih =>
    have hstep := step_reached front pass c h
    have htext : front ++ c :: t = front ++ [c] ++ t := by simp
    rw [Pass.run, htext]
    generalize hnow : front ++ [c] = now at hstep
    cases hending : pass.step front.length c with
    | goesOn next =>
      rw [hending] at hstep
      cases hstep with
      | goesOn _ _ behind =>
        have hrest := ih now next behind
        rw [← hnow, List.length_append, List.length_singleton] at hrest
        rw [← hnow]
        exact hrest
    | closes opening closing =>
      rw [hending] at hstep
      cases hstep with
      | closes head arguments rest first matched =>
        rw [List.append_assoc, List.cons_append, List.append_assoc, List.cons_append]
        exact .closes head arguments (rest ++ t) first matched
    | underflows =>
      rw [hending] at hstep
      cases hstep

theorem closes_call (head arguments rest : Text) :
    (Ending.closes head.length (head ++ '(' :: arguments).length).call?
        (head ++ '(' :: (arguments ++ ')' :: rest)) = some ⟨trim head, arguments, rest⟩ := by
  have htext : head ++ '(' :: (arguments ++ ')' :: rest) =
      (head ++ '(' :: arguments) ++ ')' :: rest := by simp
  have hbehind : (head ++ '(' :: arguments).drop (head.length + 1) = arguments := by
    rw [List.drop_append, List.drop_of_length_le (by omega)]
    simp
  rw [Ending.call?, List.take_left, htext, List.take_left, hbehind, List.drop_append,
    List.drop_of_length_le (by omega)]
  simp

theorem reached_call (t : Text) (ending : Ending) (h : ending.Reached t) :
    ending ≠ .underflows ∧ ending.call? t = Call.ofText? t := by
  cases h with
  | goesOn _ pass behind =>
    refine ⟨by simp, ?_⟩
    cases behind with
    | unopened _ plain =>
      rw [Call.ofText?, opening_unfound .code t plain]
      rfl
    | opened head arguments depth first counted =>
      rw [Call.ofText?, opening_append head arguments first]
      simp only [Option.bind_eq_bind, Option.bind_some]
      rw [closing_unfound .code 0 depth arguments counted]
      rfl
  | closes head arguments rest first matched =>
    exact ⟨by simp, (closes_call head arguments rest).trans
      (call_read head arguments rest first matched).symm⟩

/-- A call is returned for exactly the texts that are a head without an opening
parenthesis outside literals, then matched parentheses, then any rest; it is
returned if and only if the first opening parenthesis has a closing one behind
it that the count matches; and one pass finds it without an underflow. -/
theorem call_matched (t : Text) :
    (∀ call, Call.ofText? t = some call ↔
      ∃ head, trim head = call.head ∧ Outside (· ≠ '(') head ∧ Matched call.arguments ∧
        t = head ++ '(' :: (call.arguments ++ ')' :: call.rest)) ∧
    ((∃ call, Call.ofText? t = some call) ↔
      ∃ head arguments rest, t = head ++ '(' :: (arguments ++ ')' :: rest) ∧
        Outside (· ≠ '(') head ∧ Quoting.code.after arguments = .code ∧
        bareCount .code '(' arguments = bareCount .code ')' arguments) ∧
    Pass.start.run 0 t ≠ .underflows ∧ (Pass.start.run 0 t).call? t = Call.ofText? t := by
  have hexact (call : Call) : Call.ofText? t = some call ↔
      ∃ head, trim head = call.head ∧ Outside (· ≠ '(') head ∧ Matched call.arguments ∧
        t = head ++ '(' :: (call.arguments ++ ')' :: call.rest) := by
    constructor
    · intro h
      obtain ⟨head, hhead, hfirst, henclosed, htext⟩ := call_found t call h
      exact ⟨head, hhead, hfirst, (enclosed_matched _).mp henclosed, htext⟩
    · rintro ⟨head, hhead, hfirst, hmatched, rfl⟩
      rw [call_read head _ _ hfirst ((enclosed_matched _).mpr hmatched), hhead]
  refine ⟨hexact, ?_, ?_⟩
  · constructor
    · rintro ⟨call, h⟩
      obtain ⟨head, -, hfirst, hmatched, htext⟩ := (hexact call).mp h
      exact ⟨head, call.arguments, call.rest, htext, hfirst, hmatched.closed, hmatched.even⟩
    · rintro ⟨head, arguments, rest, rfl, hfirst, hcode, heven⟩
      obtain ⟨cut, hcut⟩ := closing_reached arguments rest hcode heven
      rw [Call.ofText?, opening_append head _ hfirst]
      exact ⟨⟨trim head, cut.1, cut.2⟩, by simp [hcut]⟩
  · exact reached_call t _ (run_reached [] t Pass.start (.unopened [] (by simp [Quoting.bare])))

end ParameterManual.Source
