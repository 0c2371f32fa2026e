import ParameterManual.Proofs.Source.Arguments
import ParameterManual.Proofs.Source.Enclosed

/-!
# Argument lists

Arguments are listed with a comma and a space between them. A list is read
back as the arguments if no comma outside literals and brackets is part of
one, and what the split of a text comes to is always such a list.
-/

set_option autoImplicit false

namespace ParameterManual.Source
open Text

def listed (arguments : List Text) : Text := joined ", ".toList arguments

/-- Stretches of source that the commas between them separate. The last one
may leave brackets and literals open. -/
inductive Divided : List Text → Prop
  | empty : Divided []
  | last (w : Text) (whole : level separating .code 0 w ≠ none) : Divided [w]
  | more (w v : Text) (ws : List Text) (closed : Quoting.code.after w = .code)
      (whole : level separating .code 0 w = some 0) (rest : Divided (v :: ws)) :
      Divided (w :: v :: ws)

inductive Parted : List Text → Prop
  | empty : Parted []
  | last (w : Text) (closed : Quoting.code.after w = .code)
      (whole : level separating .code 0 w ≠ none) : Parted [w]
  | more (w v : Text) (ws : List Text) (closed : Quoting.code.after w = .code)
      (whole : level separating .code 0 w = some 0) (rest : Parted (v :: ws)) :
      Parted (w :: v :: ws)

theorem parted_closed (ws : List Text) (h : Parted ws) :
    ∀ w ∈ ws, Quoting.code.after w = .code := by
  induction h with
  | empty => simp
  | last w closed _ => simpa using closed
  | more w v ws closed _ _ ih => exact List.forall_mem_cons.mpr ⟨closed, ih⟩

theorem parted_iff (ws : List Text) :
    Parted ws ↔ Divided ws ∧ ∀ w ∈ ws, Quoting.code.after w = .code := by
  constructor
  · intro h
    refine ⟨?_, parted_closed ws h⟩
    induction h with
    | empty => exact .empty
    | last w _ whole => exact .last w whole
    | more w v ws closed whole _ ih => exact .more w v ws closed whole ih
  · rintro ⟨h, hclosed⟩
    induction h with
    | empty => exact .empty
    | last w whole => exact .last w (hclosed w (by simp)) whole
    | more w v ws closed whole _ ih =>
      exact .more w v ws closed whole (ih (fun u hu => hclosed u (by simp [hu])))

theorem separating_blank : Ignores separating (fun c => isBlank c = true) := by
  intro c hc depth
  exact separating_ignores c (blank_separate c hc) depth

theorem whole_trim (w : Text) (h : level separating .code 0 w ≠ none) :
    level separating .code 0 (trim w) ≠ none := by
  obtain ⟨g, r, hw, hg, -⟩ := trim_split w
  have before := outside_blank (fun c => isBlank c = true) (fun _ hc => hc) g hg
  intro hnone
  apply h
  rw [hw, level_append, level_append, before.closed,
    level_ignored separating _ separating_blank .code 0 g before.only, Option.bind_some, hnone]
  rfl

theorem divided_trim (ws : List Text) (h : Divided ws) : Divided (ws.map trim) := by
  induction h with
  | empty => exact .empty
  | last w whole => exact .last (trim w) (whole_trim w whole)
  | more w v ws closed whole _ ih =>
    apply Divided.more _ _ _ _ _ ih
    · exact (trim_bare w closed).1
    · rw [level_trim separating separating_blank 0 w closed]
      exact whole

theorem parted_trim (ws : List Text) (h : Parted ws) : Parted (ws.map trim) := by
  obtain ⟨hdivided, hclosed⟩ := (parted_iff ws).mp h
  apply (parted_iff _).mpr
  refine ⟨divided_trim ws hdivided, List.forall_mem_map.mpr ?_⟩
  intro w hw
  exact (trim_bare w (hclosed w hw)).1

/-- A text is its segments with commas between them. -/
theorem segments_divided (ws : List Text) (t : Text) (h : segments .code 0 t = ws) :
    Divided ws ∧ joined [','] ws = t := by
  induction ws generalizing t with
  | nil => exact absurd h (segments_ne _ _ _)
  | cons w ws ih =>
    rcases segments_found .code 0 t w ws h with ⟨rfl, rfl, hne⟩ | ⟨rest, rfl, hw, hzero, hrest⟩
    · exact ⟨.last t hne, by simp [joined]⟩
    · obtain ⟨hdivided, hjoined⟩ := ih rest hrest
      have hws : ws ≠ [] := hrest ▸ segments_ne _ _ _
      constructor
      · obtain ⟨v, vs, rfl⟩ := List.exists_cons_of_ne_nil hws
        exact .more w v vs hw hzero hdivided
      · rw [joined_several [','] w ws hws, hjoined]
        simp

theorem divided_closed (ws : List Text) (h : Divided ws)
    (hcode : Quoting.code.after (joined [','] ws) = .code) :
    ∀ w ∈ ws, Quoting.code.after w = .code := by
  induction h with
  | empty => simp
  | last w _ => simpa [joined] using hcode
  | more w v ws closed _ _ ih =>
    rw [joined_several [','] w (v :: ws) (by simp), Quoting.after_append, Quoting.after_append,
      closed] at hcode
    exact List.forall_mem_cons.mpr ⟨closed, ih hcode⟩

theorem segments_parted (ws : List Text) (t : Text) (h : segments .code 0 t = ws)
    (hcode : Quoting.code.after t = .code) : Parted ws ∧ joined [','] ws = t := by
  obtain ⟨hdivided, rfl⟩ := segments_divided ws t h
  exact ⟨(parted_iff ws).mpr ⟨hdivided, divided_closed ws hdivided hcode⟩, rfl⟩

theorem segments_listed (w : Text) (ws : List Text) (h : Divided (w :: ws)) :
    segments .code 0 (listed (w :: ws)) = w :: ws.map (' ' :: ·) := by
  induction ws generalizing w with
  | nil =>
    cases h with
    | last _ whole =>
      obtain ⟨e, he⟩ := Option.ne_none_iff_exists'.mp whole
      have hsegments := segments_level .code 0 e w [] he
      rw [List.append_nil, segments, extend_first, List.append_nil] at hsegments
      simpa [listed, joined] using hsegments
  | cons v ws ih =>
    cases h with
    | more _ _ _ closed whole rest =>
      have hcomma : segments .code 0 (',' :: ' ' :: listed (v :: ws)) =
          [] :: extendFirst ' ' (segments .code 0 (listed (v :: ws))) := by
        simp [segments, Quoting.covers, Quoting.isQuote, depthAfter, opens, closes]
      have htext : listed (w :: v :: ws) = w ++ (',' :: ' ' :: listed (v :: ws)) := by
        rw [listed, joined_several _ w (v :: ws) (by simp)]
        simp [listed]
      rw [htext, segments_level .code 0 0 w _ whole, closed, hcomma, extend_first, ih v rest]
      simp [extendFirst]

theorem joined_closed (separator : Text) (hs : Quoting.code.after separator = .code)
    (ws : List Text) (h : ∀ w ∈ ws, Quoting.code.after w = .code) :
    Quoting.code.after (joined separator ws) = .code := by
  induction ws with
  | nil => rfl
  | cons w ws ih =>
    have hw := h w (by simp)
    have hrest := ih (fun v hv => h v (by simp [hv]))
    cases ws with
    | nil => simpa [joined] using hw
    | cons v vs =>
      rw [joined_several separator w _ (by simp), Quoting.after_append, Quoting.after_append, hw,
        hs, hrest]

theorem joined_level (count : Nat → Char → Option Nat) (separator : Text) (p : Char → Prop)
    (hcount : Ignores count p) (hs : Outside p separator) (ws : List Text)
    (h : ∀ w ∈ ws, Quoting.code.after w = .code) (depth : Nat) :
    level count .code depth (joined separator ws) = ws.foldlM (level count .code) depth := by
  induction ws generalizing depth with
  | nil => rfl
  | cons w ws ih =>
    have hw := h w (by simp)
    have hrest := ih (fun v hv => h v (by simp [hv]))
    cases ws with
    | nil => simp [joined]
    | cons v vs =>
      rw [joined_several separator w _ (by simp), List.append_assoc, level_append, hw,
        List.foldlM_cons]
      congr 1
      funext e
      rw [level_append, hs.closed, level_ignored count p hcount .code e separator hs.only,
        Option.bind_some, hrest e]

theorem listed_enclosed (ws : List Text) (h : ∀ w ∈ ws, Quoting.code.after w = .code) :
    Enclosed (listed ws) ↔ ws.foldlM (level (nesting '(' ')') .code) 0 = some 0 := by
  have hseparator : Outside (fun c => c ≠ '(' ∧ c ≠ ')') ", ".toList := outside_checked _ _ rfl
  have hlevel := joined_level _ _ _ (nesting_ignores '(' ')') hseparator ws h 0
  constructor
  · intro henclosed
    rw [← hlevel]
    exact henclosed.matched
  · intro hfold
    exact ⟨joined_closed _ rfl ws h, hlevel.trans hfold⟩

theorem fold_trim (count : Nat → Char → Option Nat)
    (hcount : Ignores count (fun c => isBlank c = true)) (ws : List Text)
    (h : ∀ w ∈ ws, Quoting.code.after w = .code) (depth : Nat) :
    (ws.map trim).foldlM (level count .code) depth = ws.foldlM (level count .code) depth := by
  induction ws generalizing depth with
  | nil => rfl
  | cons w ws ih =>
    rw [List.map_cons, List.foldlM_cons, List.foldlM_cons,
      level_trim count hcount depth w (h w (by simp))]
    congr 1
    funext e
    exact ih (fun v hv => h v (by simp [hv])) e

/-- Trimmed arguments that are listed apart are read back. -/
theorem split_divided (arguments : List Text) (htrim : ∀ a ∈ arguments, trim a = a)
    (hsole : arguments ≠ [[]]) (h : Divided arguments) :
    splitArguments (listed arguments) = arguments := by
  cases arguments with
  | nil => rfl
  | cons w ws =>
    have hink : isAllBlank (listed (w :: ws)) = false := by
      cases ws with
      | nil =>
        have hw := htrim w (by simp)
        have hne : w ≠ [] := fun hnil => hsole (by rw [hnil])
        have hlisted : listed [w] = w := by simp [listed, joined]
        rw [hlisted, ← Bool.not_eq_true, ← trim_nil_iff, hw]
        exact hne
      | cons v vs =>
        rw [listed, joined_several _ w _ (by simp), isAllBlank, List.all_append, List.all_append]
        simp [isBlank]
    have hspace : (ws.map (' ' :: ·)).map trim = ws := by
      rw [List.map_map]
      refine (List.map_congr_left fun v hv => ?_).trans (List.map_id ws)
      exact (trim_blank ' ' v rfl).trans (htrim v (by simp [hv]))
    rw [splitArguments, hink, segments_listed w ws h, if_neg (by simp), List.map_cons,
      htrim w (by simp), hspace]

theorem split_trimmed (t : Text) : ∀ a ∈ splitArguments t, trim a = a := by
  intro a ha
  rw [splitArguments] at ha
  split at ha
  · cases ha
  · obtain ⟨w, -, rfl⟩ := List.mem_map.mp ha
    exact trim_trim w

theorem split_sole (t : Text) : splitArguments t ≠ [[]] := by
  rw [splitArguments]
  split
  · simp
  · rename_i hblank
    intro hsole
    obtain ⟨w, hw, hnil⟩ := List.map_eq_singleton_iff.mp hsole
    obtain ⟨-, hjoined⟩ := segments_divided [w] t hw
    apply hblank
    rw [← hjoined, ← trim_nil_iff]
    simpa [joined] using hnil

/-- An argument list that is read back as it was listed. -/
structure Restorable (arguments : List Text) : Prop where
  trimmed : ∀ argument ∈ arguments, trim argument = argument
  /-- One empty argument is listed as no text, which is read as no argument. -/
  sole : arguments ≠ [[]]
  parted : Parted arguments
  enclosed : Enclosed (listed arguments)

theorem split_listed (arguments : List Text) (h : Restorable arguments) :
    splitArguments (listed arguments) = arguments :=
  split_divided arguments h.trimmed h.sole ((parted_iff arguments).mp h.parted).1

theorem split_restorable (t : Text) (h : Enclosed t) : Restorable (splitArguments t) := by
  have htrimmed := split_trimmed t
  have hsole := split_sole t
  rw [splitArguments] at htrimmed hsole ⊢
  by_cases hblank : t.isAllBlank = true
  · rw [if_pos hblank]
    exact ⟨by simp, by simp, .empty, ⟨rfl, rfl⟩⟩
  · rw [if_neg hblank] at htrimmed hsole ⊢
    obtain ⟨hparted, hjoined⟩ := segments_parted _ t rfl h.closed
    have hclosed := parted_closed _ hparted
    have hclosed' := parted_closed _ (parted_trim _ hparted)
    refine ⟨htrimmed, hsole, parted_trim _ hparted, ?_⟩
    rw [listed_enclosed _ hclosed', fold_trim _ _ _ hclosed]
    · rw [← joined_level _ [','] _ (nesting_ignores '(' ')') _ _ hclosed, hjoined]
      · exact h.matched
      · exact outside_checked _ _ rfl
    · exact nesting_blank '(' ')' rfl rfl

/-- An argument in the form that is listed: trimmed, with its literals and its
brackets of each kind closed, and its commas inside them. -/
structure Argument (a : Text) : Prop where
  trimmed : trim a = a
  closed : Quoting.code.after a = .code
  parentheses : level (nesting '(' ')') .code 0 a = some 0
  braces : level (nesting '\x7b' '\x7d') .code 0 a = some 0
  squares : level (nesting '[' ']') .code 0 a = some 0
  whole : level separating .code 0 a ≠ none

instance : DecidablePred Argument := fun a =>
  decidable_of_iff (trim a = a ∧ Quoting.code.after a = .code ∧
      level (nesting '(' ')') .code 0 a = some 0 ∧
      level (nesting '\x7b' '\x7d') .code 0 a = some 0 ∧
      level (nesting '[' ']') .code 0 a = some 0 ∧ level separating .code 0 a ≠ none)
    ⟨fun ⟨trimmed, closed, parentheses, braces, squares, whole⟩ =>
      ⟨trimmed, closed, parentheses, braces, squares, whole⟩,
      fun h => ⟨h.trimmed, h.closed, h.parentheses, h.braces, h.squares, h.whole⟩⟩

/-- Brackets of all kinds are as deep as those of each kind together. -/
theorem separating_step (p b k p' b' k' e : Nat) (c : Char)
    (hp : nesting '(' ')' p c = some p') (hb : nesting '\x7b' '\x7d' b c = some b')
    (hk : nesting '[' ']' k c = some k') (he : separating (p + b + k) c = some e) :
    e = p' + b' + k' := by
  grind [nesting, separating, depthAfter, opens, closes]

theorem separating_sum (t : Text) (p b k p' b' k' e : Nat)
    (hp : t.foldlM (nesting '(' ')') p = some p')
    (hb : t.foldlM (nesting '\x7b' '\x7d') b = some b')
    (hk : t.foldlM (nesting '[' ']') k = some k')
    (he : t.foldlM separating (p + b + k) = some e) : e = p' + b' + k' := by
  induction t generalizing p b k with
  | nil =>
    obtain rfl := Option.some.inj hp
    obtain rfl := Option.some.inj hb
    obtain rfl := Option.some.inj hk
    exact (Option.some.inj he).symm
  | cons c t ih =>
    rw [List.foldlM_cons] at hp hb hk he
    obtain ⟨p₁, hp₁, hp⟩ := Option.bind_eq_some_iff.mp hp
    obtain ⟨b₁, hb₁, hb⟩ := Option.bind_eq_some_iff.mp hb
    obtain ⟨k₁, hk₁, hk⟩ := Option.bind_eq_some_iff.mp hk
    obtain ⟨e₁, he₁, he⟩ := Option.bind_eq_some_iff.mp he
    obtain rfl := separating_step p b k p₁ b₁ k₁ e₁ c hp₁ hb₁ hk₁ he₁
    exact ih p₁ b₁ k₁ hp hb hk he

theorem Argument.separate {a : Text} (h : Argument a) : level separating .code 0 a = some 0 := by
  obtain ⟨e, he⟩ := Option.ne_none_iff_exists'.mp h.whole
  have hsum := separating_sum _ 0 0 0 0 0 0 e h.parentheses h.braces h.squares he
  rw [he, hsum]

theorem arguments_parted (arguments : List Text) (h : ∀ a ∈ arguments, Argument a) :
    Parted arguments := by
  induction arguments with
  | nil => exact .empty
  | cons a others ih =>
    have ha := h a (by simp)
    have hothers := ih (fun b hb => h b (by simp [hb]))
    cases others with
    | nil => exact .last a ha.closed ha.whole
    | cons b more => exact .more a b more ha.closed ha.separate hothers

theorem arguments_nested (arguments : List Text) (h : ∀ a ∈ arguments, Argument a) :
    arguments.foldlM (level (nesting '(' ')') .code) 0 = some 0 := by
  induction arguments with
  | nil => rfl
  | cons a others ih =>
    rw [List.foldlM_cons, (h a (by simp)).parentheses]
    exact ih (fun b hb => h b (by simp [hb]))

theorem arguments_restorable (arguments : List Text) (h : ∀ a ∈ arguments, Argument a)
    (hsole : arguments ≠ [[]]) : Restorable arguments := by
  have hparted := arguments_parted arguments h
  constructor
  · intro a ha
    exact (h a ha).trimmed
  · exact hsole
  · exact hparted
  · rw [listed_enclosed arguments (parted_closed arguments hparted)]
    exact arguments_nested arguments h

end ParameterManual.Source
