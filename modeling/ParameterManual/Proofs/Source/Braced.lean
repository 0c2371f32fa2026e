import ParameterManual.Proofs.Source.ArgumentList

/-!
# Lists in braces

Arguments listed between braces are one argument again, since brackets of
every kind stand one deeper there. What is split off a text stands in the
text, so what was dropped before the split is not in the pieces.
-/

set_option autoImplicit false

namespace ParameterManual.Source
open Text

def braced (arguments : List Text) : Text := '\x7b' :: (listed arguments ++ ['\x7d'])

theorem nesting_deeper (opening closing : Char) (depth e : Nat) (c : Char)
    (h : nesting opening closing depth c = some e) :
    nesting opening closing (depth + 1) c = some (e + 1) := by
  grind [nesting]

/-- Where brackets of each kind are closed, a comma one deeper separates
nothing. -/
theorem separating_deeper (p b k p' b' k' : Nat) (c : Char)
    (hp : nesting '(' ')' p c = some p') (hb : nesting '\x7b' '\x7d' b c = some b')
    (hk : nesting '[' ']' k c = some k') :
    separating (p + b + k + 1) c = some (p' + b' + k' + 1) := by
  have hinner : separating (p + b + k + 1) c = some (depthAfter (p + b + k + 1) c) := by
    simp [separating]
  rw [hinner]
  congr 1
  grind [nesting, depthAfter, opens, closes]

section deeper
variable (t : Text)

theorem nested_deeper (opening closing : Char) (depth e : Nat)
    (h : t.foldlM (nesting opening closing) depth = some e) :
    t.foldlM (nesting opening closing) (depth + 1) = some (e + 1) := by
  induction t generalizing depth with
  | nil =>
    obtain rfl := Option.some.inj h
    rfl
  | cons c t ih =>
    rw [List.foldlM_cons] at h ⊢
    obtain ⟨next, hnext, hrest⟩ := Option.bind_eq_some_iff.mp h
    rw [nesting_deeper opening closing depth next c hnext]
    exact ih next hrest

theorem separated_deeper (p b k p' b' k' : Nat) (hp : t.foldlM (nesting '(' ')') p = some p')
    (hb : t.foldlM (nesting '\x7b' '\x7d') b = some b')
    (hk : t.foldlM (nesting '[' ']') k = some k') :
    t.foldlM separating (p + b + k + 1) = some (p' + b' + k' + 1) := by
  induction t generalizing p b k with
  | nil =>
    obtain rfl := Option.some.inj hp
    obtain rfl := Option.some.inj hb
    obtain rfl := Option.some.inj hk
    rfl
  | cons c t ih =>
    rw [List.foldlM_cons] at hp hb hk ⊢
    obtain ⟨p₁, hp₁, hp⟩ := Option.bind_eq_some_iff.mp hp
    obtain ⟨b₁, hb₁, hb⟩ := Option.bind_eq_some_iff.mp hb
    obtain ⟨k₁, hk₁, hk⟩ := Option.bind_eq_some_iff.mp hk
    rw [separating_deeper p b k p₁ b₁ k₁ c hp₁ hb₁ hk₁]
    exact ih p₁ b₁ k₁ hp hb hk

end deeper

theorem listed_level (count : Nat → Char → Option Nat) (depth : Nat)
    (hs : level count .code depth ", ".toList = some depth) (ws : List Text)
    (h : ∀ w ∈ ws, Quoting.code.after w = .code ∧ level count .code depth w = some depth) :
    level count .code depth (listed ws) = some depth := by
  induction ws with
  | nil => rfl
  | cons w ws ih =>
    obtain ⟨hclosed, hw⟩ := h w (by simp)
    have hrest := ih (fun v hv => h v (by simp [hv]))
    cases ws with
    | nil => simpa [listed, joined] using hw
    | cons v vs =>
      have hcomma : Quoting.code.after ", ".toList = .code := rfl
      rw [listed, joined_several _ w _ (by simp), List.append_assoc, level_append, hw,
        Option.bind_some, hclosed, level_append, hs, Option.bind_some, hcomma]
      exact hrest

theorem braced_level (count : Nat → Char → Option Nat) (depth inner : Nat)
    (hopen : count depth '\x7b' = some inner) (hclose : count inner '\x7d' = some depth)
    (hs : level count .code inner ", ".toList = some inner) (arguments : List Text)
    (h : ∀ a ∈ arguments, Quoting.code.after a = .code ∧ level count .code inner a = some inner) :
    level count .code depth (braced arguments) = some depth := by
  have hclosed : Quoting.code.after (listed arguments) = .code :=
    joined_closed _ rfl arguments (fun a ha => (h a ha).1)
  have hlisted := listed_level count inner hs arguments h
  have hfirst := level_bare count .code depth '\x7b' (listed arguments ++ ['\x7d']) (by decide)
  have hlast := level_bare count .code inner '\x7d' [] (by decide)
  rw [braced, hfirst, hopen, Option.bind_some, level_append, hlisted, Option.bind_some, hclosed,
    hlast, hclose]
  rfl

theorem braced_argument (arguments : List Text) (h : ∀ a ∈ arguments, Argument a) :
    Argument (braced arguments) := by
  have hclosed : ∀ a ∈ arguments, Quoting.code.after a = .code := fun a ha => (h a ha).closed
  have hbraces : ∀ a ∈ arguments, level (nesting '\x7b' '\x7d') .code 1 a = some 1 :=
    fun a ha => nested_deeper _ _ _ 0 0 (h a ha).braces
  have hcommas : ∀ a ∈ arguments, level separating .code 1 a = some 1 := fun a ha =>
    separated_deeper _ 0 0 0 0 0 0 (h a ha).parentheses (h a ha).braces (h a ha).squares
  constructor
  · refine trim_ink_self _ ⟨⟨'\x7b', _, rfl, rfl⟩, ⟨'\x7b' :: listed arguments, '\x7d', ?_, rfl⟩⟩
    simp [braced]
  · have hlisted : Quoting.code.after (listed arguments) = .code :=
      joined_closed ", ".toList rfl arguments hclosed
    have hopen : Quoting.code.after ['\x7b'] = .code := rfl
    rw [braced, ← List.singleton_append, Quoting.after_append, Quoting.after_append, hopen, hlisted]
    rfl
  · exact braced_level (nesting '(' ')') 0 0 (by decide) (by decide) (by decide) arguments
      (fun a ha => ⟨hclosed a ha, (h a ha).parentheses⟩)
  · exact braced_level (nesting '\x7b' '\x7d') 0 1 (by decide) (by decide) (by decide) arguments
      (fun a ha => ⟨hclosed a ha, hbraces a ha⟩)
  · exact braced_level (nesting '[' ']') 0 0 (by decide) (by decide) (by decide) arguments
      (fun a ha => ⟨hclosed a ha, (h a ha).squares⟩)
  · rw [braced_level separating 0 1 (by decide) (by decide) (by decide) arguments
      (fun a ha => ⟨hclosed a ha, hcommas a ha⟩)]
    simp

theorem extendFirst_flatten (c : Char) (ss : List Text) :
    (extendFirst c ss).flatten = c :: ss.flatten := by
  cases ss <;> rfl

theorem segments_sublist (s : Quoting) (depth : Nat) (t : Text) :
    (segments s depth t).flatten.Sublist t := by
  induction t generalizing s depth with
  | nil => exact List.Sublist.refl []
  | cons c t ih =>
    rw [segments]
    split
    · rw [extendFirst_flatten]
      exact (ih _ _).cons_cons c
    · split
      · exact (ih _ _).cons c
      · rw [extendFirst_flatten]
        exact (ih _ _).cons_cons c

theorem split_sublist (t : Text) : (splitArguments t).flatten.Sublist t := by
  have htrimmed (ws : List Text) : (ws.map trim).flatten.Sublist ws.flatten := by
    induction ws with
    | nil => exact List.Sublist.refl []
    | cons w ws ih => exact (trim_sublist w).append ih
  rw [splitArguments]
  split
  · exact List.nil_sublist t
  · exact (htrimmed _).trans (segments_sublist .code 0 t)

theorem listed_count (c : Char) (hc : c ∉ ", ".toList) (ws : List Text) :
    (listed ws).count c = ws.flatten.count c := by
  induction ws with
  | nil => rfl
  | cons w ws ih =>
    cases ws with
    | nil => simp [listed, joined]
    | cons v vs =>
      rw [listed] at ih
      rw [listed, joined_several _ w _ (by simp), List.count_append, List.count_append, ih,
        List.count_eq_zero.mpr hc, Nat.add_zero, ← List.count_append]
      rfl

/-- A text with less of a character than a listing is not split into what
was listed. -/
theorem split_fewer (c : Char) (hc : c ∉ ", ".toList) (ws : List Text) (t : Text)
    (h : t.count c < (listed ws).count c) : splitArguments t ≠ ws := by
  rintro rfl
  rw [listed_count c hc] at h
  exact absurd ((split_sublist t).count_le c) (Nat.not_le.mpr h)

end ParameterManual.Source
