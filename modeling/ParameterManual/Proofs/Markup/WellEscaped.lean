import ParameterManual.Proofs.Markup.Delimiters

/-!
# Well-escaped texts

A text is well-escaped if its dollar signs pair up and every other special
character outside inline math has a backslash in front. Escaping puts a
backslash exactly at the places that lack one, so what it gives is
well-escaped, and well-escaped texts are those that it leaves as they are.
-/

set_option autoImplicit false

namespace ParameterManual.Markup

def SpecialAt (t : Text) (i : Nat) : Prop := (t[i]?).any isSpecial = true

instance (t : Text) : DecidablePred (SpecialAt t) := fun _ => inferInstanceAs (Decidable (_ = _))

structure WellEscaped (t : Text) : Prop where
  paired : Even (delimiters t).length
  others : ∀ i, SpecialAt t i → ¬ Delimits t i → ¬ InMath t i → Backslashed t i

/-- A special character outside inline math with no backslash in front. -/
def Lacks (t : Text) (i : Nat) : Prop := SpecialAt t i ∧ ¬ InMath t i ∧ ¬ Backslashed t i

instance (t : Text) : DecidablePred (Lacks t) := fun _ => inferInstanceAs (Decidable (_ ∧ _ ∧ _))

/-- The text with a backslash put in front of each of the given places, which
count from `n`. -/
def withBackslashes (before : Nat → Prop) [DecidablePred before] : (n : Nat) → Text → Text
  | _, [] => []
  | n, c :: t =>
    if before n then '\\' :: c :: withBackslashes before (n + 1) t
    else c :: withBackslashes before (n + 1) t

/-- The places at which the special characters of a text lack a backslash, if
the text begins at `n` and math is within the spans of `places`. -/
def Marks (before : Nat → Prop) (places : List Nat) (escaped : Bool) (n : Nat) (t : Text) : Prop :=
  ∀ i < t.length, before (n + i) ↔
    SpecialAt t i ∧ ¬ Within places (n + i) ∧ after escaped (t.take i) = false

section marks
variable {before : Nat → Prop} {places : List Nat} {escaped : Bool} {n : Nat} {c : Char} {t : Text}

theorem marks_first (h : Marks before places escaped n (c :: t)) :
    before n ↔ isSpecial c = true ∧ ¬ Within places n ∧ escaped = false := by
  have hfirst := h 0 (by simp)
  simpa [SpecialAt, after] using hfirst

theorem marks_rest (h : Marks before places escaped n (c :: t)) (others : List Nat)
    (hsame : ∀ i, n < i → (Within places i ↔ Within others i)) :
    Marks before others (c == '\\') (n + 1) t := by
  intro i hi
  have hnext := h (i + 1) (by simpa using hi)
  have hplace : n + (i + 1) = n + 1 + i := by omega
  rw [hplace, hsame _ (by omega)] at hnext
  exact hnext

end marks

section scan
variable (before : Nat → Prop) [DecidablePred before] (t : Text) (escaped : Bool) (n : Nat)

/-- In text, and in math that a dollar sign at an earlier place has opened,
the scan puts backslashes at the marked places. -/
theorem escape_marks :
    (Marks before (delimitersFrom escaped n t) escaped n t →
        escapeText escaped t = withBackslashes before n t) ∧
      (∀ first < n, hasDelimiter escaped t = true →
        Marks before (first :: delimitersFrom escaped n t) escaped n t →
        escapeMath escaped t = withBackslashes before n t) := by
  induction t generalizing escaped n with
  | nil => exact ⟨fun _ => rfl, fun _ _ _ _ => rfl⟩
  | cons c t ih =>
    by_cases hd : c = '$' ∧ escaped = false
    · obtain ⟨rfl, rfl⟩ := hd
      have hplaces : delimitersFrom false n ('$' :: t) = n :: delimitersFrom false (n + 1) t := by
        rw [delimitersFrom, if_pos ⟨rfl, rfl⟩]
        rfl
      rw [hplaces]
      constructor
      · intro h
        have hfirst := marks_first h
        cases hmore : hasDelimiter false t with
        | true =>
          have hopen := opened_within n n (n + 1) t false hmore (Nat.le_refl n) (Nat.le_succ n)
          have hrest := (ih false (n + 1)).2 n (Nat.lt_succ_self n) hmore
            (marks_rest h _ (fun _ _ => Iff.rfl))
          rw [text_opens t hmore, withBackslashes, if_neg (fun hb => (hfirst.mp hb).2.1 hopen),
            hrest]
        | false =>
          -- the last of an odd number, which encloses nothing
          have hnone := (delimitersFrom_nil t false (n + 1)).mpr hmore
          rw [hnone] at h hfirst
          have hrest := (ih false (n + 1)).1 (marks_rest h _ (fun i _ => by
            rw [hnone]
            exact iff_of_false (not_within_single n i) (not_within_nil i)))
          rw [text_special '$' t rfl (fun _ => hmore), withBackslashes,
            if_pos (hfirst.mpr ⟨rfl, not_within_single n n, rfl⟩), hrest]
      · intro first hlt _ h
        have hclose : Within (first :: n :: delimitersFrom false (n + 1) t) n :=
          (within_pair first n n _).mpr (Or.inl ⟨Nat.le_of_lt hlt, Nat.le_refl n⟩)
        have hrest := (ih false (n + 1)).1 (marks_rest h _ (fun i hi =>
          (within_pair first n i _).trans (or_iff_right (by omega))))
        rw [math_closes, withBackslashes,
          if_neg (fun hb => ((marks_first h).mp hb).2.1 hclose), hrest]
    · have hplaces : delimitersFrom escaped n (c :: t) =
          delimitersFrom (c == '\\') (n + 1) t := by rw [delimitersFrom, if_neg hd]
      rw [hplaces]
      constructor
      · intro h
        have hrest := (ih (c == '\\') (n + 1)).1 (marks_rest h _ (fun _ _ => Iff.rfl))
        have hlater : ¬ Within (delimitersFrom (c == '\\') (n + 1) t) n := by
          intro hin
          exact absurd (within_from n _ (n + 1) (delimitersFrom_ge t _ _) hin) (by omega)
        have hfirst : before n ↔ isSpecial c = true ∧ escaped = false := by
          rw [marks_first h, and_iff_right hlater]
        rw [withBackslashes, ← hrest]
        cases escaped with
        | true => rw [text_escaped, if_neg (by simp [hfirst])]
        | false =>
          cases hs : isSpecial c with
          | false => rw [text_plain c t hs, if_neg (by simp [hfirst, hs])]
          | true =>
            have hc : (c == '\\') = false := beq_eq_false_iff_ne.mpr (special_plain c hs)
            rw [text_special c t hs (fun he => absurd ⟨he, rfl⟩ hd), if_pos (hfirst.mpr ⟨hs, rfl⟩),
              hc]
      · intro first hlt hmore h
        rw [delimiter_rest c t escaped hd] at hmore
        have hopen := opened_within first n (n + 1) t (c == '\\') hmore (Nat.le_of_lt hlt)
          (Nat.le_succ n)
        have hrest := (ih (c == '\\') (n + 1)).2 first (Nat.lt_succ_of_lt hlt) hmore
          (marks_rest h _ (fun _ _ => Iff.rfl))
        rw [math_other c t escaped hd, withBackslashes,
          if_neg (fun hb => ((marks_first h).mp hb).2.1 hopen), hrest]

end scan

theorem escape_places (t : Text) : escape t = withBackslashes (Lacks t) 0 t := by
  apply (escape_marks (Lacks t) t false 0).1
  intro i hi
  rw [Nat.zero_add, ← delimiters_scanned, Lacks, InMath, ← after_take t i (Nat.le_of_lt hi),
    Bool.not_eq_true]

section unchanged
variable (before : Nat → Prop) [DecidablePred before]

theorem withBackslashes_longer (n : Nat) (t : Text) :
    t.length ≤ (withBackslashes before n t).length := by
  induction t generalizing n with
  | nil => exact Nat.le_refl 0
  | cons c t ih =>
    have hrest := ih (n + 1)
    rw [withBackslashes]
    split <;> simp <;> omega

theorem withBackslashes_count (d : Char) (hd : d ≠ '\\') (n : Nat) (t : Text) :
    (withBackslashes before n t).count d = t.count d := by
  induction t generalizing n with
  | nil => rfl
  | cons c t ih =>
    rw [withBackslashes]
    split
    · rw [List.count_cons_of_ne hd.symm, List.count_cons, List.count_cons, ih]
    · rw [List.count_cons, List.count_cons, ih]

theorem withBackslashes_same (n : Nat) (t : Text) :
    withBackslashes before n t = t ↔ ∀ i < t.length, ¬ before (n + i) := by
  induction t generalizing n with
  | nil => simp [withBackslashes]
  | cons c t ih =>
    have hplaces : (∀ i < (c :: t).length, ¬ before (n + i)) ↔
        ¬ before n ∧ ∀ i < t.length, ¬ before (n + 1 + i) := by
      rw [List.length_cons, Nat.forall_lt_succ_left]
      simp only [Nat.add_zero, Nat.add_assoc, Nat.add_comm 1]
    rw [hplaces, withBackslashes]
    by_cases hb : before n
    · rw [if_pos hb]
      refine iff_of_false ?_ (fun h => h.1 hb)
      intro heq
      have hlength := congrArg List.length heq
      have hlonger := withBackslashes_longer before (n + 1) t
      simp only [List.length_cons] at hlength
      omega
    · rw [if_neg hb, List.cons.injEq, and_iff_right rfl, ih, and_iff_right hb]

end unchanged

theorem escape_count (d : Char) (hd : d ≠ '\\') (t : Text) : (escape t).count d = t.count d := by
  rw [escape_places, withBackslashes_count (Lacks t) d hd]

/-- A text is well-escaped if no place lacks a backslash: the last of an odd
number of dollar signs would. -/
theorem wellEscaped_iff (t : Text) : WellEscaped t ↔ ∀ i < t.length, ¬ Lacks t i := by
  constructor
  · rintro h i - ⟨hs, hmath, hback⟩
    by_cases hd : Delimits t i
    · exact hmath (even_within i _ h.paired (delimiters_sorted t) ((mem_delimiters t i).mpr hd))
    · exact hback (h.others i hs hd hmath)
  · intro h
    have hplace (i : Nat) (hs : SpecialAt t i) (hmath : ¬ InMath t i) : Backslashed t i := by
      by_contra hback
      refine h i ?_ ⟨hs, hmath, hback⟩
      by_contra hlt
      rw [SpecialAt, List.getElem?_eq_none (Nat.le_of_not_lt hlt)] at hs
      cases hs
    constructor
    · by_contra hodd
      obtain ⟨i, hi, hout⟩ := odd_outside _ hodd (delimiters_sorted t)
      obtain ⟨hdollar, hback⟩ := (mem_delimiters t i).mp hi
      exact hback (hplace i (by rw [SpecialAt, hdollar]; rfl) hout)
    · exact fun i hs _ hmath => hplace i hs hmath

theorem escaped_iff (t : Text) : Escaped t ↔ WellEscaped t := by
  rw [Escaped, escape_places, withBackslashes_same, wellEscaped_iff]
  simp only [Nat.zero_add]

/-- Escaping puts single backslashes in front of special characters outside
inline math, at the places that lack one. What it gives is well-escaped, and
the well-escaped texts are what it leaves as they are and what it can give. -/
theorem escape_image (t : Text) :
    escape t = withBackslashes (Lacks t) 0 t ∧ WellEscaped (escape t) ∧
      (escape t = t ↔ WellEscaped t) ∧ escape (escape t) = escape t ∧
      ((∃ u, escape u = t) ↔ escape t = t) := by
  refine ⟨escape_places t, ?_, escaped_iff t, escape_escaped t, ?_⟩
  · exact (escaped_iff _).mp (escape_escaped t)
  · constructor
    · rintro ⟨u, rfl⟩
      exact escape_escaped u
    · exact fun h => ⟨t, h⟩

/-- Math, a lone dollar sign and special characters in and out of math. -/
example : withBackslashes (Lacks "a_$b_c$ $5 \\% %".toList) 0 "a_$b_c$ $5 \\% %".toList =
    "a\\_$b_c$ \\$5 \\% \\%".toList := by
  decide

end ParameterManual.Markup
