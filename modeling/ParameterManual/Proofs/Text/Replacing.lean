import ParameterManual.Proofs.Text.Spacing

/-!
# Replacing a part of a text

Where a part occurs, what replaces it comes before the rest of the text with
its own occurrences replaced.
-/

set_option autoImplicit false

namespace ParameterManual.Text

theorem startsWith_split (lead t : Text) (h : startsWith lead t = true) :
    ∃ rest, t = lead ++ rest := by
  obtain ⟨rest, hrest⟩ := Option.isSome_iff_exists.mp h
  exact ⟨rest, (afterLead_iff lead t rest).mp hrest⟩

theorem occursIn_split (part t : Text) (h : occursIn part t = true) :
    ∃ before rest, t = before ++ (part ++ rest) := by
  induction t with
  | nil => exact ⟨[], [], by rw [List.isEmpty_iff.mp h]; rfl⟩
  | cons c t ih =>
    rw [occursIn, Bool.or_eq_true] at h
    rcases h with hhere | hlater
    · obtain ⟨rest, hrest⟩ := startsWith_split part (c :: t) hhere
      exact ⟨[], rest, hrest⟩
    · obtain ⟨before, rest, hrest⟩ := ih hlater
      exact ⟨c :: before, rest, by rw [hrest, List.cons_append]⟩

theorem startsWith_cons (c : Char) (lead : Text) (d : Char) (t : Text) :
    startsWith (c :: lead) (d :: t) = (decide (c = d) && startsWith lead t) := by
  rw [startsWith, afterLead?]
  split
  · rename_i h
    rw [decide_eq_true h, Bool.true_and, startsWith]
  · rename_i h
    rw [decide_eq_false h]
    rfl

theorem startsWith_shared (shared lead t : Text) :
    startsWith (shared ++ lead) (shared ++ t) = startsWith lead t := by
  induction shared with
  | nil => rfl
  | cons c shared ih =>
    rw [List.cons_append, List.cons_append, startsWith_cons, decide_eq_true rfl, ih, Bool.true_and]

theorem startsWith_append (lead t : Text) : startsWith lead (lead ++ t) = true := by
  rw [startsWith, afterLead_append]
  rfl

theorem replaceFrom_skip (a : Char) (part new skipped rest : Text) :
    replaceFrom a part new skipped.length (skipped ++ rest) = replaceFrom a part new 0 rest := by
  induction skipped with
  | nil => rfl
  | cons c skipped ih => exact ih

theorem replaceFrom_cases (a : Char) (part new : Text) (c : Char) (t : Text) :
    (∃ rest, c :: t = (a :: part) ++ rest ∧
        replaceFrom a part new 0 (c :: t) = new ++ replaceFrom a part new 0 rest) ∨
      replaceFrom a part new 0 (c :: t) = c :: replaceFrom a part new 0 t := by
  rw [replaceFrom]
  split
  · rename_i h
    obtain ⟨rest, hrest⟩ := startsWith_split (a :: part) (c :: t) h
    obtain ⟨-, rfl⟩ := List.cons.inj hrest
    exact Or.inl ⟨rest, hrest, congrArg (new ++ ·) (replaceFrom_skip a part new part rest)⟩
  · exact Or.inr rfl

theorem replace_found (a : Char) (part new rest : Text) :
    replaceAll (a :: part) new (a :: (part ++ rest)) = new ++ replaceAll (a :: part) new rest := by
  have hstarts := startsWith_append (a :: part) rest
  rw [List.cons_append] at hstarts
  simp only [replaceAll]
  rw [replaceFrom, if_pos hstarts, replaceFrom_skip]

theorem replace_kept (a : Char) (part new : Text) (c : Char) (t : Text)
    (h : startsWith (a :: part) (c :: t) = false) :
    replaceAll (a :: part) new (c :: t) = c :: replaceAll (a :: part) new t := by
  simp only [replaceAll]
  rw [replaceFrom, if_neg (Bool.eq_false_iff.mp h)]

theorem replace_passed (a : Char) (part new lead t : Text) (h : a ∉ lead) :
    replaceAll (a :: part) new (lead ++ t) = lead ++ replaceAll (a :: part) new t := by
  induction lead with
  | nil => rfl
  | cons c lead ih =>
    rw [List.mem_cons, not_or] at h
    have hstarts : startsWith (a :: part) (c :: (lead ++ t)) = false := by
      rw [startsWith_cons, decide_eq_false h.1, Bool.false_and]
    rw [List.cons_append, replace_kept a part new c _ hstarts, ih h.2, List.cons_append]

theorem replace_absent (old new t : Text) (c : Char) (hold : c ∈ old) (ht : c ∉ t) :
    replaceAll old new t = t := by
  cases old with
  | nil => cases hold
  | cons a part =>
    induction t with
    | nil => rfl
    | cons d t ih =>
      rw [replaceAll]
      rcases replaceFrom_cases a part new d t with ⟨rest, hrest, -⟩ | hkept
      · exact absurd (hrest ▸ List.mem_append_left rest hold) ht
      · rw [hkept]
        exact congrArg (d :: ·) (ih (fun hm => ht (List.mem_cons_of_mem d hm)))

theorem replace_character (a : Char) (new t : Text) :
    replaceAll [a] new t = t.flatMap (fun c => if c = a then new else [c]) := by
  induction t with
  | nil => rfl
  | cons c t ih =>
    rw [List.flatMap_cons, ← ih]
    split
    · rename_i hc
      subst hc
      exact replace_found c [] new t
    · rename_i hc
      exact replace_passed a [] new [c] t (by simpa using Ne.symm hc)

end ParameterManual.Text
