import Mathlib.Data.List.Forall2

/-!
# Steps that may fail

What a sequence of steps comes to, in terms of its steps: a result of two
steps in turn, and of one step for each element of a list.
-/

set_option autoImplicit false

namespace ParameterManual

variable {α β ε : Type}

theorem bind_ok {x : Except ε α} {f : α → Except ε β} {b : β} (h : (x >>= f) = .ok b) :
    ∃ a, x = .ok a ∧ f a = .ok b := by
  cases x with
  | error e => cases h
  | ok a => exact ⟨a, rfl, h⟩

theorem map_ok {x : Except ε α} {f : α → β} {b : β} (h : f <$> x = .ok b) :
    ∃ a, x = .ok a ∧ f a = b := by
  cases x with
  | error e => cases h
  | ok a => exact ⟨a, rfl, Except.ok.inj h⟩

theorem ok_some {x : Except ε α} {a : α} (h : x.toOption = some a) : x = .ok a := by
  cases x with
  | error e => cases h
  | ok b => exact congrArg Except.ok (Option.some.inj h)

theorem ok_measured {x : Except ε α} (f : α → β) (b : β) (h : (x.map f).toOption = some b) :
    ∃ a, x = .ok a ∧ f a = b := by
  cases x with
  | error e => cases h
  | ok a => exact ⟨a, rfl, Option.some.inj h⟩

theorem mapM_congr (f g : α → Except ε β) (list : List α) (h : ∀ a ∈ list, f a = g a) :
    list.mapM f = list.mapM g := by
  induction list with
  | nil => rfl
  | cons a rest ih =>
    rw [List.mapM_cons, List.mapM_cons, h a (by simp), ih (fun d hd => h d (by simp [hd]))]

theorem bind_ok_iff {x : Except ε α} {f : α → Except ε β} {b : β} :
    (x >>= f) = .ok b ↔ ∃ a, x = .ok a ∧ f a = .ok b := by
  constructor
  · exact bind_ok
  · rintro ⟨a, rfl, h⟩
    exact h

theorem mapM_ok (f : α → Except ε β) (list : List α) (results : List β) :
    list.mapM f = .ok results ↔ List.Forall₂ (fun a b => f a = .ok b) list results := by
  induction list generalizing results with
  | nil =>
    rw [List.forall₂_nil_left_iff, List.mapM_nil]
    exact ⟨fun h => (Except.ok.inj h).symm, fun h => h ▸ rfl⟩
  | cons a rest ih =>
    rw [List.mapM_cons, bind_ok_iff, List.forall₂_cons_left_iff]
    constructor
    · rintro ⟨first, hfirst, h⟩
      obtain ⟨others, hothers, h⟩ := bind_ok h
      exact ⟨first, others, hfirst, (ih others).mp hothers, (Except.ok.inj h).symm⟩
    · rintro ⟨first, others, hfirst, hothers, rfl⟩
      exact ⟨first, hfirst, bind_ok_iff.mpr ⟨others, (ih others).mpr hothers, rfl⟩⟩

theorem forall₂_mem {R : α → β → Prop} (first : List α) (last : List β)
    (h : List.Forall₂ R first last) (b : β) (hb : b ∈ last) : ∃ a ∈ first, R a b := by
  induction h with
  | nil => cases hb
  | @cons a c _ _ hfirst _ ih =>
    rcases List.mem_cons.mp hb with rfl | hb
    · exact ⟨a, by simp, hfirst⟩
    · obtain ⟨d, hd, hown⟩ := ih hb
      exact ⟨d, List.mem_cons_of_mem a hd, hown⟩

theorem mem_mapM (f : α → Except ε β) (list : List α) (results : List β)
    (h : list.mapM f = .ok results) (b : β) (hb : b ∈ results) : ∃ a ∈ list, f a = .ok b :=
  forall₂_mem list results ((mapM_ok f list results).mp h) b hb

theorem forall₂_comp {γ : Type} {R : α → β → Prop} {S : β → γ → Prop} (first : List α)
    (last : List γ) :
    (∃ between, List.Forall₂ R first between ∧ List.Forall₂ S between last) ↔
      List.Forall₂ (fun a c => ∃ b, R a b ∧ S b c) first last := by
  induction first generalizing last with
  | nil => simp
  | cons a rest ih =>
    simp only [List.forall₂_cons_left_iff]
    constructor
    · rintro ⟨_, ⟨b, between, hb, hbetween, rfl⟩, hlast⟩
      obtain ⟨c, others, hc, hothers, rfl⟩ := List.forall₂_cons_left_iff.mp hlast
      exact ⟨c, others, ⟨b, hb, hc⟩, (ih others).mp ⟨between, hbetween, hothers⟩, rfl⟩
    · rintro ⟨c, others, ⟨b, hb, hc⟩, hothers, rfl⟩
      obtain ⟨between, hbetween, hlast⟩ := (ih others).mpr hothers
      exact ⟨b :: between, ⟨b, between, hb, hbetween, rfl⟩, .cons hc hlast⟩

theorem forall₂_unique {R S : α → β → Prop} (first : List α) (last other : List β)
    (hunique : ∀ a ∈ first, ∀ b c, R a b → S a c → b = c) (h : List.Forall₂ R first last)
    (h' : List.Forall₂ S first other) : last = other := by
  induction h generalizing other with
  | nil => exact (List.forall₂_nil_left_iff.mp h').symm
  | @cons a b first last hab _ ih =>
    obtain ⟨c, rest, hac, hrest, rfl⟩ := List.forall₂_cons_left_iff.mp h'
    rw [hunique a List.mem_cons_self b c hab hac]
    rw [ih rest (fun d hd => hunique d (List.mem_cons_of_mem a hd)) hrest]

theorem foldlM_congr (f g : β → α → Except ε β) (list : List α)
    (h : ∀ a ∈ list, ∀ b, f b a = g b a) (b : β) : list.foldlM f b = list.foldlM g b := by
  induction list generalizing b with
  | nil => rfl
  | cons a rest ih =>
    rw [List.foldlM_cons, List.foldlM_cons, h a (by simp) b]
    congr 1
    funext c
    exact ih (fun d hd => h d (by simp [hd])) c

/-- A change of the start that each step carries over to its result. -/
theorem foldlM_carried (f : β → α → Except ε β) (change : β → β) (list : List α)
    (h : ∀ a ∈ list, ∀ b, f (change b) a = change <$> f b a) (b : β) :
    list.foldlM f (change b) = change <$> list.foldlM f b := by
  induction list generalizing b with
  | nil => rfl
  | cons a rest ih =>
    rw [List.foldlM_cons, List.foldlM_cons, h a (by simp) b]
    cases f b a with
    | error e => rfl
    | ok c => exact ih (fun d hd => h d (by simp [hd])) c

theorem foldlM_kept (f : β → α → Except ε β) (P : β → Prop) (list : List α)
    (h : ∀ a ∈ list, ∀ b c, P b → f b a = .ok c → P c) (b c : β) (hb : P b)
    (hc : list.foldlM f b = .ok c) : P c := by
  induction list generalizing b with
  | nil =>
    obtain rfl : b = c := Except.ok.inj hc
    exact hb
  | cons a rest ih =>
    rw [List.foldlM_cons] at hc
    obtain ⟨next, hnext, hrest⟩ := bind_ok hc
    apply ih (fun d hd => h d (by simp [hd])) next
    · exact h a (by simp) b next hb hnext
    · exact hrest

theorem foldlM_each (f : β → α → Except ε β) (list : List α) (b c : β)
    (h : list.foldlM f b = .ok c) (a : α) (ha : a ∈ list) : ∃ d e, f d a = .ok e := by
  induction list generalizing b with
  | nil => cases ha
  | cons first rest ih =>
    rw [List.foldlM_cons] at h
    obtain ⟨next, hnext, hrest⟩ := bind_ok h
    rcases List.mem_cons.mp ha with rfl | ha
    · exact ⟨b, next, hnext⟩
    · exact ih next hrest ha

/-- A fold fails at the first element whose step does, after a start of the
list that it takes whole. -/
theorem foldlM_error (f : β → α → Except ε β) (list : List α) (b : β) (e : ε)
    (h : list.foldlM f b = .error e) :
    ∃ before a after c, list = before ++ a :: after ∧ before.foldlM f b = .ok c ∧
      f c a = .error e := by
  induction list generalizing b with
  | nil => cases h
  | cons first rest ih =>
    rw [List.foldlM_cons] at h
    cases hfirst : f b first with
    | error d =>
      rw [hfirst] at h
      obtain rfl : d = e := Except.error.inj h
      exact ⟨[], first, rest, b, rfl, rfl, hfirst⟩
    | ok next =>
      rw [hfirst] at h
      obtain ⟨before, a, after, c, rfl, hbefore, ha⟩ := ih next h
      refine ⟨first :: before, a, after, c, rfl, ?_, ha⟩
      rw [List.foldlM_cons, hfirst]
      exact hbefore

theorem last_where (P : α → Prop) (list : List α) (h : ∃ a ∈ list, P a) :
    ∃ before a after, list = before ++ a :: after ∧ P a ∧ ∀ b ∈ after, ¬ P b := by
  induction list with
  | nil => simp at h
  | cons first rest ih =>
    by_cases hrest : ∃ a ∈ rest, P a
    · obtain ⟨before, a, after, rfl, ha, hlast⟩ := ih hrest
      exact ⟨first :: before, a, after, rfl, ha, hlast⟩
    · push Not at hrest
      obtain ⟨a, ha, hP⟩ := h
      rcases List.mem_cons.mp ha with rfl | ha
      · exact ⟨[], a, rest, rfl, hP, hrest⟩
      · exact absurd hP (hrest a ha)

end ParameterManual
