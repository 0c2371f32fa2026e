import Mathlib.Algebra.BigOperators.Group.List.Basic
import Mathlib.Algebra.Ring.Nat
import Mathlib.Data.List.Dedup
import ParameterManual.Proofs.Text.Map

/-!
# Maps filled from entries

Of the entries with one key that are put into a map in turn, the last one
stays. So no more can be counted in the map than in the entries, and as much
exactly if no key comes twice.
-/

set_option autoImplicit false

namespace ParameterManual.TextMap

variable {α β : Type}

theorem find?_insertAll (entries : List (Text × α)) (m : TextMap α) (key : Text) :
    find? key (insertAll entries m) = (entries.reverse.lookup key).or (find? key m) := by
  induction entries generalizing m with
  | nil => rfl
  | cons e rest ih =>
    obtain ⟨first, a⟩ := e
    have hlast : find? key (insert first a m) = ([(first, a)].lookup key).or (find? key m) := by
      rw [List.lookup_cons]
      by_cases hkey : key = first
      · subst hkey
        simp [find?_insert_self]
      · have hfirst : (key == first) = false := by simpa using hkey
        simp [find?_insert_of_ne hkey, hfirst]
    rw [List.reverse_cons, List.lookup_append, Option.or_assoc, ← hlast]
    exact ih (insert first a m)

theorem lookup_last_none (entries : List (Text × α)) (key : Text) (h : ∀ e ∈ entries, e.1 ≠ key) :
    entries.reverse.lookup key = none := by
  rw [List.lookup_eq_none_iff]
  intro e he
  simpa using (h e (List.mem_reverse.mp he)).symm

theorem find?_insertAll_other (entries : List (Text × α)) (m : TextMap α) (key : Text)
    (h : ∀ e ∈ entries, e.1 ≠ key) : find? key (insertAll entries m) = find? key m := by
  rw [find?_insertAll, lookup_last_none entries key h, Option.none_or]

theorem find?_insertAll_some (entries : List (Text × α)) (m : TextMap α) (key : Text)
    (h : ∃ e ∈ entries, e.1 = key) :
    ∃ a, (key, a) ∈ entries ∧ find? key (insertAll entries m) = some a := by
  rw [find?_insertAll]
  cases hfind : entries.reverse.lookup key with
  | none =>
    obtain ⟨e, he, rfl⟩ := h
    have hother := List.lookup_eq_none_iff.mp hfind e (List.mem_reverse.mpr he)
    simp at hother
  | some a =>
    obtain ⟨front, back, hsplit, -⟩ := List.lookup_eq_some_iff.mp hfind
    have hmem : (key, a) ∈ entries.reverse := by simp [hsplit]
    exact ⟨a, List.mem_reverse.mp hmem, Option.some_or⟩

theorem lookup_last_sorted (m : TextMap α) (h : m.Sorted) (key : Text) :
    m.reverse.lookup key = find? key m := by
  cases hfind : m.reverse.lookup key with
  | none =>
    cases hfound : find? key m with
    | none => rfl
    | some a =>
      have hmem := List.mem_reverse.mpr (mem_of_find? m key a hfound)
      have hother := List.lookup_eq_none_iff.mp hfind _ hmem
      simp at hother
  | some a =>
    obtain ⟨front, back, hsplit, -⟩ := List.lookup_eq_some_iff.mp hfind
    have hmem : (key, a) ∈ m.reverse := by simp [hsplit]
    exact (find?_of_mem m h key a (List.mem_reverse.mp hmem)).symm

theorem find?_insertAll_own (entries : List (Text × α)) (m n : TextMap α) (key : Text)
    (h : find? key m = find? key n) :
    find? key (insertAll entries m) =
      find? key (insertAll (entries.filter (fun e => e.1 = key)) n) := by
  induction entries generalizing m n with
  | nil => exact h
  | cons e rest ih =>
    by_cases hkey : e.1 = key
    · rw [List.filter_cons_of_pos (by simpa using hkey)]
      apply ih
      rw [← hkey, find?_insert_self, find?_insert_self]
    · rw [List.filter_cons_of_neg (by simpa using hkey)]
      apply ih
      rw [find?_insert_of_ne (Ne.symm hkey), h]

theorem mem_insertAll (entries : List (Text × α)) (m : TextMap α) (e : Text × α)
    (h : e ∈ insertAll entries m) : e ∈ entries ∨ e ∈ m := by
  induction entries generalizing m with
  | nil => exact Or.inr h
  | cons first rest ih =>
    rcases ih (insert first.1 first.2 m) h with h | h
    · exact Or.inl (List.mem_cons_of_mem first h)
    · rcases mem_insert first.1 first.2 m e h with rfl | h
      · exact Or.inl List.mem_cons_self
      · exact Or.inr h

theorem sorted_insertAll (entries : List (Text × α)) (m : TextMap α) (h : m.Sorted) :
    (insertAll entries m).Sorted := by
  induction entries generalizing m with
  | nil => exact h
  | cons e rest ih => exact ih _ (sorted_insert e.1 e.2 m h)

theorem ofEntries_length (entries : List (Text × α)) :
    (ofEntries entries).length = (entries.map Prod.fst).dedup.length := by
  have hsorted : (ofEntries entries).Sorted := sorted_insertAll entries [] List.Pairwise.nil
  have hnodup : (ofEntries entries).keys.Nodup := ordered_nodup _ hsorted
  have hmem (key : Text) : key ∈ (ofEntries entries).keys ↔ key ∈ (entries.map Prod.fst).dedup := by
    rw [mem_keys, ofEntries, find?_insertAll, List.mem_dedup]
    simp [find?, List.lookup_isSome_iff]
  have hperm := (List.perm_ext_iff_of_nodup hnodup (List.nodup_dedup _)).mpr hmem
  rw [← hperm.length_eq, keys, List.length_map]

theorem find?_map (f : α → β) (m : TextMap α) (key : Text) :
    find? key (m.map (fun e => (e.1, f e.2))) = (find? key m).map f := by
  induction m with
  | nil => rfl
  | cons e m ih =>
    rw [List.map_cons, find?, find?, ih]
    split <;> rfl

theorem insert_map (f : α → β) (key : Text) (a : α) (m : TextMap α) :
    insert key (f a) (m.map (fun e => (e.1, f e.2))) =
      (insert key a m).map (fun e => (e.1, f e.2)) := by
  induction m with
  | nil => rfl
  | cons e rest ih =>
    rw [List.map_cons, insert, insert, ih]
    split
    · rfl
    · split
      · rfl
      · rfl

theorem insertAll_map (f : α → β) (entries : List (Text × α)) (m : TextMap α) :
    insertAll (entries.map (fun e => (e.1, f e.2))) (m.map (fun e => (e.1, f e.2))) =
      (insertAll entries m).map (fun e => (e.1, f e.2)) := by
  induction entries generalizing m with
  | nil => rfl
  | cons e rest ih =>
    have hrest := ih (insert e.1 e.2 m)
    rw [← insert_map] at hrest
    exact hrest

section sums
variable (weight : Text × α → Nat)

theorem insert_sum (key : Text) (a : α) (m : TextMap α) (h : m.Sorted) :
    ((insert key a m).map weight).sum + (find? key m).elim 0 (fun b => weight (key, b)) =
      weight (key, a) + (m.map weight).sum := by
  induction m with
  | nil => simp [insert, find?]
  | cons e rest ih =>
    obtain ⟨k, b⟩ := e
    obtain ⟨hk, hrest⟩ := List.pairwise_cons.mp h
    have hsum := ih hrest
    rw [insert]
    split
    · rename_i heq
      subst heq
      simp [find?]
      omega
    · rename_i hne
      split
      · rename_i hlt
        have hnone : find? key ((k, b) :: rest) = none := by
          rw [← Option.not_isSome_iff_eq_none, ← mem_keys]
          intro hm
          rcases List.mem_cons.mp hm with hm | hm
          · exact hne hm
          · exact List.lt_irrefl key (List.lt_trans hlt (hk key hm))
        simp [hnone]
      · simp [find?, Ne.symm hne]
        omega

theorem fresh_insert (key : Text) (a : α) (m : TextMap α) (entries : List (Text × α)) :
    (∀ e ∈ entries, find? e.1 (insert key a m) = none) ↔
      key ∉ entries.map Prod.fst ∧ ∀ e ∈ entries, find? e.1 m = none := by
  rw [List.mem_map]
  constructor
  · intro h
    have hne (e : Text × α) (he : e ∈ entries) : e.1 ≠ key := by
      rintro rfl
      have hnone := h e he
      rw [find?_insert_self] at hnone
      cases hnone
    refine ⟨fun ⟨e, he, hkey⟩ => hne e he hkey, ?_⟩
    intro e he
    rw [← h e he, find?_insert_of_ne (hne e he)]
  · rintro ⟨hkey, h⟩ e he
    rw [find?_insert_of_ne (fun heq => hkey ⟨e, he, heq⟩), h e he]

/-- Of values that all count, a map has as much as the entries it is filled
from if no key comes twice, and less otherwise. -/
theorem insertAll_sum (hweight : ∀ e, 0 < weight e) (entries : List (Text × α)) (m : TextMap α)
    (h : m.Sorted) :
    ((insertAll entries m).map weight).sum ≤ (entries.map weight).sum + (m.map weight).sum ∧
      (((insertAll entries m).map weight).sum = (entries.map weight).sum + (m.map weight).sum ↔
        (entries.map Prod.fst).Nodup ∧ ∀ e ∈ entries, find? e.1 m = none) := by
  induction entries generalizing m with
  | nil => simp [insertAll]
  | cons e rest ih =>
    obtain ⟨key, a⟩ := e
    have hinsert := insert_sum weight key a m h
    obtain ⟨hle, heq⟩ := ih (insert key a m) (sorted_insert key a m h)
    change ((insertAll rest (insert key a m)).map weight).sum ≤ _ ∧
      (((insertAll rest (insert key a m)).map weight).sum = _ ↔ _)
    rw [fresh_insert] at heq
    simp only [List.map_cons, List.sum_cons, List.nodup_cons, List.forall_mem_cons]
    cases hfind : find? key m with
    | some old =>
      have hold := hweight (key, old)
      rw [hfind, Option.elim_some] at hinsert
      refine ⟨by omega, ?_⟩
      constructor
      · intro hsum
        omega
      · rintro ⟨-, hnone, -⟩
        cases hnone
    | none =>
      rw [hfind, Option.elim_none] at hinsert
      have hsum : weight (key, a) + (rest.map weight).sum + (m.map weight).sum =
          (rest.map weight).sum + ((insert key a m).map weight).sum := by omega
      rw [hsum, heq]
      refine ⟨hle, ?_⟩
      constructor
      · rintro ⟨hnodup, hkey, hrest⟩
        exact ⟨⟨hkey, hnodup⟩, rfl, hrest⟩
      · rintro ⟨⟨hkey, hnodup⟩, -, hrest⟩
        exact ⟨hnodup, hkey, hrest⟩

end sums

end ParameterManual.TextMap
