import ParameterManual.Text.Map

/-!
# Maps in order

What a map holds is what its lookups find. Once its entries are put in order,
the keys whose values have a property are a list that the lookups alone
decide.
-/

set_option autoImplicit false

namespace ParameterManual.TextMap

variable {α β : Type}

theorem keys_insert (key : Text) (value : α) (m : TextMap α) (k : Text)
    (h : k ∈ (insert key value m).keys) : k = key ∨ k ∈ m.keys := by
  induction m with
  | nil => simpa [insert, keys] using h
  | cons e m ih =>
    obtain ⟨l, a⟩ := e
    unfold insert at h
    split at h
    · rcases List.mem_cons.mp h with h | h
      · exact Or.inl h
      · exact Or.inr (List.mem_cons_of_mem _ h)
    · split at h
      · exact List.mem_cons.mp h
      · rcases List.mem_cons.mp h with h | h
        · exact Or.inr (by simp [keys, h])
        · exact (ih h).imp_right (List.mem_cons_of_mem _)

theorem mem_insert (key : Text) (value : α) (m : TextMap α) (e : Text × α)
    (h : e ∈ insert key value m) : e = (key, value) ∨ e ∈ m := by
  induction m with
  | nil => simpa [insert] using h
  | cons d m ih =>
    unfold insert at h
    split at h
    · rcases List.mem_cons.mp h with h | h
      · exact Or.inl h
      · exact Or.inr (List.mem_cons_of_mem _ h)
    · split at h
      · exact List.mem_cons.mp h
      · rcases List.mem_cons.mp h with h | h
        · exact Or.inr (by simp [h])
        · exact (ih h).imp_right (List.mem_cons_of_mem _)

theorem mapValue_all (P : α → Prop) (f : α → α) (key : Text) (m : TextMap α)
    (hm : ∀ e ∈ m, P e.2) (hf : ∀ a, P a → P (f a)) : ∀ e ∈ mapValue f key m, P e.2 := by
  intro e he
  obtain ⟨d, hd, rfl⟩ := List.mem_map.mp he
  by_cases hk : d.1 = key
  · simpa [hk] using hf d.2 (hm d hd)
  · simpa [hk] using hm d hd

theorem find?_mapValue (f : α → α) (key : Text) (m : TextMap α) (k : Text) :
    find? k (mapValue f key m) = if k = key then (find? k m).map f else find? k m := by
  induction m with
  | nil => simp [mapValue, find?]
  | cons e m ih =>
    obtain ⟨l, a⟩ := e
    have hcons : mapValue f key ((l, a) :: m) =
        (l, if l = key then f a else a) :: mapValue f key m := by
      rw [mapValue, List.map_cons, ← mapValue]
      by_cases hl : l = key
      · rw [if_pos hl, if_pos hl]
      · rw [if_neg hl, if_neg hl]
    rw [hcons]
    by_cases hk : l = k
    · subst hk
      by_cases hl : l = key <;> simp [find?, hl]
    · simp only [find?, hk, if_false]
      exact ih

theorem mem_keys (m : TextMap α) (k : Text) : k ∈ keys m ↔ (find? k m).isSome = true := by
  induction m with
  | nil => simp [keys, find?]
  | cons e m ih =>
    obtain ⟨l, a⟩ := e
    change k ∈ l :: keys m ↔ _
    by_cases hl : l = k
    · simp [find?, hl]
    · simp [find?, hl, Ne.symm hl, ih]

theorem sorted_insert (key : Text) (value : α) (m : TextMap α) (h : m.Sorted) :
    (insert key value m).Sorted := by
  induction m with
  | nil => simp [insert, Sorted, keys]
  | cons e m ih =>
    obtain ⟨k, a⟩ := e
    obtain ⟨hk, hm⟩ := List.pairwise_cons.mp h
    unfold insert
    split
    · rename_i heq
      exact List.pairwise_cons.mpr ⟨heq ▸ hk, hm⟩
    · rename_i hne
      split
      · rename_i hlt
        refine List.pairwise_cons.mpr ⟨?_, h⟩
        intro l hl
        rcases List.mem_cons.mp hl with rfl | hl
        · exact hlt
        · exact List.lt_trans hlt (hk l hl)
      · rename_i hge
        have hlt : k < key := by
          by_cases hlt : k < key
          · exact hlt
          · exact absurd (List.le_antisymm hlt hge) hne
        refine List.pairwise_cons.mpr ⟨?_, ih hm⟩
        intro l hl
        rcases keys_insert key value m l hl with rfl | hl
        · exact hlt
        · exact hk l hl

theorem insert_last (key : Text) (value : α) (m : TextMap α) (h : ∀ k ∈ keys m, k < key) :
    insert key value m = m ++ [(key, value)] := by
  induction m with
  | nil => rfl
  | cons e m ih =>
    obtain ⟨k, a⟩ := e
    obtain ⟨hk, hm⟩ := List.forall_mem_cons.mp h
    have hne : key ≠ k := by
      rintro rfl
      exact List.lt_irrefl key hk
    rw [insert, if_neg hne, if_neg (List.lt_asymm hk), ih hm, List.cons_append]

theorem find?_last (key : Text) (m : TextMap α) (h : ∀ k ∈ keys m, k < key) :
    find? key m = none := by
  rw [← Option.not_isSome_iff_eq_none, ← mem_keys]
  exact fun hm => List.lt_irrefl key (h key hm)

theorem sorted_behind (m : TextMap α) (e : Text × α) (others : TextMap α)
    (h : Sorted (m ++ e :: others)) : ∀ k ∈ keys m, k < e.1 := by
  rw [Sorted, keys, List.map_append, List.pairwise_append] at h
  exact fun k hk => h.2.2 k hk e.1 (by simp)

theorem insertAll_sorted (entries m : TextMap α) (h : Sorted (m ++ entries)) :
    insertAll entries m = m ++ entries := by
  induction entries generalizing m with
  | nil => simp [insertAll]
  | cons e rest ih =>
    have hlast := insert_last e.1 e.2 m (sorted_behind m e rest h)
    have hrest := ih (m ++ [e]) (by rwa [List.append_assoc])
    change insertAll rest (insert e.1 e.2 m) = _
    rw [hlast, hrest, List.append_assoc]
    rfl

def inOrder (m : TextMap α) : TextMap α := m.foldr (fun e m => insert e.1 e.2 m) []

theorem sorted_inOrder (m : TextMap α) : (inOrder m).Sorted := by
  induction m with
  | nil => exact List.Pairwise.nil
  | cons e m ih => exact sorted_insert e.1 e.2 _ ih

theorem find?_inOrder (key : Text) (m : TextMap α) : find? key (inOrder m) = find? key m := by
  induction m with
  | nil => rfl
  | cons e m ih =>
    obtain ⟨k, a⟩ := e
    change find? key (insert k a (inOrder m)) = _
    by_cases h : k = key
    · subst h
      rw [find?_insert_self, find?, if_pos rfl]
    · rw [find?_insert_of_ne (Ne.symm h), ih, find?, if_neg h]

theorem find?_of_mem (m : TextMap α) (h : m.Sorted) (k : Text) (a : α) (hm : (k, a) ∈ m) :
    find? k m = some a := by
  induction m with
  | nil => simp at hm
  | cons e m ih =>
    obtain ⟨l, b⟩ := e
    obtain ⟨hl, hs⟩ := List.pairwise_cons.mp h
    rcases List.mem_cons.mp hm with heq | hm
    · obtain ⟨rfl, rfl⟩ := Prod.mk.inj heq
      simp [find?]
    · have hlt : l < k := hl k (List.mem_map.mpr ⟨(k, a), hm, rfl⟩)
      have hne : l ≠ k := by
        rintro rfl
        exact List.lt_irrefl l hlt
      simpa [find?, hne] using ih hs hm

theorem mem_of_find? (m : TextMap α) (k : Text) (a : α) (h : find? k m = some a) :
    (k, a) ∈ m := by
  induction m with
  | nil => simp [find?] at h
  | cons e m ih =>
    obtain ⟨l, b⟩ := e
    by_cases hl : l = k
    · obtain rfl : b = a := by simpa [find?, hl] using h
      simp [hl]
    · exact List.mem_cons_of_mem _ (ih (by simpa [find?, hl] using h))

def keysWhere (p : Text → α → Bool) (m : TextMap α) : List Text :=
  ((inOrder m).filter (fun e => p e.1 e.2)).map Prod.fst

theorem mem_keysWhere (p : Text → α → Bool) (m : TextMap α) (k : Text) :
    k ∈ keysWhere p m ↔ (find? k m).any (p k) = true := by
  rw [← find?_inOrder k m, keysWhere, List.mem_map]
  constructor
  · rintro ⟨⟨l, a⟩, he, rfl⟩
    obtain ⟨hm, hp⟩ := List.mem_filter.mp he
    simpa [find?_of_mem _ (sorted_inOrder m) l a hm] using hp
  · intro h
    cases hf : find? k (inOrder m) with
    | none => simp [hf] at h
    | some a =>
      rw [hf] at h
      exact ⟨(k, a), List.mem_filter.mpr ⟨mem_of_find? _ k a hf, by simpa using h⟩, rfl⟩

theorem keysWhere_sorted (p : Text → α → Bool) (m : TextMap α) :
    (keysWhere p m).Pairwise (· < ·) :=
  List.Pairwise.sublist (List.Sublist.map Prod.fst List.filter_sublist) (sorted_inOrder m)

theorem ordered_nodup (list : List Text) (h : list.Pairwise (· < ·)) : list.Nodup := by
  refine h.imp ?_
  rintro k l hlt rfl
  exact List.lt_irrefl k hlt

theorem ordered_ext (first last : List Text) (hfirst : first.Pairwise (· < ·))
    (hlast : last.Pairwise (· < ·)) (h : ∀ k, k ∈ first ↔ k ∈ last) : first = last := by
  have hperm : first.Perm last :=
    (List.perm_ext_iff_of_nodup (ordered_nodup first hfirst) (ordered_nodup last hlast)).mpr h
  refine List.Perm.eq_of_pairwise ?_ hfirst hlast hperm
  intro k l _ _ hkl hlk
  exact absurd hlk (List.lt_asymm hkl)

theorem keysWhere_ext (p : Text → α → Bool) (m n : TextMap α)
    (h : ∀ k, (find? k m).any (p k) = (find? k n).any (p k)) : keysWhere p m = keysWhere p n := by
  apply ordered_ext _ _ (keysWhere_sorted p m) (keysWhere_sorted p n)
  intro k
  rw [mem_keysWhere, mem_keysWhere, h k]

end ParameterManual.TextMap
