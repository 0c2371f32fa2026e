import Mathlib.Data.List.DropRight
import ParameterManual.Text.Basic

/-!
# Joined lines and trimmed lines

Lines joined by single spaces show how many lines they were, as long as no
line is added that was not there. Trimming takes exactly the blanks around a
text that begins and ends with something else.
-/

set_option autoImplicit false

namespace ParameterManual.Text

theorem joined_several (separator piece : Text) (pieces : List Text) (h : pieces ≠ []) :
    joined separator (piece :: pieces) = piece ++ separator ++ joined separator pieces :=
  List.intercalate_cons_of_ne_nil h

theorem joined_cons (piece : Text) (pieces : List Text) (h : pieces ≠ []) :
    joined [' '] (piece :: pieces) = piece ++ ' ' :: joined [' '] pieces := by
  rw [joined_several [' '] piece pieces h]
  simp

theorem joined_append (pieces : List Text) (h : pieces ≠ []) (piece : Text) :
    joined [' '] (pieces ++ [piece]) = joined [' '] pieces ++ ' ' :: piece := by
  induction pieces with
  | nil => exact absurd rfl h
  | cons first rest ih =>
    rw [List.cons_append, joined_cons first (rest ++ [piece]) (by simp)]
    cases rest with
    | nil => simp [joined]
    | cons second rest =>
      rw [ih (by simp), joined_cons first (second :: rest) (by simp)]
      simp

theorem spaced_joined (pieces : List Text) (h : pieces ≠ []) :
    pieces.flatMap (' ' :: ·) = ' ' :: joined [' '] pieces := by
  induction pieces with
  | nil => exact absurd rfl h
  | cons piece rest ih =>
    by_cases hne : rest = []
    · simp [hne, joined]
    · rw [List.flatMap_cons, ih hne, joined_cons piece rest hne]
      rfl

theorem joined_spaced (piece : Text) (pieces : List Text) :
    joined [' '] (piece :: pieces) = piece ++ pieces.flatMap (' ' :: ·) := by
  by_cases hne : pieces = []
  · simp [hne, joined]
  · rw [joined_cons piece pieces hne, spaced_joined pieces hne]

/-- Each line adds a space, so no two nonempty initial parts of a list have
the same join. -/
theorem joined_take_injective (lines : List Text) (a b : Nat) (ha : 0 < a) (hb : 0 < b)
    (hal : a ≤ lines.length) (hbl : b ≤ lines.length)
    (h : joined [' '] (lines.take a) = joined [' '] (lines.take b)) : a = b := by
  induction lines generalizing a b with
  | nil => simp at hal; omega
  | cons line rest ih =>
    obtain ⟨m, rfl⟩ := Nat.exists_eq_succ_of_ne_zero (by omega : a ≠ 0)
    obtain ⟨n, rfl⟩ := Nat.exists_eq_succ_of_ne_zero (by omega : b ≠ 0)
    simp only [Nat.succ_eq_add_one, List.length_cons, List.take_succ_cons] at *
    have single : joined [' '] [line] = line := by simp [joined]
    have several (k : Nat) (hk : 0 < k) (hkl : k ≤ rest.length) :
        joined [' '] (line :: rest.take k) = line ++ ' ' :: joined [' '] (rest.take k) := by
      refine joined_cons line _ (fun hnil => ?_)
      have := congrArg List.length hnil
      simp only [List.length_take, List.length_nil] at this
      omega
    rcases Nat.eq_zero_or_pos m with rfl | hm <;> rcases Nat.eq_zero_or_pos n with rfl | hn
    · rfl
    · rw [List.take_zero, single, several n hn (by omega)] at h
      simp at h
    · rw [List.take_zero, single, several m hm (by omega)] at h
      simp at h
    · rw [several m hm (by omega), several n hn (by omega)] at h
      have := ih m n hm hn (by omega) (by omega) (by simpa using h)
      omega

theorem endsWithChar_append (t : Text) (c d : Char) (u : Text) (hd : d ≠ c) :
    endsWithChar (t ++ d :: u) c = endsWithChar u c := by
  cases u with
  | nil => simp [endsWithChar, hd]
  | cons e u => simp [endsWithChar, List.getLast?_append, List.getLast?_cons]

theorem endsWithChar_last (t u : Text) (c : Char) (hu : u ≠ []) :
    endsWithChar (t ++ u) c = endsWithChar u c := by
  rw [endsWithChar, endsWithChar, List.getLast?_append, List.getLast?_eq_some_getLast hu,
    Option.some_or]

theorem joined_ends (lines : List Text) (last : Text) (c : Char) (hc : ' ' ≠ c) :
    endsWithChar (joined [' '] (lines ++ [last])) c = endsWithChar last c := by
  by_cases hne : lines = []
  · simp [hne, joined]
  · rw [joined_append lines hne last, endsWithChar_append _ c ' ' last hc]

/-- A text that neither begins nor ends with a blank, and is not empty. -/
structure Ink (t : Text) : Prop where
  first : ∃ c r, t = c :: r ∧ isBlank c = false
  last : ∃ r c, t = r ++ [c] ∧ isBlank c = false

theorem ink_append (t u v : Text) (ht : Ink t) (hv : Ink v) : Ink (t ++ u ++ v) := by
  obtain ⟨c, r, rfl, hc⟩ := ht.first
  obtain ⟨r', c', rfl, hc'⟩ := hv.last
  exact ⟨⟨c, r ++ u ++ (r' ++ [c']), by simp, hc⟩, ⟨c :: r ++ u ++ r', c', by simp, hc'⟩⟩

theorem drop_front (p : Char → Bool) (g t : Text) (hg : ∀ c ∈ g, p c = true)
    (ht : ∃ c r, t = c :: r ∧ p c = false) : (g ++ t).dropWhile p = t := by
  obtain ⟨c, r, rfl, hc⟩ := ht
  rw [List.dropWhile_append_of_pos hg, List.dropWhile_cons_of_neg (by simp [hc])]

theorem drop_end (p : Char → Bool) (t g : Text) (hg : ∀ c ∈ g, p c = true)
    (ht : ∃ r c, t = r ++ [c] ∧ p c = false) : dropEndWhile p (t ++ g) = t := by
  obtain ⟨r, c, rfl, hc⟩ := ht
  rw [dropEndWhile, List.reverse_append, drop_front p g.reverse _ (by simpa using hg)
    ⟨c, r.reverse, by simp, hc⟩, List.reverse_reverse]

theorem dropEnd_behind (p : Char → Bool) (t u : Text) (c : Char) (hc : p c = false) :
    dropEndWhile p (t ++ c :: u) = t ++ c :: dropEndWhile p u := by
  rw [dropEndWhile, dropEndWhile, List.reverse_append, List.reverse_cons, List.append_assoc,
    List.dropWhile_append]
  split
  · rename_i hempty
    rw [List.isEmpty_iff.mp hempty]
    simp [hc]
  · simp

theorem takeWhile_stopped (p : Char → Bool) (t u : Text) (ht : ∀ c ∈ t, p c = true)
    (hu : u.takeWhile p = []) : (t ++ u).takeWhile p = t := by
  rw [List.takeWhile_append_of_pos ht, hu, List.append_nil]

theorem dropEnd_sublist (p : Char → Bool) (t : Text) : (dropEndWhile p t).Sublist t := by
  have hreverse := (List.dropWhile_sublist p (l := t.reverse)).reverse
  rwa [List.reverse_reverse] at hreverse

theorem isAllBlank_iff (g : Text) : isAllBlank g = true ↔ ∀ c ∈ g, isBlank c = true := by
  simp [isAllBlank]

theorem blank_ne (c d : Char) (hc : isBlank c = true) (hd : isBlank d = false) : c ≠ d := by
  rintro rfl
  rw [hc] at hd
  cases hd

theorem blank_unquoted (g : Text) (h : isAllBlank g = true) : '"' ∉ g :=
  fun hm => blank_ne '"' '"' ((isAllBlank_iff g).mp h _ hm) rfl rfl

theorem trim_ink (g t h : Text) (hg : isAllBlank g = true) (ht : Ink t)
    (hh : isAllBlank h = true) : trim (g ++ t ++ h) = t := by
  obtain ⟨c, r, hfirst, hc⟩ := ht.first
  rw [trim, trimStart, List.append_assoc,
    drop_front isBlank g (t ++ h) ((isAllBlank_iff g).mp hg) ⟨c, r ++ h, by simp [hfirst], hc⟩]
  exact drop_end isBlank t h ((isAllBlank_iff h).mp hh) ht.last

theorem trim_ink_self (t : Text) (ht : Ink t) : trim t = t := by
  simpa using trim_ink [] t [] rfl ht rfl

theorem ink_of_solid (t : Text) (hne : t ≠ []) (hblank : t.any isBlank = false) : Ink t := by
  have h : ∀ c ∈ t, isBlank c = false := by simpa using hblank
  refine ⟨?_, ?_⟩
  · obtain ⟨c, r, rfl⟩ := List.exists_cons_of_ne_nil hne
    exact ⟨c, r, rfl, h c (by simp)⟩
  · exact ⟨t.dropLast, t.getLast hne, (List.dropLast_concat_getLast hne).symm,
      h _ (List.getLast_mem hne)⟩

theorem name_char_ne (c d : Char) (hc : isNameChar c = true) (hd : isNameChar d = false) :
    c ≠ d := by
  rintro rfl
  rw [hc] at hd
  exact absurd hd (by decide)

theorem name_not_blank (c : Char) (h : isNameChar c = true) : isBlank c = false := by
  simp only [isNameChar, isAsciiUpper, isAsciiLower, isDigit, Bool.or_eq_true, Bool.and_eq_true,
    decide_eq_true_eq, beq_iff_eq, Char.le_def, UInt32.le_iff_toNat_le] at h
  have hrange : 48 ≤ c.toNat ∧ c.toNat ≤ 122 := by
    rcases h with ((⟨hl, hu⟩ | ⟨hl, hu⟩) | ⟨hl, hu⟩) | rfl
    · exact ⟨by have : 65 ≤ c.toNat := hl; omega, by have : c.toNat ≤ 90 := hu; omega⟩
    · exact ⟨by have : 97 ≤ c.toNat := hl; omega, by have : c.toNat ≤ 122 := hu; omega⟩
    · exact ⟨by have : 48 ≤ c.toNat := hl; omega, by have : c.toNat ≤ 57 := hu; omega⟩
    · decide
  simp only [isBlank, Bool.or_eq_false_iff, Bool.and_eq_false_iff, decide_eq_false_iff_not,
    beq_eq_false_iff_ne]
  omega

theorem ink_of_name (t : Text) (hne : t ≠ []) (h : ∀ c ∈ t, isNameChar c = true) : Ink t :=
  ink_of_solid t hne (by simpa using fun c hc => name_not_blank c (h c hc))

theorem trimEnd_split (t : Text) : trimEnd t ++ t.rtakeWhile isBlank = t := by
  rw [trimEnd, dropEndWhile, List.rtakeWhile, ← List.reverse_append,
    List.takeWhile_append_dropWhile, List.reverse_reverse]

theorem trimEnd_last (t : Text) (h : trimEnd t ≠ []) :
    ∃ r c, trimEnd t = r ++ [c] ∧ isBlank c = false := by
  have hlast := List.rdropWhile_last_not isBlank t h
  exact ⟨(trimEnd t).dropLast, (trimEnd t).getLast h, (List.dropLast_concat_getLast h).symm,
    Bool.not_eq_true _ ▸ hlast⟩

theorem trim_split (t : Text) :
    ∃ g h, t = g ++ trim t ++ h ∧ isAllBlank g = true ∧ isAllBlank h = true := by
  refine ⟨t.takeWhile isBlank, (trimStart t).rtakeWhile isBlank, ?_, List.all_takeWhile, ?_⟩
  · rw [List.append_assoc, trim, trimEnd_split, trimStart, List.takeWhile_append_dropWhile]
  · rw [isAllBlank, List.rtakeWhile, List.all_reverse]
    exact List.all_takeWhile

theorem trim_sublist (t : Text) : (trim t).Sublist t := by
  obtain ⟨g, r, ht, -, -⟩ := trim_split t
  conv => rhs; rw [ht]
  exact (List.sublist_append_right g _).trans (List.sublist_append_left _ r)

theorem trim_cases (t : Text) : trim t = [] ∨ Ink (trim t) := by
  by_cases hnil : trim t = []
  · exact Or.inl hnil
  · right
    constructor
    · -- what is left begins where the blanks before it end
      obtain ⟨c, r, hc⟩ := List.exists_cons_of_ne_nil hnil
      have hstart : t.dropWhile isBlank = c :: (r ++ (trimStart t).rtakeWhile isBlank) := by
        have := trimEnd_split (trimStart t)
        rw [← trim, hc] at this
        exact this.symm
      have hne : t.dropWhile isBlank ≠ [] := by simp [hstart]
      have hfirst := List.head_dropWhile_not (p := isBlank) hne
      refine ⟨c, r, hc, ?_⟩
      simpa only [hstart, List.head_cons] using hfirst
    · exact trimEnd_last (trimStart t) hnil

theorem trim_trim (t : Text) : trim (trim t) = trim t := by
  rcases trim_cases t with h | h
  · rw [h]
    rfl
  · exact trim_ink_self _ h

theorem trim_nil_iff (t : Text) : trim t = [] ↔ isAllBlank t = true := by
  constructor
  · intro h
    obtain ⟨g, r, ht, hg, hr⟩ := trim_split t
    rw [ht, h, isAllBlank, List.append_nil, List.all_append, Bool.and_eq_true]
    exact ⟨hg, hr⟩
  · intro h
    have hstart : trimStart t = [] := by
      rw [trimStart, List.dropWhile_eq_nil_iff]
      exact (isAllBlank_iff t).mp h
    rw [trim, hstart]
    rfl

theorem trim_blank (c : Char) (t : Text) (h : isBlank c = true) : trim (c :: t) = trim t := by
  rw [trim, trimStart, List.dropWhile_cons_of_pos h]
  rfl

theorem trim_behind (t : Text) (c : Char) (h : isBlank c = true) : trim (t ++ [c]) = trim t := by
  have hgap : isAllBlank [c] = true := by simp [isAllBlank, h]
  rcases trim_cases t with hnil | hink
  · have hblank := (trim_nil_iff t).mp hnil
    rw [hnil, trim_nil_iff, isAllBlank, List.all_append, Bool.and_eq_true]
    exact ⟨hblank, hgap⟩
  · obtain ⟨g, r, ht, hg, hr⟩ := trim_split t
    have hbehind : isAllBlank (r ++ [c]) = true := by
      rw [isAllBlank, List.all_append, Bool.and_eq_true]
      exact ⟨hr, hgap⟩
    conv => lhs; rw [ht, List.append_assoc]
    exact trim_ink g (trim t) (r ++ [c]) hg hink hbehind

theorem afterLead_iff (lead t rest : Text) : afterLead? lead t = some rest ↔ t = lead ++ rest := by
  induction lead generalizing t with
  | nil => simp [afterLead?]
  | cons c lead ih =>
    cases t with
    | nil => simp [afterLead?]
    | cons d t =>
      rw [afterLead?]
      by_cases h : c = d
      · rw [if_pos h, ih t, h, List.cons_append, List.cons_inj_right]
      · simp [h, Ne.symm h]

theorem afterLead_append (lead t : Text) : afterLead? lead (lead ++ t) = some t :=
  (afterLead_iff lead (lead ++ t) t).mpr rfl

theorem beforeTail_iff (tail t rest : Text) :
    beforeTail? tail t = some rest ↔ t = rest ++ tail := by
  rw [beforeTail?, Option.map_eq_some_iff]
  constructor
  · rintro ⟨front, hfront, rfl⟩
    have h := congrArg List.reverse ((afterLead_iff _ _ front).mp hfront)
    simpa using h
  · rintro rfl
    exact ⟨rest.reverse, (afterLead_iff _ _ _).mpr (by simp), List.reverse_reverse rest⟩

end ParameterManual.Text
