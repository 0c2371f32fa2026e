import Mathlib.Algebra.Group.Nat.Even
import ParameterManual.Proofs.Markup.Joining

/-!
# Dollar signs and the math they enclose

The dollar signs with no backslash in front are taken two by two, and what
lies between the two of a pair is inline math. The scan that escapes a text
knows of these places only whether one comes later.
-/

set_option autoImplicit false

namespace ParameterManual.Markup

def Backslashed (t : Text) (i : Nat) : Prop := 0 < i ∧ t[i - 1]? = some '\\'

instance (t : Text) : DecidablePred (Backslashed t) := fun _ => inferInstanceAs (Decidable (_ ∧ _))

def Delimits (t : Text) (i : Nat) : Prop := t[i]? = some '$' ∧ ¬ Backslashed t i

instance (t : Text) : DecidablePred (Delimits t) := fun _ => inferInstanceAs (Decidable (_ ∧ _))

def delimiters (t : Text) : List Nat := (List.range t.length).filter (Delimits t)

/-- Places taken two by two, without the last of an odd number. -/
def spans : List Nat → List (Nat × Nat)
  | first :: last :: rest => (first, last) :: spans rest
  | _ => []

def Within (places : List Nat) (i : Nat) : Prop := ∃ s ∈ spans places, s.1 ≤ i ∧ i ≤ s.2

instance (places : List Nat) : DecidablePred (Within places) := fun i =>
  inferInstanceAs (Decidable (∃ s ∈ spans places, s.1 ≤ i ∧ i ≤ s.2))

def InMath (t : Text) (i : Nat) : Prop := Within (delimiters t) i

instance (t : Text) : DecidablePred (InMath t) := inferInstanceAs (DecidablePred (Within _))

section spans
variable (a b i : Nat) (places : List Nat)

theorem within_pair : Within (a :: b :: places) i ↔ (a ≤ i ∧ i ≤ b) ∨ Within places i := by
  simp [Within, spans]

theorem not_within_nil : ¬ Within [] i := by
  simp [Within, spans]

theorem not_within_single : ¬ Within [a] i := by
  simp [Within, spans]

theorem within_from (n : Nat) (h : ∀ d ∈ places, n ≤ d) (hi : Within places i) : n ≤ i := by
  fun_induction spans places with
  | case1 first last rest ih =>
    rw [within_pair] at hi
    rcases hi with ⟨hfirst, -⟩ | hi
    · exact Nat.le_trans (h first (by simp)) hfirst
    · exact ih (fun d hd => h d (by simp [hd])) hi
  | case2 places hshort =>
    obtain ⟨s, hs, -⟩ := hi
    rw [spans.eq_2 places hshort] at hs
    cases hs

theorem even_within (h : Even places.length) (hsorted : places.Pairwise (· < ·))
    (hi : i ∈ places) : Within places i := by
  fun_induction spans places with
  | case1 first last rest ih =>
    obtain ⟨hfirst, hrest⟩ := List.pairwise_cons.mp hsorted
    have hlt := hfirst last (by simp)
    rw [within_pair]
    rcases List.mem_cons.mp hi with rfl | hi
    · exact Or.inl ⟨Nat.le_refl i, Nat.le_of_lt hlt⟩
    · rcases List.mem_cons.mp hi with rfl | hi
      · exact Or.inl ⟨Nat.le_of_lt hlt, Nat.le_refl i⟩
      · refine Or.inr (ih ?_ (List.pairwise_cons.mp hrest).2 hi)
        simpa [Nat.even_add_one] using h
  | case2 places hshort =>
    cases places with
    | nil => cases hi
    | cons first rest =>
      cases rest with
      | nil => cases Nat.not_even_one h
      | cons last rest => exact absurd rfl (hshort first last rest)

theorem odd_outside (h : ¬ Even places.length) (hsorted : places.Pairwise (· < ·)) :
    ∃ i ∈ places, ¬ Within places i := by
  fun_induction spans places with
  | case1 first last rest ih =>
    obtain ⟨-, hrest⟩ := List.pairwise_cons.mp hsorted
    obtain ⟨hlast, hrest⟩ := List.pairwise_cons.mp hrest
    have hodd : ¬ Even rest.length := by simpa [Nat.even_add_one] using h
    obtain ⟨i, hi, hout⟩ := ih hodd hrest
    refine ⟨i, by simp [hi], ?_⟩
    rw [within_pair]
    rintro (⟨-, hle⟩ | hin)
    · exact absurd (hlast i hi) (Nat.not_lt.mpr hle)
    · exact hout hin
  | case2 places hshort =>
    cases places with
    | nil => exact absurd Even.zero h
    | cons first rest =>
      cases rest with
      | nil => exact ⟨first, by simp, not_within_single first first⟩
      | cons last rest => exact absurd rfl (hshort first last rest)

end spans

def delimitersFrom : Bool → Nat → Text → List Nat
  | _, _, [] => []
  | escaped, n, c :: t =>
    if c = '$' ∧ escaped = false then n :: delimitersFrom (c == '\\') (n + 1) t
    else delimitersFrom (c == '\\') (n + 1) t

theorem after_last (escaped : Bool) (t : Text) :
    after escaped t = (t.getLast?.map (· == '\\')).getD escaped := by
  induction t generalizing escaped with
  | nil => rfl
  | cons c t ih =>
    rw [after_cons, ih, List.getLast?_cons]
    cases t.getLast? <;> rfl

theorem after_take (t : Text) (i : Nat) (h : i ≤ t.length) :
    after false (t.take i) = true ↔ Backslashed t i := by
  rw [after_last, List.getLast?_take, Backslashed]
  cases i with
  | zero => simp
  | succ i =>
    have hi : t[i]? = some t[i] := List.getElem?_eq_getElem h
    simp [hi]

/-- A delimiter as the scan sees it. -/
def marksMath (escaped : Bool) (t : Text) (i : Nat) : Bool :=
  decide (t[i]? = some '$') && !after escaped (t.take i)

theorem delimitersFrom_filter (t : Text) (escaped : Bool) (n : Nat) :
    delimitersFrom escaped n t =
      ((List.range t.length).filter (marksMath escaped t)).map (n + ·) := by
  induction t generalizing escaped n with
  | nil => rfl
  | cons c t ih =>
    have htail : (((List.range t.length).map Nat.succ).filter (marksMath escaped (c :: t))).map
        (n + ·) = delimitersFrom (c == '\\') (n + 1) t := by
      rw [ih, List.filter_map, List.map_map]
      congr 1
      funext i
      exact (Nat.add_right_comm n 1 i).symm
    rw [delimitersFrom, List.length_cons, List.range_succ_eq_map, List.filter_cons]
    by_cases hc : c = '$' ∧ escaped = false
    · have hmark : marksMath escaped (c :: t) 0 = true := by simp [marksMath, after, hc]
      rw [if_pos hc, if_pos hmark, List.map_cons, htail]
      rfl
    · have hmark : ¬ marksMath escaped (c :: t) 0 = true := by simpa [marksMath, after] using hc
      rw [if_neg hc, if_neg hmark, htail]

theorem delimiters_scanned (t : Text) : delimiters t = delimitersFrom false 0 t := by
  rw [delimitersFrom_filter, delimiters]
  simp only [Nat.zero_add, List.map_id']
  apply List.filter_congr
  intro i hi
  have hle : i ≤ t.length := Nat.le_of_lt (List.mem_range.mp hi)
  have hback := after_take t i hle
  simp [marksMath, Delimits, ← hback]

theorem delimitersFrom_ge (t : Text) (escaped : Bool) (n : Nat) :
    ∀ d ∈ delimitersFrom escaped n t, n ≤ d := by
  rw [delimitersFrom_filter]
  intro d hd
  obtain ⟨i, -, rfl⟩ := List.mem_map.mp hd
  exact Nat.le_add_right n i

theorem delimitersFrom_nil (t : Text) (escaped : Bool) (n : Nat) :
    delimitersFrom escaped n t = [] ↔ hasDelimiter escaped t = false := by
  induction t generalizing escaped n with
  | nil => simp [delimitersFrom, hasDelimiter]
  | cons c t ih =>
    rw [delimitersFrom]
    by_cases hc : c = '$' ∧ escaped = false
    · simp [hc, hasDelimiter]
    · rw [if_neg hc, ih, delimiter_rest c t escaped hc]

theorem opened_within (first i n : Nat) (t : Text) (escaped : Bool)
    (h : hasDelimiter escaped t = true) (hfirst : first ≤ i) (hi : i ≤ n) :
    Within (first :: delimitersFrom escaped n t) i := by
  have hfrom := delimitersFrom_ge t escaped n
  cases hplaces : delimitersFrom escaped n t with
  | nil =>
    rw [delimitersFrom_nil, h] at hplaces
    cases hplaces
  | cons last rest =>
    rw [within_pair]
    exact Or.inl ⟨hfirst, Nat.le_trans hi (hfrom last (by simp [hplaces]))⟩

theorem delimiters_sorted (t : Text) : (delimiters t).Pairwise (· < ·) :=
  List.Pairwise.sublist List.filter_sublist List.pairwise_lt_range

theorem mem_delimiters (t : Text) (i : Nat) : i ∈ delimiters t ↔ Delimits t i := by
  rw [delimiters, List.mem_filter, List.mem_range]
  refine ⟨fun h => by simpa using h.2, fun h => ⟨?_, by simpa using h⟩⟩
  exact (List.getElem?_eq_some_iff.mp h.1).1

end ParameterManual.Markup
