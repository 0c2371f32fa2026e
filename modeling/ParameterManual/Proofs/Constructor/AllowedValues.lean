import ParameterManual.Proofs.Constructor.Modifiers
import ParameterManual.Proofs.Source.Braced
import ParameterManual.Proofs.Statement.Printed

/-!
# Allowed values

The allowed values of a parameter are listed between braces. All braces at
the two ends are taken off before the list is split, those of the entries
too. So the entries are read back exactly if the first does not begin and the
last does not end with a brace.
-/

set_option autoImplicit false

namespace ParameterManual.Constructor
open Source Text

/-- No brace of an entry stands next to one of the list. -/
def PlainEnds (entries : List Text) : Prop :=
  (∀ e ∈ entries.head?, e.head? ≠ some '\x7b') ∧ ∀ e ∈ entries.getLast?, e.getLast? ≠ some '\x7d'

instance : DecidablePred PlainEnds := fun _ => inferInstanceAs (Decidable (_ ∧ _))

def stripped (t : Text) : Text :=
  dropEndWhile (· == '\x7d') (('\x7b' :: (t ++ ['\x7d'])).dropWhile (· == '\x7b'))

theorem stripped_plain (t : Text) (hne : t ≠ []) (hfirst : t.head? ≠ some '\x7b')
    (hlast : t.getLast? ≠ some '\x7d') : stripped t = t := by
  obtain ⟨c, r, rfl⟩ := List.exists_cons_of_ne_nil hne
  have hc : (c == '\x7b') = false := by simpa using hfirst
  have hfront : ('\x7b' :: (c :: r ++ ['\x7d'])).dropWhile (· == '\x7b') = c :: r ++ ['\x7d'] :=
    drop_front _ ['\x7b'] _ (by simp) ⟨c, r ++ ['\x7d'], rfl, hc⟩
  have hend : ((c :: r).getLast hne == '\x7d') = false := by
    rw [List.getLast?_eq_some_getLast hne] at hlast
    simpa using hlast
  rw [stripped, hfront]
  exact drop_end _ (c :: r) ['\x7d'] (by simp)
    ⟨(c :: r).dropLast, _, (List.dropLast_concat_getLast hne).symm, hend⟩

theorem stripped_first (t : Text) (h : t.head? = some '\x7b') :
    (stripped t).count '\x7b' < t.count '\x7b' := by
  obtain ⟨r, rfl⟩ := List.head?_eq_some_iff.mp h
  have hfront : ('\x7b' :: ('\x7b' :: r ++ ['\x7d'])).dropWhile (· == '\x7b') =
      (r ++ ['\x7d']).dropWhile (· == '\x7b') := by
    simp
  have hsublist : (stripped ('\x7b' :: r)).Sublist (r ++ ['\x7d']) := by
    rw [stripped, hfront]
    exact (dropEnd_sublist _ _).trans (List.dropWhile_sublist _)
  have hle := hsublist.count_le '\x7b'
  rw [List.count_append] at hle
  rw [List.count_cons_self]
  exact Nat.lt_succ_of_le hle

theorem stripped_last (t : Text) (h : t.getLast? = some '\x7d') :
    (stripped t).count '\x7d' < t.count '\x7d' := by
  obtain ⟨r, rfl⟩ := List.getLast?_eq_some_iff.mp h
  have hfront : ('\x7b' :: (r ++ ['\x7d'] ++ ['\x7d'])).dropWhile (· == '\x7b') =
      r.dropWhile (· == '\x7b') ++ ['\x7d'] ++ ['\x7d'] := by
    rw [List.append_assoc, List.dropWhile_cons_of_pos rfl, List.dropWhile_append]
    split
    · rename_i hnil
      rw [List.isEmpty_iff.mp hnil]
      rfl
    · rw [List.append_assoc]
  have hend : dropEndWhile (· == '\x7d') (r.dropWhile (· == '\x7b') ++ ['\x7d'] ++ ['\x7d']) =
      dropEndWhile (· == '\x7d') (r.dropWhile (· == '\x7b')) := by
    simp [dropEndWhile]
  have hsublist : (stripped (r ++ ['\x7d'])).Sublist r := by
    rw [stripped, hfront, hend]
    exact (dropEnd_sublist _ _).trans (List.dropWhile_sublist _)
  have hle := hsublist.count_le '\x7d'
  rw [List.count_append, List.count_singleton_self]
  exact Nat.lt_succ_of_le hle

theorem listed_first (w : Text) (ws : List Text) (hw : w ≠ []) :
    (listed (w :: ws)).head? = w.head? := by
  obtain ⟨c, r, rfl⟩ := List.exists_cons_of_ne_nil hw
  cases ws with
  | nil => simp [listed, joined]
  | cons v vs =>
    rw [listed, joined_several _ _ _ (by simp)]
    rfl

theorem listed_last (init : List Text) (w : Text) (hw : w ≠ []) :
    (listed (init ++ [w])).getLast? = w.getLast? := by
  induction init with
  | nil => simp [listed, joined]
  | cons v rest ih =>
    rw [listed] at ih
    rw [List.cons_append, listed, joined_several _ v _ (by simp), List.getLast?_append, ih,
      List.getLast?_eq_some_getLast hw, Option.some_or]

theorem plainEnds_listed (entries : List Text) (hne : entries ≠ []) (h : ∀ e ∈ entries, e ≠ []) :
    PlainEnds entries ↔
      (listed entries).head? ≠ some '\x7b' ∧ (listed entries).getLast? ≠ some '\x7d' := by
  have hfirst : (∀ e ∈ entries.head?, e.head? ≠ some '\x7b') ↔
      (listed entries).head? ≠ some '\x7b' := by
    obtain ⟨w, ws, rfl⟩ := List.exists_cons_of_ne_nil hne
    simp [listed_first w ws (h w (by simp))]
  have hlast : (∀ e ∈ entries.getLast?, e.getLast? ≠ some '\x7d') ↔
      (listed entries).getLast? ≠ some '\x7d' := by
    obtain ⟨init, w, rfl⟩ := (List.eq_nil_or_concat' entries).resolve_left hne
    simp [listed_last init w (h w (by simp))]
  rw [PlainEnds, hfirst, hlast]

/-- The entries are read back exactly if no brace of theirs is taken off. -/
theorem listedValues_braced (entries : List Text) (hne : entries ≠ [])
    (h : ∀ e ∈ entries, Argument e ∧ e ≠ []) :
    listedValues [braced entries] = entries ↔ PlainEnds entries := by
  have hsplit : listedValues [braced entries] = splitArguments (stripped (listed entries)) := by
    rw [listedValues, if_pos (by rfl)]
    rfl
  rw [hsplit, plainEnds_listed entries hne (fun e he => (h e he).2)]
  constructor
  · intro heq
    constructor
    · intro hfirst
      exact split_fewer '\x7b' (by decide) entries _ (stripped_first _ hfirst) heq
    · intro hlast
      exact split_fewer '\x7d' (by decide) entries _ (stripped_last _ hlast) heq
  · rintro ⟨hfirst, hlast⟩
    have hsole : entries ≠ [[]] := by
      rintro rfl
      exact (h [] (by simp)).2 rfl
    have hlisted : listed entries ≠ [] := by
      obtain ⟨w, ws, rfl⟩ := List.exists_cons_of_ne_nil hne
      have hw := (h w (by simp)).2
      intro hnil
      have hhead := listed_first w ws hw
      rw [hnil] at hhead
      exact hw (List.head?_eq_none_iff.mp hhead.symm)
    rw [stripped_plain _ hlisted hfirst hlast]
    exact split_listed entries (arguments_restorable entries (fun e he => (h e he).1) hsole)

def valuesModifier (entries : List Text) : Modifier := ⟨valuesName, [braced entries]⟩

theorem valuesModifier_text (entries : List Text) :
    (valuesModifier entries).text =
      "->set_allowed_values(\x7b".toList ++ listed entries ++ "\x7d)".toList := by
  have hlead : "->set_allowed_values(\x7b".toList =
      "->".toList ++ (valuesName ++ ['(', '\x7b']) := by decide
  have hlist : listed [braced entries] = braced entries := by simp [listed, joined]
  have hend : "\x7d)".toList = ['\x7d', ')'] := rfl
  rw [Modifier.text, valuesModifier, hlist, hlead, hend, braced]
  simp only [List.append_assoc, List.cons_append, List.nil_append]

theorem valuesModifier_read (entries : List Text) (h : ∀ e ∈ entries, Argument e) :
    Statement.modifiers (valuesModifier entries).text = .ok [valuesModifier entries] := by
  have hbraced := braced_argument entries h
  have hchained : Statement.Chained (valuesModifier entries) := by
    constructor
    · exact (by decide : trim valuesName = valuesName)
    · exact outside_checked (· ≠ '(') valuesName (by decide)
    · exact arguments_restorable _ (by simpa [valuesModifier] using hbraced)
        (by simp [valuesModifier, braced])
  have hread := Statement.modifiers_read [valuesModifier entries] (by simpa using hchained) _
    (Nat.le_succ_of_le (Statement.chain_length _))
  rw [List.flatMap_singleton] at hread
  exact hread

variable (scope : Scope) (l : Location)

/-- A list of allowed values between braces is one argument. Its values are
those of its entries where these are read back, that is, where no brace of
theirs stands next to the outer ones. -/
theorem allowed_values_listed (entries values : List Text) (hne : entries ≠ [])
    (h : ∀ e ∈ entries, Argument e ∧ e ≠ [])
    (hvalues : List.Forall₂ (fun e value => scope.resolve l e = .ok value) entries values) :
    Statement.modifiers ("->set_allowed_values(\x7b".toList ++ listed entries ++
        "\x7d)".toList) = .ok [valuesModifier entries] ∧
      (listedValues (valuesModifier entries).arguments = entries ↔ PlainEnds entries) ∧
      (PlainEnds entries → values.length = entries.length ∧ ∀ v,
        applyModifier scope l v (valuesModifier entries) =
          .ok { v with allowedValues := some values }) := by
  have hread := listedValues_braced entries hne h
  refine ⟨?_, hread, ?_⟩
  · rw [← valuesModifier_text]
    exact valuesModifier_read entries (fun e he => (h e he).1)
  · intro hplain
    refine ⟨hvalues.length_eq.symm, fun v => ?_⟩
    have hresolved : List.Forall₂ (fun e value => scope.resolve l e = .ok value)
        (listedValues [braced entries]) values := by
      rw [hread.mpr hplain]
      exact hvalues
    exact (modifier_ok scope l v _ _).mpr ⟨_, .values [braced entries] values hresolved, rfl⟩

def nestedEntries : List Text :=
  ["PARAM_B".toList, "\x7b1, 2\x7d".toList, "\"x\x7d\"".toList]

def nestedValues : List Text := ["b".toList, "\x7b1, 2\x7d".toList, "x\x7d".toList]

theorem allowed_values_listed_nested :
    (∀ e ∈ nestedEntries, Argument e ∧ e ≠ []) ∧
      List.Forall₂ (fun e value => chainScope.resolve chainPlace e = .ok value)
        nestedEntries nestedValues ∧
      PlainEnds nestedEntries ∧ listedValues (valuesModifier nestedEntries).arguments = nestedEntries ∧
      ∀ v, applyModifier chainScope chainPlace v (valuesModifier nestedEntries) =
        .ok { v with allowedValues := some nestedValues } := by
  have hentries : ∀ e ∈ nestedEntries, Argument e ∧ e ≠ [] := by decide
  have hvalues : List.Forall₂ (fun e value => chainScope.resolve chainPlace e = .ok value)
      nestedEntries nestedValues := .cons rfl (.cons rfl (.cons rfl .nil))
  have hplain : PlainEnds nestedEntries := by decide
  obtain ⟨-, hread, hrecorded⟩ := allowed_values_listed chainScope chainPlace nestedEntries
    nestedValues (by decide) hentries hvalues
  exact ⟨hentries, hvalues, hplain, hread.mpr hplain, (hrecorded hplain).2⟩

def tornEntries : List Text := ["\x7ba\x7d".toList, "b".toList]

theorem first_entry_torn :
    (∀ e ∈ tornEntries, Argument e ∧ e ≠ []) ∧
      (∀ e ∈ tornEntries, chainScope.resolve chainPlace e = .ok e) ∧
      ∀ v, applyModifier chainScope chainPlace v (valuesModifier tornEntries) =
        .ok { v with allowedValues := some ["a\x7d".toList, "b".toList] } := by
  refine ⟨by decide, ?_, fun v => rfl⟩
  intro e he
  simp only [tornEntries, List.mem_cons, List.not_mem_nil, or_false] at he
  rcases he with rfl | rfl <;> rfl

end ParameterManual.Constructor
