import ParameterManual.Proofs.Constructor.Statements

/-!
# The entry of a symbol

What a constructor documents is seen one symbol at a time. A statement changes
the entry of the symbol that it names and leaves all others, so the entry that
a constructor leaves of a symbol is the run of its statements on that entry
alone. A bind settles the entry, and what comes after can only add flags.
-/

set_option autoImplicit false

namespace ParameterManual

def Variable.flagged (v : Variable) (estimable addressable : Bool) : Variable :=
  { v with
    isEstimable := v.isEstimable || estimable, isAddressable := v.isAddressable || addressable }

theorem Variable.flagged_none (v : Variable) : v.flagged false false = v := by
  simp [flagged]

theorem Variable.flagged_twice (v : Variable) (e a f b : Bool) :
    (v.flagged e a).flagged f b = v.flagged (e || f) (a || b) := by
  simp [flagged, Bool.or_assoc]

namespace Constructor

def lookup? (own : List Variable) (symbol : Text) : Option Variable :=
  own.find? (fun v => v.symbol == symbol)

theorem hasSymbol_entry (own : List Variable) (symbol : Text) :
    hasSymbol own symbol = (lookup? own symbol).isSome := by
  rw [hasSymbol, lookup?, Bool.eq_iff_iff, List.any_eq_true, List.find?_isSome]

theorem lookup?_append (own more : List Variable) (symbol : Text) :
    lookup? (own ++ more) symbol = (lookup? own symbol).or (lookup? more symbol) :=
  List.find?_append

theorem lookup?_single (v : Variable) (symbol : Text) :
    lookup? [v] symbol = if v.symbol = symbol then some v else none := by
  by_cases hs : v.symbol = symbol <;> simp [lookup?, hs]

theorem lookup?_update (f : Variable → Variable) (symbol : Text) (own : List Variable)
    (hf : ∀ v, v.symbol = symbol → (f v).symbol = symbol) (s : Text) :
    lookup? (updateSymbol f symbol own) s =
      if symbol = s then (lookup? own s).map f else lookup? own s := by
  induction own with
  | nil => simp [updateSymbol, lookup?]
  | cons v rest ih =>
    rw [updateSymbol]
    split
    · rename_i hv
      rw [← List.singleton_append, lookup?_append, lookup?_single, hf v hv,
        ← List.singleton_append (l := rest), lookup?_append [v], lookup?_single, hv]
      split
      · rfl
      · rfl
    · rename_i hv
      rw [← List.singleton_append, lookup?_append, ih, lookup?_single,
        ← List.singleton_append (l := rest), lookup?_append [v], lookup?_single]
      by_cases hs : v.symbol = s
      · have hne : symbol ≠ s := fun h => hv (hs.trans h.symm)
        rw [if_neg hne, if_neg hne]
      · rw [if_neg hs, Option.none_or, Option.none_or]

theorem lookup?_upsert (own : List Variable) (v : Variable) (s : Text) :
    lookup? (upsert own v) s = if v.symbol = s then some v else lookup? own s := by
  rw [upsert, hasSymbol_entry]
  split
  · rename_i hsome
    rw [lookup?_update (fun _ => v) v.symbol own (fun _ _ => rfl)]
    split
    · rename_i hs
      obtain ⟨w, hw⟩ := Option.isSome_iff_exists.mp hsome
      rw [← hs, hw, Option.map_some]
    · rfl
  · rename_i hnone
    rw [Option.not_isSome_iff_eq_none] at hnone
    rw [lookup?_append, lookup?_single]
    split
    · rename_i hs
      rw [← hs, hnone, Option.none_or]
    · rw [Option.or_none]

theorem mem_entry (own : List Variable) (v : Variable) (hown : DistinctSymbols own) :
    v ∈ own ↔ lookup? own v.symbol = some v := by
  induction own with
  | nil => simp [lookup?]
  | cons w rest ih =>
    obtain ⟨hw, hrest⟩ := List.nodup_cons.mp hown
    rw [← List.singleton_append, lookup?_append, lookup?_single, List.mem_append,
      List.mem_singleton, ih hrest]
    by_cases hs : w.symbol = v.symbol
    · have hnone : v ∉ rest := by
        intro hv
        exact hw (hs ▸ List.mem_map_of_mem hv)
      rw [← ih hrest]
      simp [hs, hnone, eq_comm]
    · have hne : v ≠ w := by
        rintro rfl
        exact hs rfl
      simp [hs, hne]

theorem filter_entry (own : List Variable) (s : Text) (hown : DistinctSymbols own) :
    own.filter (fun v => v.symbol = s) = (lookup? own s).toList := by
  induction own with
  | nil => rfl
  | cons w rest ih =>
    obtain ⟨hw, hrest⟩ := List.nodup_cons.mp hown
    rw [← List.singleton_append, lookup?_append, lookup?_single, List.filter_append, ih hrest]
    by_cases hs : w.symbol = s
    · have hnone : lookup? rest s = none := by
        rw [lookup?, List.find?_eq_none]
        intro v hv hvs
        exact hw (hs ▸ beq_iff_eq.mp hvs ▸ List.mem_map_of_mem hv)
      simp [hs, hnone]
    · simp [hs]

variable (scope : Scope)

def placeholder? (r : Registration) : Option Variable :=
  (scope.translations.get? r.symbol).map (fun name =>
    { Variable.plain .placeholder r.symbol r.member name
        ((TextMap.find? r.member scope.members).getD "Double".toList) with
      isAddressable := true })

def registered (r : Registration) (entry : Option Variable) : Option Variable :=
  let seen := entry.or (TextMap.find? r.symbol scope.inherited)
  if r.hasUsage then (seen.or (placeholder? scope r)).map (Variable.flagged · false true)
  else seen.map (Variable.flagged · true false)

/-- What a statement makes of the entry of a symbol. -/
def entryStep (s : Text) (entry : Option Variable) (p : Placed) : Option Variable :=
  if p.statement.bound? = some s then binding scope p
  else
    match Registration.of? scope.translations p.statement with
    | some r => if r.symbol = s then registered scope r entry else entry
    | none => entry

section steps
variable (hkeyed : Keyed scope.inherited)
include hkeyed

theorem lookup?_inherited (symbol : Text) (own : List Variable) (s : Text) :
    lookup? (withInherited scope symbol own) s =
      if symbol = s then (lookup? own s).or (TextMap.find? s scope.inherited)
      else lookup? own s := by
  rw [withInherited, hasSymbol_entry]
  by_cases hs : symbol = s
  · subst hs
    rw [if_pos rfl]
    split
    · rename_i hsome
      obtain ⟨w, hw⟩ := Option.isSome_iff_exists.mp hsome
      rw [hw, Option.some_or]
    · rw [lookup?_append]
      cases hf : TextMap.find? symbol scope.inherited with
      | none => rfl
      | some v =>
        have hv : v.symbol = symbol := hkeyed (symbol, v) (TextMap.mem_of_find? _ symbol v hf)
        rw [Option.toList_some, lookup?_single, if_pos hv]
  · rw [if_neg hs]
    split
    · rfl
    · rw [lookup?_append]
      cases hf : TextMap.find? symbol scope.inherited with
      | none => exact Option.or_none
      | some v =>
        have hv : v.symbol = symbol := hkeyed (symbol, v) (TextMap.mem_of_find? _ symbol v hf)
        rw [Option.toList_some, lookup?_single, if_neg (hv ▸ hs), Option.or_none]

theorem lookup?_estimable (r : Registration) (own : List Variable) (s : Text)
    (hu : r.hasUsage = false) :
    lookup? (registerEstimable scope r.symbol own) s =
      if r.symbol = s then registered scope r (lookup? own s) else lookup? own s := by
  rw [registerEstimable,
    lookup?_update (fun v => { v with isEstimable := true }) _ _ (fun _ hv => hv),
    lookup?_inherited scope hkeyed]
  split
  · rename_i hs
    simp [registered, hu, hs, Variable.flagged]
  · rfl

theorem lookup?_addressable (l : Location) (r : Registration) (own result : List Variable)
    (s : Text) (hu : r.hasUsage = true)
    (h : registerAddressable scope l r.symbol r.member own = .ok result) :
    lookup? result s =
      if r.symbol = s then registered scope r (lookup? own s) else lookup? own s := by
  have hseen := lookup?_inherited scope hkeyed r.symbol own
  rw [registerAddressable, hasSymbol_entry] at h
  split at h
  · rename_i hsome
    obtain rfl := Except.ok.inj h
    rw [lookup?_update (fun v => { v with isAddressable := true }) _ _ (fun _ hv => hv), hseen s]
    split
    · rename_i hs
      obtain ⟨w, hw⟩ := Option.isSome_iff_exists.mp hsome
      rw [hseen, if_pos rfl, hs] at hw
      simp [registered, hu, hs, hw, Variable.flagged]
    · rfl
  · rename_i hnone
    rw [Option.not_isSome_iff_eq_none, hseen, if_pos rfl] at hnone
    obtain ⟨name, hname, h⟩ := bind_ok h
    obtain rfl := Except.ok.inj h
    have hget := translate_get scope l r.symbol name hname
    rw [lookup?_append, hseen, lookup?_single]
    by_cases hs : r.symbol = s
    · subst hs
      simp [registered, hu, hnone, placeholder?, hget, Variable.flagged, Variable.plain]
    · simp [Variable.plain, hs]

theorem placed_entry (p : Placed) (own result : List Variable) (s : Text)
    (h : applyPlaced scope own p = .ok result) :
    lookup? result s = entryStep scope s (lookup? own s) p := by
  rw [entryStep]
  obtain ⟨hnone, v, hv, rfl⟩ | ⟨hbound, hcases⟩ := placed_cases scope p own result h
  · rw [lookup?_upsert, hnone, hv, (binding_named scope p v hv).1]
    simp only [Option.some.injEq]
  · rw [hbound, if_neg (by simp)]
    obtain ⟨hnone, rfl⟩ | ⟨r, hr, ⟨hu, rfl⟩ | ⟨hu, h⟩⟩ := hcases
    · rw [hnone]
    · rw [hr]
      exact lookup?_estimable scope hkeyed r own s hu
    · rw [hr]
      exact lookup?_addressable scope hkeyed p.location r own result s hu h

theorem statements_entry (list : List Placed) (before own : List Variable) (s : Text)
    (h : list.foldlM (applyPlaced scope) before = .ok own) :
    lookup? own s = list.foldl (entryStep scope s) (lookup? before s) := by
  induction list generalizing before with
  | nil =>
    obtain rfl : before = own := Except.ok.inj h
    rfl
  | cons p rest ih =>
    rw [List.foldlM_cons] at h
    obtain ⟨next, hstep, hrest⟩ := bind_ok h
    rw [List.foldl_cons, ← placed_entry scope hkeyed p before next s hstep]
    exact ih next hrest

theorem extract_entry (file content : Text) (own : List Variable) (s : Text)
    (h : extract scope file content = .ok own) :
    lookup? own s = (statements scope.className file content).foldl (entryStep scope s) none :=
  statements_entry scope hkeyed _ [] own s (extract_statements scope file content own h)

end steps

theorem bound_binding (file content : Text) (own : List Variable) (s : Text)
    (h : extract scope file content = .ok own) (p : Placed)
    (hp : p ∈ statements scope.className file content) (hs : p.statement.bound? = some s) :
    ∃ v, binding scope p = some v ∧ Named scope s v := by
  obtain ⟨earlier, later, hstep⟩ := foldlM_each (applyPlaced scope) _ [] own
    (extract_statements scope file content own h) p hp
  obtain ⟨-, v, hv, -⟩ | ⟨hbound, -⟩ := placed_cases scope p earlier later hstep
  · obtain ⟨hbound, hnamed⟩ := binding_named scope p v hv
    obtain rfl := Option.some.inj (hbound.symm.trans hs)
    exact ⟨v, hv, hnamed⟩
  · rw [hbound] at hs
    cases hs

def Placed.estimates (table : TranslationTable) (s : Text) (p : Placed) : Bool :=
  (Registration.of? table p.statement).any (fun r => r.symbol == s && !r.hasUsage)

def Placed.addresses (table : TranslationTable) (s : Text) (p : Placed) : Bool :=
  (Registration.of? table p.statement).any (fun r => r.symbol == s && r.hasUsage)

section runs
variable (s : Text)

/-- Once a symbol has an entry, a statement that does not bind the symbol
adds flags to the entry, and does nothing else. -/
theorem step_kept (v : Variable) (p : Placed) (hp : p.statement.bound? ≠ some s) :
    entryStep scope s (some v) p =
      some (v.flagged (p.estimates scope.translations s) (p.addresses scope.translations s)) := by
  rw [entryStep, if_neg hp, Placed.estimates, Placed.addresses]
  cases hr : Registration.of? scope.translations p.statement with
  | none => exact congrArg some v.flagged_none.symm
  | some r =>
    by_cases hs : r.symbol = s
    · cases hu : r.hasUsage <;> simp [registered, hs, hu]
    · have hne : (r.symbol == s) = false := beq_eq_false_iff_ne.mpr hs
      simp [hs, hne, v.flagged_none]

theorem run_kept (list : List Placed) (v : Variable)
    (h : ∀ p ∈ list, p.statement.bound? ≠ some s) :
    list.foldl (entryStep scope s) (some v) =
      some (v.flagged (list.any (Placed.estimates scope.translations s))
        (list.any (Placed.addresses scope.translations s))) := by
  induction list generalizing v with
  | nil => exact congrArg some v.flagged_none.symm
  | cons p rest ih =>
    rw [List.foldl_cons, step_kept scope s v p (h p (by simp)),
      ih _ (fun q hq => h q (by simp [hq])), Variable.flagged_twice, List.any_cons, List.any_cons]

/-- The last bind of a symbol decides its entry but for the flags, and these
are the ones that are registered after it. -/
theorem run_bound (before after : List Placed) (p : Placed) (v : Variable)
    (hp : p.statement.bound? = some s) (hv : binding scope p = some v)
    (hlast : ∀ q ∈ after, q.statement.bound? ≠ some s) :
    (before ++ p :: after).foldl (entryStep scope s) none =
      some (v.flagged (after.any (Placed.estimates scope.translations s))
        (after.any (Placed.addresses scope.translations s))) := by
  have hstep (entry : Option Variable) : entryStep scope s entry p = some v := by
    rw [entryStep, if_pos hp, hv]
  rw [List.foldl_append, List.foldl_cons, hstep, run_kept scope s after v hlast]

theorem bound_entry (hkeyed : Keyed scope.inherited) (file content : Text) (own : List Variable)
    (h : extract scope file content = .ok own)
    (hs : ∃ p ∈ statements scope.className file content, p.statement.bound? = some s) :
    ∃ before last after v,
      statements scope.className file content = before ++ last :: after ∧
        last.statement.bound? = some s ∧ (∀ q ∈ after, q.statement.bound? ≠ some s) ∧
        binding scope last = some v ∧ Named scope s v ∧
        lookup? own s = some (v.flagged (after.any (Placed.estimates scope.translations s))
          (after.any (Placed.addresses scope.translations s))) := by
  obtain ⟨before, last, after, hsplit, hp, hlast⟩ := last_where _ _ hs
  have hmem : last ∈ statements scope.className file content := by
    rw [hsplit]
    simp
  obtain ⟨v, hv, hnamed⟩ := bound_binding scope file content own s h last hmem hp
  refine ⟨before, last, after, v, hsplit, hp, hlast, hv, hnamed, ?_⟩
  rw [extract_entry scope hkeyed file content own s h, hsplit]
  exact run_bound scope s before after last v hp hv hlast

theorem step_new (p : Placed) (hp : p.statement.bound? ≠ some s) :
    entryStep scope s none p = none ∧ p.addresses scope.translations s = false ∨
      ∃ r, Registration.of? scope.translations p.statement = some r ∧ r.symbol = s ∧
        entryStep scope s none p = registered scope r none := by
  rw [entryStep, if_neg hp, Placed.addresses]
  cases hr : Registration.of? scope.translations p.statement with
  | none => exact Or.inl ⟨rfl, rfl⟩
  | some r =>
    by_cases hs : r.symbol = s
    · exact Or.inr ⟨r, rfl, hs, by simp [hs]⟩
    · exact Or.inl (by simp [hs])

end runs

end Constructor

end ParameterManual
