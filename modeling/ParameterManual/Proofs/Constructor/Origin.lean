import Mathlib.Data.List.Induction
import ParameterManual.Proofs.Constructor.Entry

/-!
# Where the variables of a constructor come from

A constructor documents the symbols that its statements introduce, in the
order in which they do. A symbol that is bound has its last bind behind it, any
other that the parent has is the parent's, and the rest are made up for their
first registration with a usage. Nothing else has a part in the result.
-/

set_option autoImplicit false

namespace ParameterManual.Constructor

variable (scope : Scope)

/-- The symbol that a statement has the constructor document: one that it
binds, or one that it registers with a usage or that the parent has. -/
def introduced? (p : Placed) : Option Text :=
  match p.statement.bound? with
  | some s => some s
  | none => (Registration.of? scope.translations p.statement).bind (fun r =>
      if r.hasUsage || (TextMap.find? r.symbol scope.inherited).isSome then some r.symbol
      else none)

def withSymbol (symbols : List Text) (s : Text) : List Text :=
  if s ∈ symbols then symbols else symbols ++ [s]

theorem mem_withSymbol (symbols : List Text) (s : Text) : s ∈ withSymbol symbols s := by
  by_cases hs : s ∈ symbols <;> simp [withSymbol, hs]

theorem eraseDups_more (symbols : List Text) (s : Text) :
    (symbols ++ [s]).eraseDups = withSymbol symbols.eraseDups s := by
  rw [List.eraseDups_append, withSymbol]
  by_cases hs : s ∈ symbols
  · simp [List.removeAll, List.mem_eraseDups, hs]
  · simp [List.removeAll, List.mem_eraseDups, List.eraseDups_cons, hs]

theorem withSymbol_own (own : List Variable) (s : Text) :
    withSymbol (own.map Variable.symbol) s =
      if hasSymbol own s = true then own.map Variable.symbol
      else own.map Variable.symbol ++ [s] := by
  by_cases hs : hasSymbol own s = true
  · rw [if_pos hs]
    exact if_pos ((hasSymbol_iff own s).mp hs)
  · rw [if_neg hs]
    exact if_neg (fun hmem => hs ((hasSymbol_iff own s).mpr hmem))

theorem upsert_symbols (own : List Variable) (v : Variable) :
    (upsert own v).map Variable.symbol = withSymbol (own.map Variable.symbol) v.symbol := by
  rw [upsert, withSymbol_own]
  split
  · exact update_symbols (fun _ => v) v.symbol own (fun _ _ => rfl)
  · rw [List.map_append, List.map_singleton]

section symbols
variable (hkeyed : Keyed scope.inherited)
include hkeyed

theorem inherited_symbols (symbol : Text) (own : List Variable) :
    (withInherited scope symbol own).map Variable.symbol =
      if (TextMap.find? symbol scope.inherited).isSome then
        withSymbol (own.map Variable.symbol) symbol
      else own.map Variable.symbol := by
  rw [withInherited, withSymbol_own]
  cases hf : TextMap.find? symbol scope.inherited with
  | none => simp
  | some v =>
    have hv : v.symbol = symbol := hkeyed (symbol, v) (TextMap.mem_of_find? _ symbol v hf)
    split
    · simp
    · simp [hv]

theorem addressable_symbols (l : Location) (symbol member : Text) (own result : List Variable)
    (h : registerAddressable scope l symbol member own = .ok result) :
    result.map Variable.symbol = withSymbol (own.map Variable.symbol) symbol := by
  have hseen := inherited_symbols scope hkeyed symbol own
  rw [registerAddressable] at h
  by_cases hold : hasSymbol (withInherited scope symbol own) symbol = true
  · rw [if_pos hold] at h
    obtain rfl := Except.ok.inj h
    rw [update_symbols (fun v => { v with isAddressable := true }) symbol _ (fun _ hv => hv), hseen]
    rw [hasSymbol_iff, hseen] at hold
    split
    · rfl
    · rename_i hnone
      rw [if_neg hnone] at hold
      exact (if_pos hold).symm
  · rw [if_neg hold] at h
    obtain ⟨name, -, h⟩ := bind_ok h
    obtain rfl := Except.ok.inj h
    rw [hasSymbol_iff, hseen] at hold
    rw [List.map_append, List.map_singleton, hseen]
    split
    · rename_i hsome
      rw [if_pos hsome] at hold
      exact absurd (mem_withSymbol _ symbol) hold
    · rename_i hnone
      rw [if_neg hnone] at hold
      exact (if_neg hold).symm

theorem placed_symbols (p : Placed) (own result : List Variable)
    (h : applyPlaced scope own p = .ok result) :
    result.map Variable.symbol =
      (introduced? scope p).elim (own.map Variable.symbol)
        (withSymbol (own.map Variable.symbol)) := by
  rw [introduced?]
  obtain ⟨-, v, hv, rfl⟩ | ⟨hbound, ⟨hnone, rfl⟩ | ⟨r, hr, ⟨hu, rfl⟩ | ⟨hu, h⟩⟩⟩ :=
    placed_cases scope p own result h
  · rw [(binding_named scope p v hv).1]
    exact upsert_symbols own v
  · rw [hbound, hnone]
    rfl
  · rw [hbound, hr, registerEstimable,
      update_symbols (fun v => { v with isEstimable := true }) _ _ (fun _ hv => hv),
      inherited_symbols scope hkeyed]
    simp only [Option.bind_some, hu, Bool.false_or]
    split
    · rfl
    · rfl
  · rw [hbound, hr, addressable_symbols scope hkeyed _ _ _ _ _ h]
    simp [hu]

theorem statements_symbols (list : List Placed) (own : List Variable)
    (h : list.foldlM (applyPlaced scope) [] = .ok own) :
    own.map Variable.symbol = (list.filterMap (introduced? scope)).eraseDups := by
  induction list using List.reverseRec generalizing own with
  | nil =>
    obtain rfl : [] = own := Except.ok.inj h
    rfl
  | append_singleton rest p ih =>
    rw [List.foldlM_append] at h
    obtain ⟨before, hbefore, h⟩ := bind_ok h
    rw [List.foldlM_cons] at h
    obtain ⟨after, hstep, h⟩ := bind_ok h
    obtain rfl : after = own := Except.ok.inj h
    rw [placed_symbols scope hkeyed p before after hstep, ih before hbefore, List.filterMap_append]
    cases hp : introduced? scope p with
    | none => simp [hp]
    | some s => simp [hp, eraseDups_more]

end symbols

/-- One variable is the other but for its flags. -/
def SameButFlags (v w : Variable) : Prop :=
  w = { v with isEstimable := w.isEstimable, isAddressable := w.isAddressable }

theorem flagged_same (v : Variable) (estimable addressable : Bool) :
    SameButFlags v (v.flagged estimable addressable) := rfl

section runs
variable (s : Text)

/-- A symbol of the parent that is never bound is the parent's, if it is
documented at all. -/
theorem run_inherited (list : List Placed) (v w : Variable)
    (hw : TextMap.find? s scope.inherited = some w)
    (hlist : ∀ p ∈ list, p.statement.bound? ≠ some s)
    (h : list.foldl (entryStep scope s) none = some v) : SameButFlags w v := by
  induction list with
  | nil => cases h
  | cons p rest ih =>
    have hrest : ∀ q ∈ rest, q.statement.bound? ≠ some s := fun q hq => hlist q (by simp [hq])
    rw [List.foldl_cons] at h
    obtain ⟨hstep, -⟩ | ⟨r, -, hr, hstep⟩ := step_new scope s p (hlist p (by simp))
    · rw [hstep] at h
      exact ih hrest h
    · have hflagged : registered scope r none = some (w.flagged (!r.hasUsage) r.hasUsage) := by
        cases hu : r.hasUsage <;> simp [registered, hu, hr, hw]
      rw [hstep, hflagged, run_kept scope s rest _ hrest] at h
      obtain rfl := Option.some.inj h
      rw [Variable.flagged_twice]
      exact flagged_same w _ _

/-- A variable is made up for the first registration with a usage that its
symbol has. -/
def MadeUp (list : List Placed) (v : Variable) : Prop :=
  ∃ before first after r w, list = before ++ first :: after ∧
    Registration.of? scope.translations first.statement = some r ∧
    r.symbol = s ∧ r.hasUsage = true ∧
    (∀ q ∈ before, q.addresses scope.translations s = false) ∧
    placeholder? scope r = some w ∧ SameButFlags w v

theorem madeUp_later (p : Placed) (rest : List Placed) (v : Variable)
    (hp : p.addresses scope.translations s = false) (h : MadeUp scope s rest v) :
    MadeUp scope s (p :: rest) v := by
  obtain ⟨before, first, after, r, w, rfl, hr, hs, hu, hbefore, hw⟩ := h
  refine ⟨p :: before, first, after, r, w, rfl, hr, hs, hu, ?_, hw⟩
  intro q hq
  rcases List.mem_cons.mp hq with rfl | hq
  · exact hp
  · exact hbefore q hq

theorem placeholder_none (r t : Registration) (hs : r.symbol = t.symbol)
    (h : placeholder? scope r = none) : placeholder? scope t = none := by
  rw [placeholder?, Option.map_eq_none_iff] at h ⊢
  rw [← hs, h]

/-- A symbol that is neither bound nor the parent's has its variable made up,
if it is documented at all. -/
theorem run_placeholder (list : List Placed) (v : Variable)
    (hw : TextMap.find? s scope.inherited = none)
    (hlist : ∀ p ∈ list, p.statement.bound? ≠ some s)
    (h : list.foldl (entryStep scope s) none = some v) : MadeUp scope s list v := by
  induction list with
  | nil => cases h
  | cons p rest ih =>
    have hrest : ∀ q ∈ rest, q.statement.bound? ≠ some s := fun q hq => hlist q (by simp [hq])
    rw [List.foldl_cons] at h
    obtain ⟨hnone, hp⟩ | ⟨r, hof, hr, hstep⟩ := step_new scope s p (hlist p (by simp))
    · rw [hnone] at h
      exact madeUp_later scope s p rest v hp (ih hrest h)
    · rw [hstep, registered, hr, hw] at h
      cases hu : r.hasUsage with
      | false =>
        have hp : p.addresses scope.translations s = false := by simp [Placed.addresses, hof, hu]
        rw [hu] at h
        exact madeUp_later scope s p rest v hp (ih hrest h)
      | true =>
        rw [hu] at h
        cases hplaceholder : placeholder? scope r with
        | none =>
          -- without a display text no later registration makes the symbol up either
          rw [hplaceholder] at h
          obtain ⟨-, -, -, t, w, -, -, ht, -, -, hmade, -⟩ := ih hrest h
          rw [placeholder_none scope r t (hr.trans ht.symm) hplaceholder] at hmade
          cases hmade
        | some w =>
          rw [hplaceholder] at h
          have hkept := run_kept scope s rest (w.flagged false true) hrest
          obtain rfl := Option.some.inj (hkept.symm.trans h)
          rw [Variable.flagged_twice]
          exact ⟨[], p, rest, r, w, rfl, hof, hr, hu, by simp, hplaceholder, flagged_same w _ _⟩

def LastBound (list : List Placed) (v : Variable) : Prop :=
  ∃ before last after w, list = before ++ last :: after ∧
    last.statement.bound? = some s ∧ (∀ q ∈ after, q.statement.bound? ≠ some s) ∧
    binding scope last = some w ∧ SameButFlags w v

end runs

/-- What a constructor with the given statements documents, as its statements
tell. -/
structure Explained (list : List Placed) (own : List Variable) : Prop where
  distinct : DistinctSymbols own
  symbols : ∀ s, s ∈ own.map Variable.symbol ↔
    (∃ p ∈ list, p.statement.bound? = some s) ∨
      (s ∈ TextMap.keys scope.inherited ∧ ∃ p ∈ list,
        p.estimates scope.translations s = true ∨ p.addresses scope.translations s = true) ∨
      ∃ p ∈ list, p.addresses scope.translations s = true
  order : own.map Variable.symbol = (list.filterMap (introduced? scope)).eraseDups
  bound : ∀ v ∈ own, (∃ p ∈ list, p.statement.bound? = some v.symbol) →
    LastBound scope v.symbol list v
  inherited : ∀ v ∈ own, (∀ p ∈ list, p.statement.bound? ≠ some v.symbol) →
    ∀ w, TextMap.find? v.symbol scope.inherited = some w → SameButFlags w v
  madeUp : ∀ v ∈ own, (∀ p ∈ list, p.statement.bound? ≠ some v.symbol) →
    TextMap.find? v.symbol scope.inherited = none → MadeUp scope v.symbol list v

theorem bound_unregistered (table : TranslationTable) (s : Statement) (symbol : Text)
    (h : s.bound? = some symbol) : Registration.of? table s = none := by
  cases s with
  | bind template arguments modifiers => rfl
  | bindTable arguments => rfl
  | register arguments => cases h

theorem introduced_cases (p : Placed) (s : Text) :
    introduced? scope p = some s ↔ p.statement.bound? = some s ∨
      (s ∈ TextMap.keys scope.inherited ∧
        (p.estimates scope.translations s = true ∨ p.addresses scope.translations s = true)) ∨
      p.addresses scope.translations s = true := by
  rw [introduced?, Placed.estimates, Placed.addresses]
  cases hbound : p.statement.bound? with
  | some t => simp [bound_unregistered scope.translations p.statement t hbound]
  | none =>
    cases hr : Registration.of? scope.translations p.statement with
    | none => simp
    | some r =>
      cases hu : r.hasUsage with
      | false =>
        by_cases hs : r.symbol = s
        · simp [TextMap.mem_keys, Option.isSome_iff_ne_none, hu, hs]
        · simp [hu, hs]
      | true => simp [hu]

theorem statements_explained (hkeyed : Keyed scope.inherited) (file content : Text)
    (own : List Variable) (h : extract scope file content = .ok own) :
    Explained scope (statements scope.className file content) own := by
  have hown := extract_distinct scope hkeyed file content own h
  have horder := statements_symbols scope hkeyed _ own (extract_statements scope file content own h)
  have hentry (v : Variable) (hv : v ∈ own) :
      (statements scope.className file content).foldl (entryStep scope v.symbol) none = some v := by
    rw [← extract_entry scope hkeyed file content own v.symbol h]
    exact (mem_entry own v hown).mp hv
  constructor
  · exact hown
  · intro s
    rw [horder, List.mem_eraseDups, List.mem_filterMap]
    simp only [introduced_cases]
    constructor
    · rintro ⟨p, hp, hbound | ⟨hkey, hr⟩ | hr⟩
      · exact Or.inl ⟨p, hp, hbound⟩
      · exact Or.inr (Or.inl ⟨hkey, p, hp, hr⟩)
      · exact Or.inr (Or.inr ⟨p, hp, hr⟩)
    · rintro (⟨p, hp, hbound⟩ | ⟨hkey, p, hp, hr⟩ | ⟨p, hp, hr⟩)
      · exact ⟨p, hp, Or.inl hbound⟩
      · exact ⟨p, hp, Or.inr (Or.inl ⟨hkey, hr⟩)⟩
      · exact ⟨p, hp, Or.inr (Or.inr hr)⟩
  · exact horder
  · intro v hv hbound
    obtain ⟨before, last, after, w, hsplit, hlast, hafter, hw, -, hbound⟩ :=
      bound_entry scope v.symbol hkeyed file content own h hbound
    refine ⟨before, last, after, w, hsplit, hlast, hafter, hw, ?_⟩
    rw [(mem_entry own v hown).mp hv] at hbound
    rw [Option.some.inj hbound]
    exact flagged_same w _ _
  · intro v hv hbound w hw
    exact run_inherited scope v.symbol _ v w hw hbound (hentry v hv)
  · intro v hv hbound hw
    exact run_placeholder scope v.symbol _ v hw hbound (hentry v hv)

section frame
variable (members : MemberTable) (inherited : TextMap Variable)

theorem bound_same (l : Location) (kind : BindKind) (label member description value : Text)
    (h : TextMap.find? (memberName member) members =
      TextMap.find? (memberName member) scope.members) :
    boundVariable { scope with members, inherited } l kind label member description value =
      boundVariable scope l kind label member description value := by
  have htype : Scope.memberType { scope with members, inherited } l (memberName member) =
      scope.memberType l (memberName member) := by
    simp only [Scope.memberType, h]
  simp only [boundVariable, htype]
  rfl

theorem inherited_same (symbol : Text) (own : List Variable)
    (h : TextMap.find? symbol inherited = TextMap.find? symbol scope.inherited) :
    withInherited { scope with members, inherited } symbol own =
      withInherited scope symbol own := by
  simp only [withInherited, h]

theorem statement_same (l : Location) (own : List Variable) (s : Statement)
    (hm : ∀ m, s.member? = some m → TextMap.find? m members = TextMap.find? m scope.members)
    (hi : ∀ r, Registration.of? scope.translations s = some r →
      TextMap.find? r.symbol inherited = TextMap.find? r.symbol scope.inherited) :
    applyStatement { scope with members, inherited } l own s = applyStatement scope l own s := by
  cases s with
  | bind template arguments modifiers =>
    have hbind : bindVariable { scope with members, inherited } l arguments modifiers =
        bindVariable scope l arguments modifiers := by
      unfold bindVariable
      split
      · rename_i label member description value more
        rw [bound_same scope members inherited l _ _ member _ _ (hm _ rfl)]
        rfl
      · rfl
    rw [applyStatement, applyStatement, hbind]
  | bindTable arguments =>
    have htable : tableVariable { scope with members, inherited } l arguments =
        tableVariable scope l arguments := by
      unfold tableVariable
      split
      · rename_i label member description value flags
        rw [bound_same scope members inherited l _ _ member _ _ (hm _ rfl)]
      · rfl
    rw [applyStatement, applyStatement, htable]
  | register arguments =>
    change register { scope with members, inherited } l own arguments =
      register scope l own arguments
    unfold register
    split
    · rfl
    · split
      · rename_i label member hsymbol
        have hseen := inherited_same scope members inherited label.trim own
          (hi ⟨label.trim, memberName member, false⟩ (if_pos hsymbol))
        rw [registerEstimable, registerEstimable, hseen]
      · rfl
    · split
      · rename_i label member usage hsymbol
        have hseen := inherited_same scope members inherited label.trim own
          (hi ⟨label.trim, memberName member, true⟩ (if_pos hsymbol))
        have htype : TextMap.find? (memberName member) members = _ := hm _ rfl
        simp only [registerAddressable, hseen, htype]
        rfl
      · rfl
    · rfl

/-- What no statement names has no part in what a constructor documents. -/
theorem extract_same (file content : Text)
    (hm : ∀ p ∈ statements scope.className file content, ∀ m, p.statement.member? = some m →
      TextMap.find? m members = TextMap.find? m scope.members)
    (hi : ∀ p ∈ statements scope.className file content, ∀ r,
      Registration.of? scope.translations p.statement = some r →
        TextMap.find? r.symbol inherited = TextMap.find? r.symbol scope.inherited) :
    extract { scope with members, inherited } file content = extract scope file content := by
  unfold extract
  rw [statements] at hm hi
  cases hcollect : collect scope.className file content with
  | error f => rfl
  | ok found =>
    cases found with
    | none => rfl
    | some collected =>
      rw [hcollect] at hm hi
      change applyAll _ collected = applyAll _ collected
      apply foldlM_congr
      intro c hc own
      rw [applyCollected, applyCollected]
      split
      · rfl
      · rfl
      · rename_i s hparse
        have hplaced : ⟨s, c.location⟩ ∈ collected.filterMap Placed.of? := by
          rw [List.mem_filterMap]
          exact ⟨c, hc, by rw [Placed.of?, hparse]⟩
        exact statement_same scope members inherited c.location own s (hm _ hplaced) (hi _ hplaced)

end frame

/-- Every variable that a constructor documents comes from the statements that
name its symbol, and what they do not name has no part in it. -/
theorem extract_explained (hkeyed : Keyed scope.inherited) (file content : Text)
    (own : List Variable) (h : extract scope file content = .ok own) :
    Explained scope (statements scope.className file content) own ∧
      ∀ (members : MemberTable) (inherited : TextMap Variable),
        (∀ p ∈ statements scope.className file content, ∀ m, p.statement.member? = some m →
          TextMap.find? m members = TextMap.find? m scope.members) →
        (∀ p ∈ statements scope.className file content, ∀ r,
          Registration.of? scope.translations p.statement = some r →
            TextMap.find? r.symbol inherited = TextMap.find? r.symbol scope.inherited) →
        extract { scope with members, inherited } file content = .ok own := by
  refine ⟨statements_explained scope hkeyed file content own h, ?_⟩
  intro members inherited hm hi
  rw [extract_same scope members inherited file content hm hi, h]

def heirScope : Scope where
  className := "A".toList
  translations := ((TranslationTable.withPrefix "PARAM".toList).insert
    "PARAM_B".toList "b".toList).insert "PARAM_Q".toList "q".toList
  members := [("b_".toList, "Double".toList)]
  inherited := [("PARAM_C".toList,
    Variable.plain .parameter "PARAM_C".toList "c_".toList "c".toList "int".toList)]

def heirConstructor : Text :=
  ("A::A() \x7b\nparameters_.Bind<Double>(PARAM_B,&b_,\"\",\"\");\n" ++
    "RegisterAsAddressable(PARAM_Q,&q_,kAll);\nRegisterAsEstimable(PARAM_C,&c_);\n" ++
    "parameters_.Bind<Double>(PARAM_B,&b_,\"2\",\"\");\n\x7d\n").toList

theorem extract_explained_heir :
    ∃ own, Keyed heirScope.inherited ∧
      extract heirScope "A.cpp".toList heirConstructor = .ok own ∧
      own.map (fun v => (v.symbol, v.kind, v.description)) =
        [("PARAM_B".toList, .parameter, "2".toList), ("PARAM_Q".toList, .placeholder, []),
          ("PARAM_C".toList, .parameter, [])] ∧
      Explained heirScope (statements heirScope.className "A.cpp".toList heirConstructor) own := by
  have hkeyed : Keyed heirScope.inherited := by
    intro e he
    rw [List.mem_singleton.mp he]
    rfl
  have hshown : ((extract heirScope "A.cpp".toList heirConstructor).map
      (fun own => own.map (fun v => (v.symbol, v.kind, v.description)))).toOption =
        some [("PARAM_B".toList, .parameter, "2".toList), ("PARAM_Q".toList, .placeholder, []),
          ("PARAM_C".toList, .parameter, [])] := by
    decide +kernel
  obtain ⟨own, hok, hsymbols⟩ := ok_measured _ _ hshown
  exact ⟨own, hkeyed, hok, hsymbols,
    (extract_explained heirScope hkeyed "A.cpp".toList heirConstructor own hok).1⟩

end ParameterManual.Constructor
