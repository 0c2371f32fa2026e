import ParameterManual.Proofs.Constructor.Entry

/-!
# Registrations and binds

A bind puts a new variable in the place of the one that stands under its
symbol, flags and all. So of the registrations of a bound symbol those after
its last bind count, and those before it are lost.
-/

set_option autoImplicit false

namespace ParameterManual.Constructor

/-- A symbol that is bound has one variable, and the flags of this variable
are those registered after the last bind of the symbol. -/
theorem flags_after_bind (scope : Scope) (file content s : Text) (own : List Variable)
    (hkeyed : Keyed scope.inherited) (h : extract scope file content = .ok own)
    (hs : ∃ p ∈ statements scope.className file content, p.statement.bound? = some s) :
    ∃ before last after v,
      statements scope.className file content = before ++ last :: after ∧
        last.statement.bound? = some s ∧ (∀ q ∈ after, q.statement.bound? ≠ some s) ∧
        own.filter (fun w => w.symbol = s) = [v] ∧
        v.isAddressable = after.any (Placed.addresses scope.translations s) ∧
        v.isEstimable = after.any (Placed.estimates scope.translations s) := by
  obtain ⟨before, last, after, v, hsplit, hp, hlast, -, hnamed, hentry⟩ :=
    bound_entry scope s hkeyed file content own h hs
  have hown := extract_distinct scope hkeyed file content own h
  refine ⟨before, last, after, v.flagged (after.any (Placed.estimates scope.translations s))
    (after.any (Placed.addresses scope.translations s)), hsplit, hp, hlast, ?_, ?_, ?_⟩
  · rw [filter_entry own s hown, hentry, Option.toList_some]
  · simp [Variable.flagged, hnamed.notAddressable]
  · simp [Variable.flagged, hnamed.notEstimable]

def rateScope : Scope where
  className := "A".toList
  translations := (TranslationTable.withPrefix "PARAM".toList).insert
    "PARAM_B".toList "b".toList
  members := [("b_".toList, "Double".toList)]
  inherited := []

def rateFile : Text := "A.cpp".toList

def rateConstructor (body : List Text) : Text :=
  "A::A() \x7b\n".toList ++ body.flatten ++ "\x7d\n".toList

def rateBound : Text := "parameters_.Bind<Double>(PARAM_B,&b_,\"\",\"\");\n".toList

def rateEstimated : Text := "RegisterAsEstimable(PARAM_B,&b_);\n".toList

def rateAddressed : Text := "RegisterAsAddressable(PARAM_B,&b_,kAll);\n".toList

def betweenConstructor : Text := rateConstructor [rateEstimated, rateBound, rateAddressed]

/-- Of two registrations the one before the bind is lost. -/
theorem flags_after_bind_between :
    ∃ own, Keyed rateScope.inherited ∧
      extract rateScope rateFile betweenConstructor = .ok own ∧
      (∃ p ∈ statements rateScope.className rateFile betweenConstructor,
        p.statement.bound? = some "PARAM_B".toList) ∧
      ∃ before last after v,
        statements rateScope.className rateFile betweenConstructor = before ++ last :: after ∧
          last.statement.bound? = some "PARAM_B".toList ∧
          (∀ q ∈ after, q.statement.bound? ≠ some "PARAM_B".toList) ∧
          own.filter (fun w => w.symbol = "PARAM_B".toList) = [v] ∧
          v.isAddressable = after.any
            (Placed.addresses rateScope.translations "PARAM_B".toList) ∧
          v.isEstimable = after.any
            (Placed.estimates rateScope.translations "PARAM_B".toList) := by
  have hkeyed : Keyed rateScope.inherited := by
    intro e he
    cases he
  have hbound : ∃ p ∈ statements rateScope.className rateFile betweenConstructor,
      p.statement.bound? = some "PARAM_B".toList := by
    decide +kernel
  have hok : (extract rateScope rateFile betweenConstructor).isOk = true := by
    decide +kernel
  cases h : extract rateScope rateFile betweenConstructor with
  | error f =>
    rw [h] at hok
    cases hok
  | ok own =>
    exact ⟨own, hkeyed, rfl, hbound, flags_after_bind rateScope rateFile betweenConstructor
      "PARAM_B".toList own hkeyed h hbound⟩

def earlyConstructor : Text := rateConstructor [rateAddressed, rateEstimated, rateBound]

/-- A symbol is registered in both ways before it is bound, and has neither
flag. -/
theorem early_flags_lost :
    (statements rateScope.className rateFile earlyConstructor).map (fun p =>
        (p.addresses rateScope.translations "PARAM_B".toList,
          p.estimates rateScope.translations "PARAM_B".toList, p.statement.bound?)) =
      [(true, false, none), (false, true, none), (false, false, some "PARAM_B".toList)] ∧
    ((extract rateScope rateFile earlyConstructor).map (fun own =>
        own.map (fun v => (v.symbol, v.isAddressable, v.isEstimable)))).toOption =
      some [("PARAM_B".toList, false, false)] := by
  decide +kernel

end ParameterManual.Constructor
