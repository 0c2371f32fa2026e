import ParameterManual.Proofs.Assembly.Inheritance
import ParameterManual.Proofs.Constructor.Abreast
import ParameterManual.Proofs.Constructor.Statements

/-!
# Builds with more display texts

Which symbols there are is a matter of their prefix and spelling, and a symbol
without a display text is refused wherever one is wanted. So no step goes
another way for a text that is there besides, and what succeeds with some
display texts comes to the same with more of them.
-/

set_option autoImplicit false

namespace ParameterManual

namespace TranslationTable

/-- A table with every entry of another one as it is, for symbols of the same
prefix. -/
structure Extends (more less : TranslationTable) : Prop where
  symbolPrefix : more.symbolPrefix = less.symbolPrefix
  entries : ∀ symbol text, less.get? symbol = some text → more.get? symbol = some text

theorem extends_isSymbol (more less : TranslationTable) (h : more.Extends less) (token : Text) :
    more.isSymbol token = less.isSymbol token := by
  rw [isSymbol, isSymbol, h.symbolPrefix]

theorem extends_insert (table : TranslationTable) (symbol text : Text)
    (h : table.get? symbol = none) : (table.insert symbol text).Extends table where
  symbolPrefix := rfl
  entries := by
    intro other found hfound
    have hne : other ≠ symbol := by
      rintro rfl
      rw [h] at hfound
      cases hfound
    exact (TextMap.find?_insert_of_ne hne _ _).trans hfound

end TranslationTable

/-- What the first result succeeds with, the second one does. -/
def Follows {α : Type} (x y : Except Failure α) : Prop := ∀ a, x = .ok a → y = .ok a

theorem follows_refl {α : Type} (x : Except Failure α) : Follows x x := fun _ h => h

theorem Follows.bind {α β : Type} {x y : Except Failure α} {f g : α → Except Failure β}
    (h : Follows x y) (hf : ∀ a, Follows (f a) (g a)) : Follows (x >>= f) (y >>= g) := by
  intro b hb
  obtain ⟨a, hx, hfa⟩ := bind_ok hb
  exact bind_ok_iff.mpr ⟨a, h a hx, hf a b hfa⟩

theorem follows_stepwise : Constructor.Stepwise @Follows where
  ok := fun a => follows_refl (.ok a)
  bind := Follows.bind

namespace Constructor
variable (scope : Scope) (more : TranslationTable) (hmore : more.Extends scope.translations)
include hmore

theorem translate_follows (l : Location) (symbol : Text) :
    Follows (scope.translate l symbol)
      (Scope.translate { scope with translations := more } l symbol) := by
  intro text h
  have hget := hmore.entries symbol text (translate_get scope l symbol text h)
  rw [Scope.translate, hget]

theorem more_abreast (l : Location) :
    Abreast @Follows scope { scope with translations := more } l l where
  stepwise := follows_stepwise
  symbols := TranslationTable.extends_isSymbol more scope.translations hmore
  members := rfl
  inherited := rfl
  translate := translate_follows scope more hmore l
  memberType := fun _ => follows_refl _
  malformed := fun _ => follows_refl _

/-- A constructor that can be documented is documented the same with more
display texts. -/
theorem extract_follows (file content : Text) :
    Follows (extract scope file content)
      (extract { scope with translations := more } file content) := by
  unfold extract
  apply Follows.bind (follows_refl _)
  intro found
  cases found with
  | none => exact follows_refl _
  | some collected =>
    exact follows_stepwise.foldlM _ _ collected
      (fun own c => collected_abreast (more_abreast scope more hmore c.location) own c.text) []

end Constructor

namespace Assembly

section levels
variable (corpus : Corpus) (more : TranslationTable) (hmore : more.Extends corpus.translations)
include hmore

theorem scan_follows (pair : SourcePair) (parentMembers : MemberTable)
    (inherited : TextMap Variable) :
    Follows (scan corpus pair parentMembers inherited)
      (scan { corpus with translations := more } pair parentMembers inherited) := by
  unfold scan
  refine Follows.bind (follows_refl _) (fun header => ?_)
  refine Follows.bind (follows_refl _) (fun definition => ?_)
  exact Follows.bind
    (Constructor.extract_follows ⟨_, corpus.translations, _, inherited⟩ more hmore _ definition)
    (fun own => follows_refl _)

theorem attachPair_follows (below after : Path → MemberTable → Grown → Except Failure Grown)
    (hbelow : ∀ folder members grown,
      Follows (below folder members grown) (after folder members grown))
    (folder : Path) (members : MemberTable) (grown : Grown) (pair : SourcePair) :
    Follows (attachPair corpus below folder members grown pair)
      (attachPair { corpus with translations := more } after folder members grown pair) := by
  unfold attachPair
  refine Follows.bind (scan_follows corpus more hmore pair members _) (fun scanned => ?_)
  exact Follows.bind (hbelow _ _ _) (fun child => follows_refl _)

theorem attachChildren_follows (levels : Nat) (folder : Path) (members : MemberTable)
    (grown : Grown) :
    Follows (attachChildren corpus levels folder members grown)
      (attachChildren { corpus with translations := more } levels folder members grown) := by
  induction levels generalizing folder members grown with
  | zero => exact follows_refl _
  | succ levels ih =>
    unfold attachChildren
    refine Follows.bind (follows_refl _) (fun pairs => ?_)
    exact follows_stepwise.foldlM _ _ pairs
      (fun before pair => attachPair_follows corpus more hmore _ _ ih folder members before pair)
      grown

end levels

theorem build_follows (settings : Settings) (less more : TranslationTable)
    (hmore : more.Extends less) (tree : FileTree) (category : Category) :
    Follows (build settings less tree category) (build settings more tree category) := by
  let corpus := corpus settings less tree
  unfold build
  refine Follows.bind (follows_refl _) (fun base => ?_)
  refine Follows.bind (scan_follows corpus more hmore base _ _) (fun scanned => ?_)
  exact Follows.bind (attachChildren_follows corpus more hmore _ _ _ _)
    (fun grown => follows_refl _)

/-- With more display texts, every constructor that could be documented is
documented by the same variables, and every category that could be built has
the same class tree and statistics. -/
theorem texts_monotone (less more : TranslationTable) (hmore : more.Extends less) :
    (∀ className members inherited file content own,
      Constructor.extract ⟨className, less, members, inherited⟩ file content = .ok own →
        Constructor.extract ⟨className, more, members, inherited⟩ file content = .ok own) ∧
    ∀ settings tree category built,
      build settings less tree category = .ok built →
        build settings more tree category = .ok built := by
  constructor
  · intro className members inherited file content own h
    exact Constructor.extract_follows ⟨className, less, members, inherited⟩ more hmore file content
      own h
  · intro settings tree category built h
    exact build_follows settings less more hmore tree category built h

def widerTable : TranslationTable := labelTable.insert "PARAM_STEP".toList "step".toList

def flaggingConstructor : Text :=
  ("A::A() \x7b\n  parameters_.Bind<Double>(PARAM_RATE, &rate_, \"\", \"PARAM_STEP\");\n" ++
    "  RegisterAsEstimable(PARAM_STEP, &step_);\n\x7d\n").toList

/-- The flagged symbol has a display text in the larger table only, and is
documented with neither. -/
theorem texts_monotone_step :
    widerTable.Extends labelTable ∧ ∃ own built,
      Constructor.extract ⟨"A".toList, labelTable, [("rate_".toList, "Double".toList)], []⟩
        "A.cpp".toList flaggingConstructor = .ok own ∧
      own.map Variable.symbol = ["PARAM_RATE".toList] ∧
      Constructor.extract ⟨"A".toList, widerTable, [("rate_".toList, "Double".toList)], []⟩
        "A.cpp".toList flaggingConstructor = .ok own ∧
      build Settings.standard labelTable layeredTree (Category.ofFolder "Processes".toList) =
        .ok built ∧
      built.1.root.typeCount = 3 ∧
      build Settings.standard widerTable layeredTree (Category.ofFolder "Processes".toList) =
        .ok built := by
  have hmore : widerTable.Extends labelTable :=
    TranslationTable.extends_insert labelTable _ _ (by decide)
  obtain ⟨hextract, hbuild⟩ := texts_monotone labelTable widerTable hmore
  obtain ⟨own, hown, hsymbols⟩ := ok_measured (List.map Variable.symbol) ["PARAM_RATE".toList]
    (by decide +kernel : ((Constructor.extract ⟨"A".toList, labelTable,
      [("rate_".toList, "Double".toList)], []⟩ "A.cpp".toList flaggingConstructor).map _).toOption =
        _)
  obtain ⟨built, hbuilt, htypes⟩ := ok_measured (fun b => b.1.root.typeCount) 3
    (by decide +kernel : ((build Settings.standard labelTable layeredTree
      (Category.ofFolder "Processes".toList)).map _).toOption = _)
  exact ⟨hmore, own, built, hown, hsymbols, hextract _ _ _ _ _ own hown, hbuilt, htypes,
    hbuild _ _ _ built hbuilt⟩

end Assembly

end ParameterManual
