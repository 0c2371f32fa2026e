import ParameterManual.Run

/-!
# Categories in turn

In either mode the categories are written one after another, from the files
as they are or from those at the start. They are all written, or the first
that cannot be built or written ends the run.
-/

set_option autoImplicit false

namespace ParameterManual.Run
open FileTree

section Actions

variable {α β : Type}

theorem action_bind (first : Action α) (next : α → Action β) (tree : FileTree) :
    (first >>= next) tree = match first tree with
      | .ok a tree' => next a tree'
      | .error problem tree' => .error problem tree' := by
  change EStateM.bind first next tree = _
  rw [EStateM.bind]
  cases first tree <;> rfl

theorem action_ok {first : Action α} {next : α → Action β} {tree tree' : FileTree} {b : β}
    (h : (first >>= next) tree = .ok b tree') :
    ∃ a middle, first tree = .ok a middle ∧ next a middle = .ok b tree' := by
  rw [action_bind] at h
  cases hfirst : first tree with
  | ok a middle =>
    rw [hfirst] at h
    exact ⟨a, middle, rfl, h⟩
  | error problem middle =>
    rw [hfirst] at h
    cases h

theorem action_error {first : Action α} {next : α → Action β} {tree tree' : FileTree}
    {problem : Problem} (h : (first >>= next) tree = .error problem tree') :
    first tree = .error problem tree' ∨
      ∃ a middle, first tree = .ok a middle ∧ next a middle = .error problem tree' := by
  rw [action_bind] at h
  cases hfirst : first tree with
  | ok a middle =>
    rw [hfirst] at h
    exact Or.inr ⟨a, middle, rfl, h⟩
  | error found middle =>
    rw [hfirst] at h
    obtain ⟨rfl, rfl⟩ : found = problem ∧ middle = tree' := by simpa using h
    exact Or.inl rfl

def finished? (result : EStateM.Result Problem FileTree α) : Option (α × FileTree) :=
  match result with
  | .ok a tree => some (a, tree)
  | .error _ _ => none

theorem finished_ok (result : EStateM.Result Problem FileTree α) (a : α) (tree : FileTree)
    (h : finished? result = some (a, tree)) : result = .ok a tree := by
  cases result with
  | ok b left =>
    obtain ⟨rfl, rfl⟩ := Prod.mk.inj (Option.some.inj h)
    rfl
  | error problem left => cases h

theorem attempt_congr (stage : Option Stage) (result : Except Failure α)
    (next next' : α → Action β) (tree : FileTree)
    (h : ∀ a, result = .ok a → next a tree = next' a tree) :
    (attempt stage result >>= next) tree = (attempt stage result >>= next') tree := by
  cases result with
  | error f => rfl
  | ok a => exact h a rfl

end Actions

theorem saveFile_outcome (stage : Option Stage) (path : Path) (t : Text) (tree : FileTree) :
    saveFile stage path t tree =
      match tree.save path t with
      | .ok saved => .ok () saved
      | .error f => .error ⟨stage, .failure f⟩ tree := by
  change (attempt stage (tree.save path t) >>= _) tree = _
  rw [action_bind]
  cases tree.save path t <;> rfl

theorem typeset_outcome (typesetter : Typesetter) (folder : Path) (files : List Path)
    (tree : FileTree) :
    typeset typesetter folder files tree =
      match (typesetter folder files tree).1 with
      | .ok _ => .ok () (typesetter folder files tree).2
      | .error cause => .error ⟨some .typesetting, cause⟩ (typesetter folder files tree).2 := by
  change (match (typesetter folder files tree).1 with
    | .ok _ => pure ()
    | .error cause => (throw (Problem.mk (some .typesetting) cause) : Action Unit))
      (typesetter folder files tree).2 = _
  cases (typesetter folder files tree).1 <;> rfl

def sectionPath (settings : Settings) (hierarchy : Hierarchy) : Path :=
  Path.join settings.outputFolder (Manual.fileName hierarchy)

theorem section_outcome (settings : Settings) (category : Category) (hierarchy : Hierarchy)
    (statistics : Statistics) (tree : FileTree) :
    writeSection settings category (.ok (hierarchy, statistics)) tree =
      match tree.save (sectionPath settings hierarchy)
          (Manual.render settings.style category hierarchy) with
      | .ok saved => .ok ⟨sectionPath settings hierarchy, hierarchy, statistics⟩ saved
      | .error f => .error ⟨some (.writing category.folder), .failure f⟩ tree := by
  change (saveFile (some (.writing category.folder)) (sectionPath settings hierarchy)
    (Manual.render settings.style category hierarchy) >>= _) tree = _
  rw [action_bind, saveFile_outcome]
  cases tree.save (sectionPath settings hierarchy)
    (Manual.render settings.style category hierarchy) <;> rfl

/-- Why a category comes to no section: it cannot be built, or its section
cannot be written. -/
inductive Fails (settings : Settings) (category : Category) (tree : FileTree) :
    Built → Problem → Prop
  | building (f : Failure) :
    Fails settings category tree (.error f) ⟨some (.building category.folder), .failure f⟩
  | writing (hierarchy : Hierarchy) (statistics : Statistics) (f : Failure) :
    tree.save (sectionPath settings hierarchy)
      (Manual.render settings.style category hierarchy) = .error f →
    Fails settings category tree (.ok (hierarchy, statistics))
      ⟨some (.writing category.folder), .failure f⟩

variable (settings : Settings)

theorem section_ok (category : Category) (built : Built) (tree saved : FileTree) (output : Output)
    (h : writeSection settings category built tree = .ok output saved) :
    ∃ hierarchy statistics, built = .ok (hierarchy, statistics) ∧
      tree.save (sectionPath settings hierarchy)
        (Manual.render settings.style category hierarchy) = .ok saved ∧
      output = ⟨sectionPath settings hierarchy, hierarchy, statistics⟩ := by
  cases built with
  | error f => cases h
  | ok pair =>
    obtain ⟨hierarchy, statistics⟩ := pair
    rw [section_outcome] at h
    split at h
    · rename_i written hs
      cases h
      exact ⟨hierarchy, statistics, rfl, hs, rfl⟩
    · cases h

theorem section_error (category : Category) (built : Built) (tree left : FileTree)
    (problem : Problem) (h : writeSection settings category built tree = .error problem left) :
    left = tree ∧ Fails settings category tree built problem := by
  cases built with
  | error f =>
    cases h
    exact ⟨rfl, .building f⟩
  | ok pair =>
    obtain ⟨hierarchy, statistics⟩ := pair
    rw [section_outcome] at h
    split at h
    · cases h
    · rename_i f hs
      cases h
      exact ⟨rfl, .writing hierarchy statistics f hs⟩

theorem section_fails (category : Category) (built : Built) (tree : FileTree) (problem : Problem)
    (h : Fails settings category tree built problem) :
    writeSection settings category built tree = .error problem tree := by
  cases h with
  | building f => rfl
  | writing hierarchy statistics f hs => rw [section_outcome, hs]

/-- The sections of categories are written one after another, each from a
build of its category. -/
inductive Written (build : FileTree → Category → Built) :
    List Category → FileTree → List Output → FileTree → Prop
  | nothing (tree : FileTree) : Written build [] tree [] tree
  | onward {category : Category} {rest : List Category} {tree saved left : FileTree}
      {hierarchy : Hierarchy} {statistics : Statistics} {outputs : List Output} :
    build tree category = .ok (hierarchy, statistics) →
    tree.save (sectionPath settings hierarchy)
      (Manual.render settings.style category hierarchy) = .ok saved →
    Written build rest saved outputs left →
    Written build (category :: rest) tree
      (⟨sectionPath settings hierarchy, hierarchy, statistics⟩ :: outputs) left

variable (build : FileTree → Category → Built)

theorem written_append (categories others : List Category) (tree middle left : FileTree)
    (outputs more : List Output) (h : Written settings build categories tree outputs middle)
    (h' : Written settings build others middle more left) :
    Written settings build (categories ++ others) tree (outputs ++ more) left := by
  induction h with
  | nothing tree => exact h'
  | onward hbuild hsave _ ih => exact .onward hbuild hsave (ih h')

theorem turns_cons (category : Category) (rest : List Category) (tree : FileTree) :
    eachInTurn settings build (category :: rest) tree =
      (writeSection settings category (build tree category) >>= fun output =>
        eachInTurn settings build rest >>= fun more => pure (output :: more)) tree := rfl

theorem turns_written (categories rest : List Category) (tree left : FileTree)
    (outputs : List Output) (h : Written settings build categories tree outputs left) :
    eachInTurn settings build (categories ++ rest) tree =
      (eachInTurn settings build rest >>= fun more => pure (outputs ++ more)) left := by
  induction h with
  | nothing tree =>
    rw [action_bind, List.nil_append]
    cases eachInTurn settings build rest tree <;> rfl
  | @onward category earlier tree saved left hierarchy statistics outputs hbuild hsave _ ih =>
    rw [List.cons_append, turns_cons, action_bind, hbuild, section_outcome, hsave]
    change (eachInTurn settings build (earlier ++ rest) >>= _) saved = _
    rw [action_bind, ih, action_bind, action_bind]
    cases eachInTurn settings build rest left <;> rfl

theorem turns_ok (categories : List Category) (tree left : FileTree) (outputs : List Output) :
    eachInTurn settings build categories tree = .ok outputs left ↔
      Written settings build categories tree outputs left := by
  constructor
  · intro h
    induction categories generalizing tree outputs with
    | nil =>
      cases h
      exact .nothing left
    | cons category rest ih =>
      rw [turns_cons] at h
      obtain ⟨output, saved, hsection, h⟩ := action_ok h
      obtain ⟨more, last, hrest, h⟩ := action_ok h
      cases h
      obtain ⟨hierarchy, statistics, hbuild, hsave, rfl⟩ :=
        section_ok settings category _ tree saved output hsection
      exact .onward hbuild hsave (ih saved more hrest)
  · intro h
    have hturns := turns_written settings build categories [] tree left outputs h
    rw [List.append_nil] at hturns
    rw [hturns, action_bind]
    exact congrArg (EStateM.Result.ok · left) (List.append_nil outputs)

/-- It ends with the first category that fails, after those before it have
been written. -/
theorem turns_error (categories : List Category) (tree left : FileTree) (problem : Problem) :
    eachInTurn settings build categories tree = .error problem left ↔
      ∃ before category after outputs, categories = before ++ category :: after ∧
        Written settings build before tree outputs left ∧
        Fails settings category left (build left category) problem := by
  constructor
  · intro h
    induction categories generalizing tree with
    | nil => cases h
    | cons category rest ih =>
      rw [turns_cons] at h
      rcases action_error h with hsection | ⟨output, saved, hsection, h⟩
      · obtain ⟨rfl, hfails⟩ := section_error settings category _ tree left problem hsection
        exact ⟨[], category, rest, [], rfl, .nothing left, hfails⟩
      · rcases action_error h with hrest | ⟨more, last, -, h⟩
        · obtain ⟨before, failing, after, outputs, rfl, hwritten, hfails⟩ := ih saved hrest
          obtain ⟨hierarchy, statistics, hbuild, hsave, rfl⟩ :=
            section_ok settings category _ tree saved output hsection
          exact ⟨category :: before, failing, after, _, rfl, .onward hbuild hsave hwritten, hfails⟩
        · cases h
  · rintro ⟨before, category, after, outputs, rfl, hwritten, hfails⟩
    rw [turns_written settings build before _ tree left outputs hwritten, action_bind]
    rw [turns_cons, action_bind, section_fails settings category _ left problem hfails]

/-- Builds that come to what they come to at the start can be made there. -/
theorem turns_same (start : FileTree) (categories : List Category)
    (hsame : ∀ before category after outputs left, categories = before ++ category :: after →
      Written settings (fun _ => build start) before start outputs left →
        build left category = build start category) :
    eachInTurn settings build categories start =
      eachInTurn settings (fun _ => build start) categories start := by
  have hrest (before rest : List Category) (outputs : List Output) (left : FileTree)
      (hcategories : categories = before ++ rest)
      (hwritten : Written settings (fun _ => build start) before start outputs left) :
      eachInTurn settings build rest left =
        eachInTurn settings (fun _ => build start) rest left := by
    induction rest generalizing before outputs left with
    | nil => rfl
    | cons category rest ih =>
      rw [turns_cons, turns_cons, hsame before category rest outputs left hcategories hwritten,
        action_bind, action_bind]
      cases hsection : writeSection settings category (build start category) left with
      | error problem last => rfl
      | ok output saved =>
        obtain ⟨hierarchy, statistics, hbuild, hsave, rfl⟩ :=
          section_ok settings category _ left saved output hsection
        have hnext := written_append settings _ before [category] start left saved outputs _
          hwritten (.onward hbuild hsave (.nothing saved))
        have hlater := ih (before ++ [category]) _ saved (by simpa using hcategories) hnext
        simp only [action_bind, hlater]
  exact hrest [] categories [] start rfl (.nothing start)

/-- Each slot is empty or holds the result of the category in its position. -/
def Filled (build : Category → Built) (categories : List Category)
    (slots : List (Option Built)) : Prop :=
  slots.length = categories.length ∧
    ∀ i (h : i < slots.length) (h' : i < categories.length),
      slots[i] = none ∨ slots[i] = some (build categories[i])

theorem filled_set (build : Category → Built) (categories : List Category)
    (slots : List (Option Built)) (h : Filled build categories slots) (i : Nat) :
    Filled build categories (slots.set i (categories[i]?.map build)) := by
  refine ⟨by simpa using h.1, fun j hj hj' => ?_⟩
  rw [List.getElem_set]
  by_cases hij : i = j
  · subst hij
    right
    rw [if_pos rfl, List.getElem?_eq_getElem hj', Option.map_some]
  · rw [if_neg hij]
    exact h.2 j (by simpa using hj) hj'

theorem filled_finishing (build : Category → Built) (categories : List Category)
    (finishing : List Nat) (slots : List (Option Built)) (h : Filled build categories slots) :
    Filled build categories
      (finishing.foldl (fun slots i => slots.set i (categories[i]?.map build)) slots) := by
  induction finishing generalizing slots with
  | nil => exact h
  | cons i rest ih => exact ih _ (filled_set build categories slots h i)

/-- The order in which builds finish has no influence on their results. -/
theorem buildAll_map (finishing : List Nat) (build : Category → Built)
    (categories : List Category) : buildAll finishing build categories = categories.map build := by
  have hempty : Filled build categories (categories.map (fun _ => none)) :=
    ⟨by simp, fun i _ _ => Or.inl (by simp)⟩
  have hfilled := filled_finishing build categories finishing _ hempty
  rw [buildAll]
  generalize finishing.foldl (fun slots i => slots.set i (categories[i]?.map build))
    (categories.map (fun _ => none)) = slots at hfilled ⊢
  obtain ⟨hlength, hslots⟩ := hfilled
  refine List.ext_getElem (by simp [hlength]) (fun i hi hi' => ?_)
  have hc : i < categories.length := by simpa using hi'
  rw [List.getElem_zipWith, List.getElem_map]
  rcases hslots i (by omega) hc with hs | hs
  · rw [hs, Option.getD_none]
  · rw [hs, Option.getD_some]

/-- What a category is built from: the files as they are, or those at the start. -/
def Mode.builds (build : FileTree → Category → Built) (start : FileTree) :
    Mode → FileTree → Category → Built
  | .oneByOne => build
  | .parallel _ => fun _ => build start

theorem writeAll_turns (settings : Settings) (build : Category → Built)
    (categories : List Category) :
    writeAll settings (categories.zip (categories.map build)) =
      eachInTurn settings (fun _ => build) categories := by
  induction categories with
  | nil => rfl
  | cons category rest ih =>
    funext tree
    rw [turns_cons, ← ih]
    rfl

theorem outputs_turns (categories : List Category) (mode : Mode) (tree : FileTree) :
    outputs settings build categories mode tree =
      eachInTurn settings (mode.builds build tree) categories tree := by
  cases mode with
  | oneByOne => rfl
  | parallel finishing =>
    change writeAll settings (categories.zip (buildAll finishing (build tree) categories)) tree = _
    rw [buildAll_map, writeAll_turns]
    rfl

structure Started (names : List Text) (tree : FileTree) (categories : List Category)
    (translations : TranslationTable) : Prop where
  valid : settings.validate = .ok ()
  selected : settings.select names = .ok categories
  loaded : loadTranslations settings tree = .ok translations

variable (options : Options) (typesetter : Typesetter) (tree : FileTree)

theorem run_outputs (categories : List Category) (translations : TranslationTable)
    (h : Started settings options.categories tree categories translations) :
    run settings options typesetter tree =
      (outputs settings (Assembly.build settings translations) categories options.mode >>=
        fun written => writeJson options.json (Summary.ofOutputs written).hierarchies >>=
        fun _ => typeset typesetter settings.outputFolder (Summary.ofOutputs written).files >>=
        fun _ => pure (Summary.ofOutputs written)) tree := by
  change (attempt none settings.validate >>= _) tree = _
  rw [action_bind, h.valid]
  change (attempt none (settings.select options.categories) >>= _) tree = _
  rw [action_bind, h.selected]
  change (attempt (some .translations) (loadTranslations settings tree) >>= _) tree = _
  rw [action_bind, h.loaded]
  rfl

theorem run_start :
    (∃ categories translations,
        Started settings options.categories tree categories translations) ∨
      ∃ stage f, (stage = none ∨ stage = some .translations) ∧
        run settings options typesetter tree = .error ⟨stage, .failure f⟩ tree := by
  cases hvalid : settings.validate with
  | error f =>
    right
    exact ⟨none, f, Or.inl rfl, by simp only [run, hvalid]; rfl⟩
  | ok _ =>
    cases hselect : settings.select options.categories with
    | error f =>
      right
      exact ⟨none, f, Or.inl rfl, by simp only [run, hvalid, hselect]; rfl⟩
    | ok categories =>
      cases hload : loadTranslations settings tree with
      | error f =>
        right
        refine ⟨some .translations, f, Or.inr rfl, ?_⟩
        simp only [run, hvalid, hselect]
        change (attempt (some .translations) (loadTranslations settings tree) >>= _) tree = _
        rw [action_bind, hload]
        rfl
      | ok translations =>
        left
        exact ⟨categories, translations, hvalid, hselect, hload⟩

end ParameterManual.Run
