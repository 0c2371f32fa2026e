import ParameterManual.Proofs.Run.OwnFile
import ParameterManual.Typesetting

/-!
# What a run changes

Whatever ends a run, a property of the files holds after it if it holds before
and no section, no json and no typesetting breaks it. So a run that leaves
typesetting aside changes texts directly in the output folder, and the json.
-/

set_option autoImplicit false

namespace ParameterManual.Run
open FileTree

section After

variable {α β : Type}

def after (result : EStateM.Result Problem FileTree α) : FileTree :=
  match result with
  | .ok _ tree => tree
  | .error _ tree => tree

theorem after_bind (P : FileTree → Prop) (first : Action α) (next : α → Action β)
    (tree : FileTree) (hfirst : P (after (first tree)))
    (hnext : ∀ a middle, first tree = .ok a middle → P middle → P (after (next a middle))) :
    P (after ((first >>= next) tree)) := by
  rw [action_bind]
  cases h : first tree with
  | ok a middle =>
    rw [h] at hfirst
    exact hnext a middle h hfirst
  | error problem left =>
    rw [h] at hfirst
    exact hfirst

end After

variable (settings : Settings) (translations : TranslationTable)

/-- A property of files that neither a section nor the json breaks. -/
structure Kept (json : Option Path) (P : FileTree → Prop) : Prop where
  onSections : ∀ translations category hierarchy statistics middle tree saved, P middle →
    Assembly.build settings translations middle category = .ok (hierarchy, statistics) → P tree →
      tree.save (sectionPath settings hierarchy)
        (Manual.render settings.style category hierarchy) = .ok saved → P saved
  onJson : ∀ path t tree saved, json = some path → P tree → tree.save path t = .ok saved →
    P saved

variable {settings} {json : Option Path} {P : FileTree → Prop}

theorem turns_kept (hkept : Kept settings json P) (build : FileTree → Category → Built)
    (hbuild : ∀ tree category, P tree → ∃ middle, P middle ∧
      build tree category = Assembly.build settings translations middle category)
    (categories : List Category) (tree : FileTree) (htree : P tree) :
    P (after (eachInTurn settings build categories tree)) := by
  induction categories generalizing tree with
  | nil => exact htree
  | cons category rest ih =>
    rw [turns_cons]
    have hsection : P (after (writeSection settings category (build tree category) tree)) := by
      cases h : writeSection settings category (build tree category) tree with
      | error problem left =>
        obtain ⟨rfl, -⟩ := section_error settings category _ tree left problem h
        exact htree
      | ok output saved =>
        obtain ⟨hierarchy, statistics, hbuilt, hsave, -⟩ :=
          section_ok settings category _ tree saved output h
        obtain ⟨middle, hmiddle, hsame⟩ := hbuild tree category htree
        exact hkept.onSections translations category hierarchy statistics middle tree saved
          hmiddle (hsame.symm.trans hbuilt) htree hsave
    apply after_bind P _ _ tree hsection
    intro output saved _ hsaved
    apply after_bind P _ _ saved (ih saved hsaved)
    exact fun _ _ _ hlast => hlast

theorem writeJson_kept (hkept : Kept settings json P) (hierarchies : List Hierarchy)
    (tree : FileTree) (htree : P tree) : P (after (writeJson json hierarchies tree)) := by
  cases json with
  | none => exact htree
  | some path =>
    rw [writeJson, saveFile_outcome]
    cases hsave : tree.save path ((Json.ofHierarchies hierarchies).pretty 0) with
    | ok saved => exact hkept.onJson path _ tree saved rfl htree hsave
    | error f => exact htree

theorem typeset_after (typesetter : Typesetter) (folder : Path) (files : List Path)
    (tree : FileTree) :
    after (typeset typesetter folder files tree) = (typesetter folder files tree).2 := by
  rw [typeset_outcome]
  cases (typesetter folder files tree).1 <;> rfl

/-- A run keeps what each of its parts keeps. -/
theorem run_kept (options : Options) (typesetter : Typesetter) (tree : FileTree)
    (hkept : Kept settings options.json P)
    (htypeset : ∀ files tree, P tree → P (typesetter settings.outputFolder files tree).2)
    (htree : P tree) : P (after (run settings options typesetter tree)) := by
  rcases run_start settings options typesetter tree with
    ⟨categories, translations, hstarted⟩ | ⟨stage, f, -, herror⟩
  · rw [run_outputs settings options typesetter tree categories translations hstarted]
    have houtputs : P (after (outputs settings (Assembly.build settings translations) categories
        options.mode tree)) := by
      rw [outputs_turns]
      apply turns_kept translations hkept _ _ categories tree htree
      intro left category hleft
      cases options.mode with
      | oneByOne => exact ⟨left, hleft, rfl⟩
      | parallel finishing => exact ⟨tree, htree, rfl⟩
    apply after_bind P _ _ tree houtputs
    intro written middle _ hmiddle
    apply after_bind P _ _ middle (writeJson_kept hkept _ middle hmiddle)
    intro _ saved _ hsaved
    apply after_bind P _ _ saved
    · rw [typeset_after]
      exact htypeset _ saved hsaved
    · exact fun _ _ _ hlast => hlast
  · rw [herror]
    exact htree

theorem run_here (settings : Settings) (options : Options) (typesetter : Typesetter)
    (tree : FileTree)
    (htypeset : ∀ folder files tree, (typesetter folder files tree).2.here = tree.here) :
    (after (run settings options typesetter tree)).here = tree.here := by
  apply run_kept (P := fun other => other.here = tree.here) options typesetter tree
  · constructor
    · intro _ _ _ _ _ other saved _ _ hother hsave
      exact (save_stands other saved _ _ hsave).here.trans hother
    · intro _ _ other saved _ hother hsave
      exact (save_stands other saved _ _ hsave).here.trans hother
  · exact fun files other hother => (htypeset _ files other).trans hother
  · rfl

/-- The places of texts that a run writes: directly in the output folder, and
where the json goes. -/
def Touched (settings : Settings) (json : Option Path) (tree : FileTree) (p : List Text) : Prop :=
  (∃ name, p = tree.target settings.outputFolder ++ [name ++ ".tex".toList]) ∨
    ∃ path, json = some path ∧ p = tree.target path

/-- No other file is changed, also if the run fails. -/
theorem run_untouched (settings : Settings) (options : Options) (typesetter : Typesetter)
    (tree : FileTree) (hnamed : Named tree)
    (hidle : ∀ folder files tree, (typesetter folder files tree).2 = tree) (p : List Text)
    (hp : ¬ Touched settings options.json tree p) :
    (after (run settings options typesetter tree)).contents p = tree.contents p := by
  -- the names on disk and the working folder are kept along with the file
  let P : FileTree → Prop := fun other =>
    Named other ∧ other.here = tree.here ∧ other.contents p = tree.contents p
  have hsaved (other saved : FileTree) (path : Path) (t : Text) (hother : P other)
      (hsave : other.save path t = .ok saved) (hpath : p ≠ tree.target path) : P saved := by
    obtain ⟨hnames, hhere, hsame⟩ := hother
    refine ⟨save_named other path t saved hnames hsave,
      (save_stands other saved path t hsave).here.trans hhere, ?_⟩
    rw [save_contents other saved path t hsave, target_here tree other path hhere,
      Function.update_of_ne hpath, hsame]
  have hrun : P (after (run settings options typesetter tree)) := by
    apply run_kept options typesetter tree
    · constructor
      · intro translations category hierarchy statistics middle other saved hmiddle hbuild hother
          hsave
        apply hsaved other saved _ _ hother hsave
        have hname := build_named settings translations middle category hierarchy statistics
          hmiddle.1 hbuild
        rintro rfl
        exact hp (Or.inl ⟨_, section_target settings tree hierarchy hname⟩)
      · intro path t other saved hjson hother hsave
        apply hsaved other saved path t hother hsave
        rintro rfl
        exact hp (Or.inr ⟨path, hjson, rfl⟩)
    · intro files other hother
      rwa [hidle]
    · exact ⟨hnamed, rfl, rfl⟩
  exact hrun.2.2

section Shell

variable (shell : Shell) (command : Text) (folder : Path) (files : List Path)

theorem shell_ok (tree left : FileTree) :
    shellTypesetter shell command folder files tree = (.ok (), left) ↔
      ∃ place, tree.place folder = .ok place ∧ tree.isFolder folder = true ∧
        (shell command { tree with here := place }).1.succeeded = true ∧
        left = { (shell command { tree with here := place }).2 with here := tree.here } := by
  constructor
  · intro h
    rw [shellTypesetter] at h
    split at h
    · cases h
    · rename_i place hplace
      split at h
      · rename_i hfolder
        split at h
        rename_i ending made hshell
        split at h
        · rename_i hsucceeded
          obtain ⟨-, rfl⟩ := Prod.mk.inj h
          refine ⟨place, hplace, hfolder, ?_⟩
          rw [hshell]
          exact ⟨hsucceeded, rfl⟩
        · cases h
      · cases h
  · rintro ⟨place, hplace, hfolder, hsucceeded, rfl⟩
    rw [shellTypesetter, hplace]
    simp only [hfolder, if_true, hsucceeded]

/-- A command that is not started changes nothing; one that is started may
change what it likes, but not where paths lead from. -/
theorem shell_failed (tree left : FileTree) (cause : Cause)
    (h : shellTypesetter shell command folder files tree = (.error cause, left)) :
    (left = tree ∧ ∃ fault, cause = .notStarted command fault) ∨
      ∃ place, tree.place folder = .ok place ∧
        (shell command { tree with here := place }).1.succeeded = false ∧
        cause = .ended command (shell command { tree with here := place }).1 ∧
        left = { (shell command { tree with here := place }).2 with here := tree.here } := by
  rw [shellTypesetter] at h
  split at h
  · obtain ⟨hcause, rfl⟩ := Prod.mk.inj h
    exact Or.inl ⟨rfl, _, (Except.error.inj hcause).symm⟩
  · rename_i place hplace
    split at h
    · split at h
      rename_i ending made hshell
      split at h
      · cases h
      · rename_i hsucceeded
        obtain ⟨hcause, rfl⟩ := Prod.mk.inj h
        refine Or.inr ⟨place, hplace, ?_⟩
        rw [hshell]
        exact ⟨Bool.eq_false_iff.mpr hsucceeded, (Except.error.inj hcause).symm, rfl⟩
    · obtain ⟨hcause, rfl⟩ := Prod.mk.inj h
      exact Or.inl ⟨rfl, _, (Except.error.inj hcause).symm⟩

theorem shell_here (tree : FileTree) :
    (shellTypesetter shell command folder files tree).2.here = tree.here := by
  rw [shellTypesetter]
  split
  · rfl
  · split
    · split
      split <;> rfl
    · rfl

end Shell

end ParameterManual.Run
