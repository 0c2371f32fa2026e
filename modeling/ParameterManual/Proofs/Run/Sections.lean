import ParameterManual.Proofs.Files.Contents
import ParameterManual.Proofs.Run.Turns

/-!
# Written sections

The sections that a run has written lie over the files at the start, each
where its path leads, and nothing else has changed.
-/

set_option autoImplicit false

namespace ParameterManual.Run
open FileTree

variable (settings : Settings)

def sectionTexts (tree : FileTree) (categories : List Category) (outputs : List Output) :
    List (List Text × Text) :=
  List.zipWith (fun category output =>
    (tree.target output.file, Manual.render settings.style category output.hierarchy))
    categories outputs

variable {settings} {build : FileTree → Category → Built}

theorem sectionTexts_here (tree tree' : FileTree) (h : tree'.here = tree.here) :
    sectionTexts settings tree' = sectionTexts settings tree := by
  funext categories outputs
  simp only [sectionTexts, target_here tree tree' _ h]

/-- What is on disk is what was there, with the sections over it. -/
theorem written_contents {categories : List Category} {tree left : FileTree}
    {outputs : List Output} (h : Written settings build categories tree outputs left) :
    left.contents = overlay tree.contents (sectionTexts settings tree categories outputs) := by
  induction h with
  | nothing tree => rfl
  | onward hbuild hsave _ ih =>
    rw [ih, save_contents _ _ _ _ hsave, sectionTexts_here _ _ (save_stands _ _ _ _ hsave).here]
    rfl

theorem written_length {categories : List Category} {tree left : FileTree}
    {outputs : List Output} (h : Written settings build categories tree outputs left) :
    outputs.length = categories.length := by
  induction h with
  | nothing tree => rfl
  | onward _ _ _ ih => simp [ih]

theorem written_kept {categories : List Category} {tree left : FileTree} {outputs : List Output}
    (h : Written settings build categories tree outputs left) (i : Nat) (category : Category)
    (output : Output) (hc : categories[i]? = some category) (ho : outputs[i]? = some output)
    (hlater : ∀ j later, i < j → outputs[j]? = some later →
      tree.target later.file ≠ tree.target output.file) :
    left.contents (tree.target output.file) =
      some (.text (Manual.render settings.style category output.hierarchy)) := by
  rw [written_contents h]
  apply overlay_kept _ _ i
  · rw [sectionTexts, List.getElem?_zipWith, hc, ho]
  · intro j w hj hw
    rw [sectionTexts, List.getElem?_zipWith] at hw
    split at hw
    · rename_i own later _ hfound
      obtain rfl := Option.some.inj hw
      exact hlater j later hj hfound
    · cases hw

theorem written_stands {categories : List Category} {tree left : FileTree}
    {outputs : List Output} (h : Written settings build categories tree outputs left) :
    Stands tree left := by
  induction h with
  | nothing tree => exact stands_refl tree
  | onward hbuild hsave _ ih => exact stands_trans _ _ _ (save_stands _ _ _ _ hsave) ih

theorem written_places {categories : List Category} {tree left : FileTree}
    {outputs : List Output} (h : Written settings build categories tree outputs left)
    (output : Output) (hm : output ∈ outputs) :
    left.place output.file = .ok (tree.target output.file) := by
  induction h with
  | nothing tree => cases hm
  | onward hbuild hsave hrest ih =>
    rcases List.mem_cons.mp hm with rfl | hm
    · exact place_stands _ _ (written_stands hrest) _ _ (save_place _ _ _ _ hsave)
    · rw [ih hm, target_here _ _ _ (save_stands _ _ _ _ hsave).here]

theorem written_built {categories : List Category} {tree left : FileTree}
    {outputs : List Output} (h : Written settings build categories tree outputs left)
    (P : FileTree → Prop)
    (hkept : ∀ tree path t saved, P tree → tree.save path t = .ok saved → P saved)
    (htree : P tree) (output : Output) (hm : output ∈ outputs) :
    ∃ category ∈ categories, ∃ middle, P middle ∧
      build middle category = .ok (output.hierarchy, output.statistics) ∧
      output.file = sectionPath settings output.hierarchy := by
  induction h with
  | nothing tree => cases hm
  | @onward category rest tree saved left hierarchy statistics outputs hbuild hsave _ ih =>
    rcases List.mem_cons.mp hm with rfl | hm
    · exact ⟨category, by simp, tree, htree, hbuild, rfl⟩
    · obtain ⟨own, hown, middle, hmiddle, hbuilt, hfile⟩ := ih (hkept _ _ _ _ htree hsave) hm
      exact ⟨own, List.mem_cons_of_mem category hown, middle, hmiddle, hbuilt, hfile⟩

theorem written_grown {categories : List Category} {tree left : FileTree}
    {outputs : List Output} (h : Written settings build categories tree outputs left) :
    Grown (outputs.flatMap (fun output => tree.trail output.file)) tree left := by
  induction h with
  | nothing tree => exact grown_refl _ tree
  | @onward category rest tree saved left hierarchy statistics outputs hbuild hsave _ ih =>
    have hsaved := save_grown tree saved _ _ hsave
    rw [List.flatMap_cons]
    apply grown_trans _ tree saved left
    · exact grown_mono _ _ tree saved (fun p hp => List.mem_append_left _ hp) hsaved
    · refine grown_mono _ _ saved left (fun p hp => List.mem_append_right _ ?_) ih
      simpa only [trail_here tree saved _ hsaved.here] using hp

end ParameterManual.Run
