import Mathlib.Logic.Function.Basic
import ParameterManual.Proofs.Files.Saving

/-!
# What files hold

The files of a tree are a map from places to contents. Making folders leaves
the map as it is, and saving a file changes it at the place of the path only,
where reading the path then finds what was saved.
-/

set_option autoImplicit false

namespace ParameterManual

def Entry.content? : Entry → Option Content
  | .file content => some content
  | .folder _ => none

namespace FileTree
open Entry

def contents (tree : FileTree) (p : List Text) : Option Content :=
  (tree.root.get? p).bind Entry.content?

/-- The texts that are written at places, one after another, over the files
that were there. -/
def overlay (files : List Text → Option Content) :
    List (List Text × Text) → List Text → Option Content
  | [] => files
  | (p, t) :: rest => overlay (Function.update files p (some (.text t))) rest

theorem overlay_other (files : List Text → Option Content) (written : List (List Text × Text))
    (p : List Text) (h : ∀ w ∈ written, w.1 ≠ p) : overlay files written p = files p := by
  induction written generalizing files with
  | nil => rfl
  | cons w rest ih =>
    have hrest := ih (Function.update files w.1 (some (.text w.2))) (fun v hv => h v (by simp [hv]))
    exact hrest.trans (Function.update_of_ne (Ne.symm (h w (by simp))) _ files)

/-- A text stays where it is written, unless another follows it there. -/
theorem overlay_kept (files : List Text → Option Content) (written : List (List Text × Text))
    (i : Nat) (p : List Text) (t : Text) (hi : written[i]? = some (p, t))
    (hlater : ∀ j w, i < j → written[j]? = some w → w.1 ≠ p) :
    overlay files written p = some (.text t) := by
  induction written generalizing files i with
  | nil => simp at hi
  | cons w rest ih =>
    cases i with
    | zero =>
      obtain rfl : w = (p, t) := by simpa using hi
      have hrest : ∀ v ∈ rest, v.1 ≠ p := by
        intro v hv
        obtain ⟨j, hj⟩ := List.mem_iff_getElem?.mp hv
        exact hlater (j + 1) v (by omega) (by simpa using hj)
      rw [overlay, overlay_other _ rest p hrest, Function.update_self]
    | succ i =>
      apply ih _ i
      · simpa using hi
      · intro j v hj hv
        exact hlater (j + 1) v (by omega) (by simpa using hv)

theorem contents_put (tree : FileTree) (place : List Text) (name : Text) (new : Entry)
    (hnew : IsLeaf new) (hplace : tree.root.kind place = some true)
    (hold : tree.root.kind (place ++ [name]) ≠ some true) :
    (tree.putAt (place, name) new).contents =
      Function.update tree.contents (place ++ [name]) new.content? := by
  funext p
  by_cases hp : p = place ++ [name]
  · subst hp
    rw [Function.update_self, contents, putAt, get_put_self, Option.bind_some]
  · rw [Function.update_of_ne hp]
    rcases put_kept new hnew place name tree.root hplace hold p hp with h | ⟨e, e', he, he', -⟩
    · rw [contents, contents, putAt, h]
    · rw [contents, contents, putAt, he, he']
      rfl

theorem makeFolder_contents (tree made : FileTree) (path : Path)
    (h : tree.makeFolder path = .ok made) : made.contents = tree.contents := by
  obtain ⟨place, name, hs, -, hnothing, hold, rfl⟩ := makeFolder_site tree made path h
  obtain ⟨hplace, -⟩ := site_trail tree path place name hs
  have hempty : (Entry.folder []).content? = tree.contents (place ++ [name]) := by
    rw [contents, hnothing]
    rfl
  rw [contents_put tree place name _ folder_leaf hplace hold, hempty]
  exact Function.update_eq_self _ tree.contents

theorem makeFolders_contents (fuel : Nat) (tree made : FileTree) (path : Path)
    (h : makeFoldersFrom fuel tree path = .ok made) : made.contents = tree.contents := by
  refine makeFolders_steps (fun tree _ made => made.contents = tree.contents) ?_ ?_ ?_
    fuel tree made path h
  · intro tree path
    rfl
  · intro tree path above upper _ hup
    exact hup
  · intro tree path upper made hup hmade
    exact (makeFolder_contents upper made path hmade).trans hup

theorem writeFile_contents (tree written : FileTree) (path : Path) (content : Content)
    (h : tree.writeFile path content = .ok written) :
    written.contents = Function.update tree.contents (tree.target path) (some content) := by
  obtain ⟨place, name, htarget, -, hs, -, hold, rfl⟩ :=
    writeFile_site tree written path content h
  obtain ⟨hplace, -⟩ := site_trail tree path place name hs
  rw [htarget]
  exact contents_put tree place name (.file content) (file_leaf content) hplace hold

theorem start_here (tree tree' : FileTree) (path : Path) (h : tree'.here = tree.here) :
    tree'.start path = tree.start path := by
  rw [start, start, h]

theorem target_here (tree tree' : FileTree) (path : Path) (h : tree'.here = tree.here) :
    tree'.target path = tree.target path := by
  rw [target, target, start_here tree tree' path h]

theorem upper_same (tree upper : FileTree) (path : Path)
    (h : upper = tree ∨ ∃ above, Path.parent? path = some above ∧
      tree.makeFolders above = .ok upper) :
    upper.contents = tree.contents ∧ upper.here = tree.here := by
  rcases h with rfl | ⟨above, -, hm⟩
  · exact ⟨rfl, rfl⟩
  · have hgrown := makeFolders_grown _ tree upper above hm
    exact ⟨makeFolders_contents _ tree upper above hm, hgrown.here⟩

/-- Saving changes what one file holds. -/
theorem save_contents (tree saved : FileTree) (path : Path) (t : Text)
    (h : tree.save path t = .ok saved) :
    saved.contents = Function.update tree.contents (tree.target path) (some (.text t)) := by
  obtain ⟨upper, hup, hw⟩ := save_written tree saved path t h
  obtain ⟨hcontents, hhere⟩ := upper_same tree upper path hup
  rw [writeFile_contents upper saved path _ hw, hcontents, target_here tree upper path hhere]

/-- What is in a tree is in the other as well, a file as a file and a folder
as a folder. -/
structure Stands (tree tree' : FileTree) : Prop where
  here : tree'.here = tree.here
  kinds : ∀ p isFolder, tree.root.kind p = some isFolder → tree'.root.kind p = some isFolder

theorem stands_refl (tree : FileTree) : Stands tree tree := ⟨rfl, fun _ _ h => h⟩

theorem stands_trans (first second third : FileTree) (h : Stands first second)
    (h' : Stands second third) : Stands first third :=
  ⟨h'.here.trans h.here, fun p isFolder hp => h'.kinds p isFolder (h.kinds p isFolder hp)⟩

theorem kind_file (tree : FileTree) (p : List Text) :
    tree.root.kind p = some false ↔ (tree.contents p).isSome = true := by
  rw [kind, contents]
  cases tree.root.get? p with
  | none => simp
  | some entry => cases entry <;> simp [Entry.isFolder, Entry.content?]

theorem update_kept (files : List Text → Option Content) (place p : List Text) (content : Content)
    (h : (files p).isSome = true) :
    (Function.update files place (some content) p).isSome = true := by
  by_cases hp : p = place
  · rw [hp, Function.update_self]
    rfl
  · rw [Function.update_of_ne hp]
    exact h

theorem grown_stands (places : List (List Text)) (tree tree' : FileTree) (place : List Text)
    (content : Content) (hgrown : Grown places tree tree')
    (hcontents : tree'.contents = Function.update tree.contents place (some content)) :
    Stands tree tree' := by
  refine ⟨hgrown.here, ?_⟩
  intro p isFolder hp
  cases isFolder with
  | true => exact hgrown.folders p hp
  | false =>
    rw [kind_file] at hp ⊢
    rw [hcontents]
    exact update_kept tree.contents place p content hp

theorem save_stands (tree saved : FileTree) (path : Path) (t : Text)
    (h : tree.save path t = .ok saved) : Stands tree saved :=
  grown_stands _ tree saved _ _ (save_grown tree saved path t h) (save_contents tree saved path t h)

theorem walk_stands (tree tree' : FileTree) (hstands : Stands tree tree')
    (place parts p : List Text) (h : walk tree.root place parts = .ok p) :
    walk tree'.root place parts = .ok p := by
  induction parts generalizing place with
  | nil => exact h
  | cons part rest ih =>
    have hpass := walk_passable tree.root place part rest p h
    have hpass' : Passable tree'.root place part := by
      refine ⟨hstands.kinds place true hpass.1, hpass.2.imp_right (Or.imp_right ?_)⟩
      intro hfound
      obtain ⟨isFolder, hk⟩ := Option.isSome_iff_exists.mp hfound
      rw [hstands.kinds _ isFolder hk]
      rfl
    rw [walk_onward tree.root place part rest hpass] at h
    rw [walk_onward tree'.root place part rest hpass']
    exact ih (onward place part) h

theorem place_stands (tree tree' : FileTree) (hstands : Stands tree tree') (path : Path)
    (p : List Text) (h : tree.place path = .ok p) : tree'.place path = .ok p := by
  rw [place] at h ⊢
  split at h
  · cases h
  · rename_i hpath
    rw [if_neg hpath, start_here tree tree' path hstands.here]
    exact walk_stands tree tree' hstands _ _ p h

theorem read_contents (tree : FileTree) (path : Path) (p : List Text) (t : Text)
    (hplace : tree.place path = .ok p) (h : tree.contents p = some (.text t)) :
    tree.read path = .ok t := by
  rw [contents] at h
  cases hg : tree.root.get? p with
  | none =>
    rw [hg] at h
    cases h
  | some entry =>
    rw [hg] at h
    have hfind := find_place tree path p hplace
    rw [hg] at hfind
    cases entry with
    | folder entries => cases h
    | file content =>
      obtain rfl : content = .text t := Option.some.inj h
      rw [read, hfind]
      rfl

theorem writeFile_place (tree written : FileTree) (path : Path) (content : Content)
    (h : tree.writeFile path content = .ok written) :
    written.place path = .ok (tree.target path) := by
  have hstands := grown_stands _ tree written _ _ (writeFile_grown tree written path content h)
    (writeFile_contents tree written path content h)
  obtain ⟨place, name, htarget, hparts, hs, hdots, -, rfl⟩ :=
    writeFile_site tree written path content h
  obtain ⟨above, hnames, hwalk, hplace⟩ := site_names tree path place name hs
  have hpath : ¬ path.isEmpty = true := by
    intro hempty
    obtain rfl := List.isEmpty_iff.mp hempty
    simp [Path.names] at hnames
  have habove := walk_append _ _ above [name] place (walk_stands tree _ hstands _ above place hwalk)
  have hlast : Passable (tree.putAt (place, name) (.file content)).root place name := by
    refine ⟨hstands.kinds place true hplace, Or.inr (Or.inr ?_)⟩
    rw [kind, putAt, get_put_self]
    rfl
  obtain ⟨hdot, hdots⟩ := not_or.mp hdots
  rw [htarget, FileTree.place, if_neg hpath, start_here tree _ path hstands.here, hparts, hnames,
    habove, walk_onward _ place name [] hlast, walk, onward, if_neg hdot, if_neg hdots]

theorem save_place (tree saved : FileTree) (path : Path) (t : Text)
    (h : tree.save path t = .ok saved) : saved.place path = .ok (tree.target path) := by
  obtain ⟨upper, hup, hw⟩ := save_written tree saved path t h
  obtain ⟨-, hhere⟩ := upper_same tree upper path hup
  rw [← target_here tree upper path hhere]
  exact writeFile_place upper saved path _ hw

end FileTree

end ParameterManual
