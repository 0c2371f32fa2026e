import ParameterManual.Proofs.Files.Path
import ParameterManual.Proofs.Files.View
import ParameterManual.Proofs.Outcome

/-!
# What saving changes

Saving a file puts leaves at places on the trail of its path that were no
folders before, and nowhere else. A path that does not look at any of these
places shows the same before and after.
-/

set_option autoImplicit false

namespace ParameterManual.FileTree
open Entry

/-- One of the given places, but not a folder yet. -/
def Fresh (places : List (List Text)) (tree : FileTree) (p : List Text) : Prop :=
  p ∈ places ∧ tree.root.kind p ≠ some true

/-- A tree that comes from another by putting leaves at fresh places. -/
structure Grown (places : List (List Text)) (tree tree' : FileTree) : Prop where
  here : tree'.here = tree.here
  folders : ∀ p, tree.root.kind p = some true → tree'.root.kind p = some true
  kinds : ∀ p, ¬ Fresh places tree p → tree'.root.kind p = tree.root.kind p
  sights : ∀ extension p, ¬ Fresh places tree p →
    (∀ name, Path.nameHasExtension extension name = true → ¬ Fresh places tree (p ++ [name])) →
    (tree'.root.get? p).map (sight extension) = (tree.root.get? p).map (sight extension)

theorem grown_refl (places : List (List Text)) (tree : FileTree) : Grown places tree tree :=
  ⟨rfl, fun _ h => h, fun _ _ => rfl, fun _ _ _ _ => rfl⟩

theorem grown_mono (places others : List (List Text)) (tree tree' : FileTree)
    (hsub : ∀ p ∈ places, p ∈ others) (h : Grown places tree tree') :
    Grown others tree tree' := by
  have hfresh (p : List Text) (hp : ¬ Fresh others tree p) : ¬ Fresh places tree p :=
    fun hf => hp ⟨hsub p hf.1, hf.2⟩
  exact ⟨h.here, h.folders, fun p hp => h.kinds p (hfresh p hp),
    fun extension p hp hn => h.sights extension p (hfresh p hp)
      (fun name he => hfresh _ (hn name he))⟩

theorem grown_trans (places : List (List Text)) (first second third : FileTree)
    (h : Grown places first second) (h' : Grown places second third) :
    Grown places first third := by
  have hfresh (p : List Text) (hp : ¬ Fresh places first p) : ¬ Fresh places second p :=
    fun hf => hp ⟨hf.1, fun hk => hf.2 (h.folders p hk)⟩
  refine ⟨h'.here.trans h.here, fun p hp => h'.folders p (h.folders p hp), ?_, ?_⟩
  · intro p hp
    exact (h'.kinds p (hfresh p hp)).trans (h.kinds p hp)
  · intro extension p hp hn
    exact (h'.sights extension p (hfresh p hp) (fun name he => hfresh _ (hn name he))).trans
      (h.sights extension p hp hn)

theorem grown_put (places : List (List Text)) (tree : FileTree) (place : List Text) (name : Text)
    (new : Entry) (hnew : IsLeaf new) (hplace : tree.root.kind place = some true)
    (hold : tree.root.kind (place ++ [name]) ≠ some true) (hmem : place ++ [name] ∈ places) :
    Grown places tree (tree.putAt (place, name) new) := by
  have hkind (p : List Text) (hp : p ≠ place ++ [name]) :=
    kind_put new hnew place name tree.root hplace hold p hp
  refine ⟨rfl, ?_, ?_, ?_⟩
  · intro p hp
    have hne : p ≠ place ++ [name] := by
      rintro rfl
      exact hold hp
    exact (hkind p hne).trans hp
  · intro p hp
    have hne : p ≠ place ++ [name] := by
      rintro rfl
      exact hp ⟨hmem, hold⟩
    exact hkind p hne
  · intro extension p hp hn
    have hne : p ≠ place ++ [name] := by
      rintro rfl
      exact hp ⟨hmem, hold⟩
    refine sight_put extension new hnew place name tree.root hplace hold p hne ?_
    rintro rfl
    by_cases he : Path.nameHasExtension extension name = true
    · exact absurd ⟨hmem, hold⟩ (hn name he)
    · exact Bool.eq_false_iff.mpr he

theorem mem_trail (tree : FileTree) (path : Path) (p : List Text) :
    p ∈ tree.trail path ↔ p ∈ trailFrom (tree.start path) (Path.names path) := by
  rw [trail, Path.parts, ← Path.names, trail_append]
  refine ⟨?_, Or.inl⟩
  rintro (h | h)
  · exact h
  · have hp : p = (Path.names path).foldl onward (tree.start path) := by
      split at h <;> simpa [trailFrom, onward] using h
    rw [hp]
    exact trail_target _ _

theorem trail_parent (tree : FileTree) (path above : Path) (h : Path.parent? path = some above)
    (p : List Text) (hp : p ∈ tree.trail above) : p ∈ tree.trail path := by
  obtain ⟨habsolute, rest, hrest⟩ := Path.parent_front path above h
  rw [mem_trail, start, habsolute] at hp
  rw [mem_trail, start, ← hrest, trail_append]
  exact Or.inl hp

theorem trail_here (tree tree' : FileTree) (path : Path) (h : tree'.here = tree.here) :
    tree'.trail path = tree.trail path := by
  rw [trail, trail, start, start, h]

theorem site_names (tree : FileTree) (path : Path) (place : List Text) (name : Text)
    (h : tree.site path = .ok (place, name)) :
    ∃ above, Path.names path = above ++ [name] ∧
      walk tree.root (tree.start path) above = .ok place ∧ tree.root.kind place = some true := by
  rw [site] at h
  cases hnames : (Path.names path).reverse with
  | nil =>
    rw [Path.names] at hnames
    rw [hnames] at h
    simp at h
  | cons last above =>
    have hlist : Path.names path = above.reverse ++ [last] := by
      simpa using congrArg List.reverse hnames
    rw [Path.names] at hnames
    rw [hnames] at h
    obtain ⟨reached, hw, h⟩ := bind_ok h
    cases hg : tree.root.get? reached with
    | none => simp [hg] at h
    | some entry =>
      cases entry with
      | file content => simp [hg] at h
      | folder entries =>
        rw [hg] at h
        obtain ⟨rfl, rfl⟩ : reached = place ∧ last = name := Prod.mk.inj (Except.ok.inj h)
        refine ⟨above.reverse, hlist, hw, ?_⟩
        rw [kind, hg]
        rfl

theorem site_trail (tree : FileTree) (path : Path) (place : List Text) (name : Text)
    (h : tree.site path = .ok (place, name)) :
    tree.root.kind place = some true ∧
      (¬ (name = ['.'] ∨ name = ['.', '.']) → place ++ [name] ∈ tree.trail path) := by
  obtain ⟨above, hnames, hw, hplace⟩ := site_names tree path place name h
  have hreached := walk_target _ _ _ _ hw
  refine ⟨hplace, fun hdots => ?_⟩
  rw [mem_trail, hnames, trail_append]
  refine Or.inr (List.mem_cons_of_mem _ ?_)
  obtain ⟨hdot, hdots⟩ := not_or.mp hdots
  rw [← hreached, onward, if_neg hdot, if_neg hdots]
  exact trail_head _ []

theorem entryAt_get (tree : FileTree) (place : List Text) (name : Text)
    (hdots : ¬ (name = ['.'] ∨ name = ['.', '.'])) :
    tree.entryAt (place, name) = tree.root.get? (place ++ [name]) := by
  rw [entryAt, if_neg hdots, get_append]
  congr 1
  funext entry
  simp only [get?]
  cases entry.child? name <;> rfl

theorem entryAt_new (tree : FileTree) (place : List Text) (name : Text)
    (h : ∀ entries, tree.entryAt (place, name) ≠ some (.folder entries)) :
    ¬ (name = ['.'] ∨ name = ['.', '.']) ∧ tree.root.kind (place ++ [name]) ≠ some true := by
  by_cases hdots : name = ['.'] ∨ name = ['.', '.']
  · exact absurd (if_pos hdots) (h [])
  · refine ⟨hdots, fun hk => ?_⟩
    obtain ⟨entries, he⟩ := kind_folder tree.root _ hk
    exact h entries ((entryAt_get tree place name hdots).trans he)

theorem writeFile_site (tree written : FileTree) (path : Path) (content : Content)
    (h : tree.writeFile path content = .ok written) :
    ∃ place name, tree.target path = place ++ [name] ∧ Path.parts path = Path.names path ∧
      tree.site path = .ok (place, name) ∧ ¬ (name = ['.'] ∨ name = ['.', '.']) ∧
      tree.root.kind (place ++ [name]) ≠ some true ∧
      written = tree.putAt (place, name) (.file content) := by
  rw [writeFile] at h
  obtain ⟨⟨place, name⟩, hs, h⟩ := bind_ok h
  split at h
  · cases h
  · rename_i hend
    have hnew : ∀ entries, tree.entryAt (place, name) ≠ some (.folder entries) := by
      intro entries he
      rw [he] at h
      cases h
    obtain ⟨hdots, hold⟩ := entryAt_new tree place name hnew
    obtain rfl : tree.putAt (place, name) (.file content) = written := by
      split at h
      · cases h
      · exact Except.ok.inj h
    have hparts : Path.parts path = Path.names path := by
      rw [Path.parts, if_neg hend, List.append_nil, Path.names]
    obtain ⟨above, hnames, hw, -⟩ := site_names tree path place name hs
    refine ⟨place, name, ?_, hparts, hs, hdots, hold, rfl⟩
    have hplace := walk_target tree.root (tree.start path) above place hw
    rw [target, hparts, hnames, List.foldl_append, ← hplace]
    obtain ⟨hdot, hdots⟩ := not_or.mp hdots
    rw [List.foldl_cons, List.foldl_nil, onward, if_neg hdot, if_neg hdots]

theorem makeFolder_site (tree made : FileTree) (path : Path)
    (h : tree.makeFolder path = .ok made) :
    ∃ place name, tree.site path = .ok (place, name) ∧
      ¬ (name = ['.'] ∨ name = ['.', '.']) ∧ tree.root.get? (place ++ [name]) = none ∧
      tree.root.kind (place ++ [name]) ≠ some true ∧
      made = tree.putAt (place, name) (.folder []) := by
  rw [makeFolder] at h
  split at h
  · cases h
  · obtain ⟨⟨place, name⟩, hs, h⟩ := bind_ok h
    cases he : tree.entryAt (place, name) with
    | some entry =>
      rw [he] at h
      cases h
    | none =>
      rw [he] at h
      obtain ⟨hdots, hold⟩ := entryAt_new tree place name (by simp [he])
      rw [entryAt_get tree place name hdots] at he
      exact ⟨place, name, hs, hdots, he, hold, (Except.ok.inj h).symm⟩

theorem writeFile_grown (tree tree' : FileTree) (path : Path) (content : Content)
    (h : tree.writeFile path content = .ok tree') : Grown (tree.trail path) tree tree' := by
  obtain ⟨place, name, -, -, hs, hdots, hold, rfl⟩ := writeFile_site tree tree' path content h
  obtain ⟨hplace, htrail⟩ := site_trail tree path place name hs
  exact grown_put _ tree place name _ (file_leaf content) hplace hold (htrail hdots)

theorem makeFolder_grown (tree tree' : FileTree) (path : Path)
    (h : tree.makeFolder path = .ok tree') : Grown (tree.trail path) tree tree' := by
  obtain ⟨place, name, hs, hdots, -, hold, rfl⟩ := makeFolder_site tree tree' path h
  obtain ⟨hplace, htrail⟩ := site_trail tree path place name hs
  exact grown_put _ tree place name _ folder_leaf hplace hold (htrail hdots)

/-- Missing folders are made from the top down, so what holds of a tree and
passes from the folder above to the folder below holds in the end. -/
theorem makeFolders_steps (R : FileTree → Path → FileTree → Prop)
    (hstay : ∀ tree path, R tree path tree)
    (habove : ∀ tree path above upper, Path.parent? path = some above → R tree above upper →
      R tree path upper)
    (hmake : ∀ tree path upper made, R tree path upper → upper.makeFolder path = .ok made →
      R tree path made)
    (fuel : Nat) (tree tree' : FileTree) (path : Path)
    (h : makeFoldersFrom fuel tree path = .ok tree') : R tree path tree' := by
  induction fuel generalizing path tree' with
  | zero =>
    obtain rfl := Except.ok.inj h
    exact hstay tree path
  | succ fuel ih =>
    rw [makeFoldersFrom] at h
    split at h
    · obtain rfl := Except.ok.inj h
      exact hstay tree path
    · split at h
      · rename_i made hmade
        obtain rfl := Except.ok.inj h
        exact hmake tree path tree _ (hstay tree path) hmade
      · rename_i above hmade hparent
        obtain ⟨upper, hup, h⟩ := bind_ok h
        have hupper := habove tree path above upper hparent (ih upper above hup)
        split at h
        · rename_i made hmade
          obtain rfl := Except.ok.inj h
          exact hmake tree path upper _ hupper hmade
        · split at h
          · obtain rfl := Except.ok.inj h
            exact hupper
          · cases h
      · split at h
        · obtain rfl := Except.ok.inj h
          exact hstay tree path
        · simp at h

theorem makeFolders_grown (fuel : Nat) (tree tree' : FileTree) (path : Path)
    (h : makeFoldersFrom fuel tree path = .ok tree') : Grown (tree.trail path) tree tree' := by
  refine makeFolders_steps (fun tree path made => Grown (tree.trail path) tree made) ?_ ?_ ?_
    fuel tree tree' path h
  · intro tree path
    exact grown_refl _ tree
  · intro tree path above upper hparent hup
    exact grown_mono _ _ tree upper (trail_parent tree path above hparent) hup
  · intro tree path upper made hup hmade
    have hlast := makeFolder_grown upper made path hmade
    rw [trail_here tree upper path hup.here] at hlast
    exact grown_trans _ tree upper made hup hlast

theorem save_written (tree tree' : FileTree) (path : Path) (t : Text)
    (h : tree.save path t = .ok tree') :
    ∃ upper, (upper = tree ∨
        ∃ above, Path.parent? path = some above ∧ tree.makeFolders above = .ok upper) ∧
      upper.writeFile path (.text t) = .ok tree' := by
  have hwritten (upper : FileTree)
      (hsaved : tree.save path t = (upper.writeFile path (.text t)).mapError (.file path)) :
      upper.writeFile path (.text t) = .ok tree' := by
    rw [hsaved] at h
    cases hw : upper.writeFile path (.text t) with
    | error fault =>
      rw [hw] at h
      cases h
    | ok written =>
      rw [hw] at h
      exact congrArg Except.ok (Except.ok.inj h)
  cases hp : Path.parent? path with
  | none =>
    refine ⟨tree, Or.inl rfl, hwritten tree ?_⟩
    rw [save, hp]
    cases hw : tree.writeFile path (.text t) <;> simp [hw] <;> rfl
  | some above =>
    by_cases hholds : tree.holds above = true
    · refine ⟨tree, Or.inl rfl, hwritten tree ?_⟩
      rw [save, hp]
      cases hw : tree.writeFile path (.text t) <;> simp [hholds, hw] <;> rfl
    · cases hm : tree.makeFolders above with
      | error fault => simp [save, hp, hholds, hm, bind, Except.bind] at h
      | ok upper =>
        refine ⟨upper, Or.inr ⟨above, rfl, hm⟩, hwritten upper ?_⟩
        rw [save, hp]
        cases hw : upper.writeFile path (.text t) <;> simp [hholds, hm, hw] <;> rfl

/-- A saved file lies on the trail of its path, and so do the folders that
were made for it. -/
theorem save_grown (tree tree' : FileTree) (path : Path) (t : Text)
    (h : tree.save path t = .ok tree') : Grown (tree.trail path) tree tree' := by
  obtain ⟨upper, hup, hw⟩ := save_written tree tree' path t h
  have hgrown : Grown (tree.trail path) tree upper := by
    rcases hup with rfl | ⟨above, hp, hm⟩
    · exact grown_refl _ upper
    · exact grown_mono _ _ tree upper (trail_parent tree path above hp)
        (makeFolders_grown _ tree upper above hm)
  have hlast := writeFile_grown upper tree' path (.text t) hw
  rw [trail_here tree upper path hgrown.here] at hlast
  exact grown_trans _ tree upper tree' hgrown hlast

/-- A path looks at the places on its trail and, if it names a folder, at the
names in it that carry an extension. -/
def LooksAt (extension : Text) (tree : FileTree) (path : Path) (p : List Text) : Prop :=
  p ∈ tree.trail path ∨
    (p.dropLast = tree.target path ∧
      p.getLast?.any (Path.nameHasExtension extension) = true)

instance (extension : Text) (tree : FileTree) (path : Path) :
    DecidablePred (LooksAt extension tree path) := fun p =>
  inferInstanceAs (Decidable (p ∈ tree.trail path ∨ (p.dropLast = tree.target path ∧
    p.getLast?.any (Path.nameHasExtension extension) = true)))

/-- A path that looks at no fresh place shows the same in the grown tree. -/
theorem grown_view (extension : Text) (places : List (List Text)) (tree tree' : FileTree)
    (h : Grown places tree tree') (path : Path)
    (hapart : ∀ p, Fresh places tree p → ¬ LooksAt extension tree path p) :
    view extension tree' path = view extension tree path := by
  have htrail (p : List Text) (hp : p ∈ tree.trail path) : ¬ Fresh places tree p :=
    fun hf => hapart p hf (Or.inl hp)
  have htarget : tree.target path ∈ tree.trail path := trail_target _ _
  refine view_trail extension tree tree' path h.here (fun p hp => h.kinds p (htrail p hp)) ?_
  refine h.sights extension _ (htrail _ htarget) (fun name he hf => ?_)
  exact hapart _ hf (Or.inr ⟨by simp, by simpa using he⟩)

end ParameterManual.FileTree
