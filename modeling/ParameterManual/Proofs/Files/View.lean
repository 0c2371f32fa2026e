import ParameterManual.Proofs.Files.Place

/-!
# What a path shows

Following a path passes places that its parts alone name. If two trees have
the same kinds of entries at these places, the path ends at the same place in
both, and if the sight of that place is the same, so is all that a read, a
listing or a test of the path gives.
-/

set_option autoImplicit false

namespace ParameterManual.FileTree
open Entry

def onward (place : List Text) (part : Text) : List Text :=
  if part = ['.'] then place else if part = ['.', '.'] then place.dropLast else place ++ [part]

def trailFrom : (place : List Text) → List Text → List (List Text)
  | place, [] => [place]
  | place, part :: rest => place :: trailFrom (onward place part) rest

def trail (tree : FileTree) (path : Path) : List (List Text) :=
  trailFrom (tree.start path) (Path.parts path)

def target (tree : FileTree) (path : Path) : List Text :=
  (Path.parts path).foldl onward (tree.start path)

theorem trail_head (place : List Text) (parts : List Text) : place ∈ trailFrom place parts := by
  cases parts <;> simp [trailFrom]

theorem trail_target (place : List Text) (parts : List Text) :
    parts.foldl onward place ∈ trailFrom place parts := by
  induction parts generalizing place with
  | nil => simp [trailFrom]
  | cons part rest ih => exact List.mem_cons_of_mem _ (ih _)

theorem trail_append (place : List Text) (parts others : List Text) (p : List Text) :
    p ∈ trailFrom place (parts ++ others) ↔
      p ∈ trailFrom place parts ∨ p ∈ trailFrom (parts.foldl onward place) others := by
  induction parts generalizing place with
  | nil =>
    refine ⟨Or.inr, ?_⟩
    rintro (h | h)
    · obtain rfl : p = place := by simpa [trailFrom] using h
      exact trail_head p others
    · exact h
  | cons part rest ih => simp [trailFrom, ih, or_assoc]

theorem child_kind (root : Entry) (place : List Text) (entries : List (Text × Entry))
    (h : root.get? place = some (.folder entries)) (part : Text) :
    (TextMap.find? part entries).isSome = (root.kind (place ++ [part])).isSome := by
  rw [kind, get_append, h]
  cases hf : TextMap.find? part entries <;> simp [get?, child?, hf]

theorem walk_kinds (root root' : Entry) (place parts : List Text)
    (h : ∀ p ∈ trailFrom place parts, root.kind p = root'.kind p) :
    walk root place parts = walk root' place parts := by
  induction parts generalizing place with
  | nil => rfl
  | cons part rest ih =>
    have hrest := ih (onward place part) (fun p hp => h p (List.mem_cons_of_mem _ hp))
    have hplace := h place (trail_head place (part :: rest))
    by_cases hf : root.kind place = some true
    · obtain ⟨entries, he⟩ := kind_folder root place hf
      obtain ⟨entries', he'⟩ := kind_folder root' place (hplace ▸ hf)
      rw [walk, walk, he, he']
      by_cases hdot : part = ['.']
      · simpa [hdot, onward] using hrest
      · by_cases hdots : part = ['.', '.']
        · simpa [hdots, onward] using hrest
        · simp only [onward, hdot, hdots, if_false] at hrest
          have hnext : root.kind (place ++ [part]) = root'.kind (place ++ [part]) := by
            refine h _ (List.mem_cons_of_mem _ ?_)
            rw [onward, if_neg hdot, if_neg hdots]
            exact trail_head _ rest
          simp only [hdot, hdots, if_false, child_kind root place entries he,
            child_kind root' place entries' he', hnext, hrest]
    · have hnone (r : Entry) (hr : r.kind place ≠ some true) :
          walk r place (part :: rest) = .error .notDirectory := by
        rw [walk]
        rw [kind] at hr
        cases hg : r.get? place with
        | none => rfl
        | some entry =>
          cases entry with
          | file content => rfl
          | folder entries => simp [hg, Entry.isFolder] at hr
      rw [hnone root hf, hnone root' (hplace ▸ hf)]

def Passable (root : Entry) (place : List Text) (part : Text) : Prop :=
  root.kind place = some true ∧
    (part = ['.'] ∨ part = ['.', '.'] ∨ (root.kind (place ++ [part])).isSome = true)

theorem walk_onward (root : Entry) (place : List Text) (part : Text) (rest : List Text)
    (h : Passable root place part) :
    walk root place (part :: rest) = walk root (onward place part) rest := by
  obtain ⟨hplace, hpart⟩ := h
  obtain ⟨entries, he⟩ := kind_folder root place hplace
  rw [walk, he, onward]
  by_cases hdot : part = ['.']
  · simp [hdot]
  · by_cases hdots : part = ['.', '.']
    · simp [hdots]
    · have hfound : (TextMap.find? part entries).isSome = true := by
        rw [child_kind root place entries he]
        simpa [hdot, hdots] using hpart
      simp [hdot, hdots, hfound]

theorem walk_passable (root : Entry) (place : List Text) (part : Text) (rest p : List Text)
    (h : walk root place (part :: rest) = .ok p) : Passable root place part := by
  rw [walk] at h
  split at h
  · rename_i entries he
    refine ⟨by rw [kind, he]; rfl, ?_⟩
    rw [← child_kind root place entries he]
    by_cases hfound : (TextMap.find? part entries).isSome = true
    · exact Or.inr (Or.inr hfound)
    · rw [if_neg hfound] at h
      by_cases hdot : part = ['.']
      · exact Or.inl hdot
      · by_cases hdots : part = ['.', '.']
        · exact Or.inr (Or.inl hdots)
        · rw [if_neg hdot, if_neg hdots] at h
          cases h
  · cases h

theorem walk_target (root : Entry) (place parts p : List Text)
    (h : walk root place parts = .ok p) : p = parts.foldl onward place := by
  induction parts generalizing place with
  | nil =>
    obtain rfl : place = p := by simpa [walk] using h
    rfl
  | cons part rest ih =>
    rw [walk_onward root place part rest (walk_passable root place part rest p h)] at h
    exact ih (onward place part) h

theorem walk_append (root : Entry) (place parts others p : List Text)
    (h : walk root place parts = .ok p) :
    walk root place (parts ++ others) = walk root p others := by
  induction parts generalizing place with
  | nil =>
    obtain rfl : place = p := Except.ok.inj h
    rfl
  | cons part rest ih =>
    have hpass := walk_passable root place part rest p h
    rw [walk_onward root place part rest hpass] at h
    rw [List.cons_append, walk_onward root place part _ hpass]
    exact ih (onward place part) h

/-- What a path shows. -/
def view (extension : Text) (tree : FileTree) (path : Path) : Except FileFault Sight :=
  sight extension <$> tree.find path

theorem find_place (tree : FileTree) (path : Path) (p : List Text)
    (h : tree.place path = .ok p) :
    tree.find path = (tree.root.get? p).elim (.error .notFound) .ok := by
  cases hg : tree.root.get? p <;> simp [find, h, hg, bind, Except.bind] <;> rfl

/-- What a path shows depends on the kinds of entries on its trail and on the
sight of the place it names. -/
theorem view_trail (extension : Text) (tree tree' : FileTree) (path : Path)
    (hhere : tree'.here = tree.here)
    (hkinds : ∀ p ∈ tree.trail path, tree'.root.kind p = tree.root.kind p)
    (hsight : (tree'.root.get? (tree.target path)).map (sight extension) =
      (tree.root.get? (tree.target path)).map (sight extension)) :
    view extension tree' path = view extension tree path := by
  have hplace : tree'.place path = tree.place path := by
    have hstart : tree'.start path = tree.start path := by
      rw [start, start, hhere]
    rw [place, place, hstart, walk_kinds tree'.root tree.root _ _ hkinds]
  rw [view, view]
  cases hw : tree.place path with
  | error fault =>
    rw [find, find, hplace, hw]
    rfl
  | ok p =>
    have hp : p = tree.target path := by
      rw [place] at hw
      split at hw
      · simp at hw
      · exact walk_target tree.root _ _ p hw
    subst hp
    have hshown (found : Option Entry) :
        sight extension <$> found.elim (.error .notFound) Except.ok =
          (found.map (sight extension)).elim (Except.error FileFault.notFound) .ok := by
      cases found <;> rfl
    rw [find_place tree path _ hw, find_place tree' path _ (hplace.trans hw), hshown, hshown,
      hsight]

theorem isFolder_view (extension : Text) (tree : FileTree) (path : Path) :
    tree.isFolder path = match view extension tree path with
      | .ok (.folder _) => true
      | _ => false := by
  rw [isFolder, view]
  cases tree.find path with
  | error fault => rfl
  | ok entry => cases entry <;> rfl

theorem isFile_view (extension : Text) (tree : FileTree) (path : Path) :
    tree.isFile path = match view extension tree path with
      | .ok (.file _) => true
      | _ => false := by
  rw [isFile, view]
  cases tree.find path with
  | error fault => rfl
  | ok entry => cases entry <;> rfl

theorem readText_view (extension : Text) (tree : FileTree) (path : Path) :
    tree.readText path = match view extension tree path with
      | .ok (.file (.text t)) => .ok t
      | .ok (.file (.binary _)) => .error (.file path .notUtf8)
      | .ok (.folder _) => .error (.file path .isDirectory)
      | .error fault => .error (.file path fault) := by
  rw [readText, read, view]
  cases tree.find path with
  | error fault => rfl
  | ok entry =>
    cases entry with
    | file content => cases content <;> rfl
    | folder entries => rfl

theorem names_view (extension : Text) (tree : FileTree) (folder : Path) :
    tree.namesWithExtension folder extension = match view extension tree folder with
      | .ok (.file _) => .ok []
      | .ok (.folder names) => .ok names
      | .error fault => .error (.file folder fault) := by
  rw [namesWithExtension, list, view]
  cases tree.find folder with
  | error fault => rfl
  | ok entry => cases entry <;> rfl

end ParameterManual.FileTree
