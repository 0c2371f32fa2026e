import ParameterManual.Proofs.Files.Contents
import ParameterManual.Proofs.Files.SourcePair

/-!
# Names on disk

The names of files and folders have no slash. Saving adds no other names, a
pair has such a name, and files of different names in one folder are at
different places.
-/

set_option autoImplicit false

namespace ParameterManual

namespace Entry

mutual

def isPlain : Entry → Bool
  | file _ => true
  | folder entries => arePlain entries
termination_by structural entry => entry

def arePlain : List (Text × Entry) → Bool
  | [] => true
  | (name, entry) :: rest => !name.contains '/' && entry.isPlain && arePlain rest
termination_by structural entries => entries

end

theorem plain_found (entries : List (Text × Entry)) (h : arePlain entries = true) (name : Text)
    (entry : Entry) (hfind : TextMap.find? name entries = some entry) :
    '/' ∉ name ∧ entry.isPlain = true := by
  induction entries with
  | nil => cases hfind
  | cons e rest ih =>
    obtain ⟨first, own⟩ := e
    simp only [arePlain, Bool.and_eq_true, Bool.not_eq_true', List.contains_eq_mem,
      decide_eq_false_iff_not] at h
    rw [TextMap.find?] at hfind
    split at hfind
    · rename_i hname
      obtain rfl := Option.some.inj hfind
      rw [← hname]
      exact h.1
    · exact ih h.2 hfind

theorem plain_names (root : Entry) (h : root.isPlain = true) (p : List Text)
    (hp : (root.kind p).isSome = true) : ∀ name ∈ p, '/' ∉ name := by
  induction p generalizing root with
  | nil => simp
  | cons first rest ih =>
    cases root with
    | file content => cases hp
    | folder entries =>
      rw [kind, get?] at hp
      cases hfind : (folder entries).child? first with
      | none =>
        rw [hfind] at hp
        cases hp
      | some entry =>
        rw [hfind] at hp
        rw [isPlain] at h
        obtain ⟨hfirst, hentry⟩ := plain_found entries h first entry hfind
        intro name hname
        rcases List.mem_cons.mp hname with rfl | hname
        · exact hfirst
        · exact ih entry hentry hp name hname

end Entry

namespace FileTree
open Entry

/-- No name on disk has a slash. -/
structure Named (tree : FileTree) : Prop where
  here : ∀ name ∈ tree.here, '/' ∉ name
  places : ∀ p, (tree.root.kind p).isSome = true → ∀ name ∈ p, '/' ∉ name

theorem named_plain (root : Entry) (h : root.isPlain = true) : Named ⟨root, []⟩ :=
  ⟨by simp, plain_names root h⟩

theorem onward_names (place : List Text) (part : Text) (hplace : ∀ name ∈ place, '/' ∉ name)
    (hpart : '/' ∉ part) : ∀ name ∈ onward place part, '/' ∉ name := by
  intro name hname
  rw [onward] at hname
  split at hname
  · exact hplace name hname
  · split at hname
    · exact hplace name (List.dropLast_subset place hname)
    · rcases List.mem_append.mp hname with hname | hname
      · exact hplace name hname
      · rw [List.mem_singleton.mp hname]
        exact hpart

theorem trailFrom_names (place parts : List Text) (hplace : ∀ name ∈ place, '/' ∉ name)
    (hparts : ∀ part ∈ parts, '/' ∉ part) (p : List Text) (hp : p ∈ trailFrom place parts) :
    ∀ name ∈ p, '/' ∉ name := by
  induction parts generalizing place with
  | nil =>
    rw [List.mem_singleton.mp hp]
    exact hplace
  | cons part rest ih =>
    rcases List.mem_cons.mp hp with rfl | hp
    · exact hplace
    · apply ih (onward place part) _ _ hp
      · exact onward_names place part hplace (hparts part (by simp))
      · intro other hother
        exact hparts other (List.mem_cons_of_mem part hother)

theorem trail_names (tree : FileTree) (hnamed : Named tree) (path : Path) (p : List Text)
    (hp : p ∈ tree.trail path) : ∀ name ∈ p, '/' ∉ name := by
  rw [mem_trail] at hp
  apply trailFrom_names _ _ _ _ p hp
  · rw [start]
    split
    · simp
    · exact hnamed.here
  · intro part hpart
    exact Path.pieces_pure path part (List.mem_filter.mp hpart).1

theorem save_named (tree : FileTree) (path : Path) (t : Text) (saved : FileTree)
    (hnamed : Named tree) (h : tree.save path t = .ok saved) : Named saved := by
  have hgrown := save_grown tree saved path t h
  constructor
  · rw [hgrown.here]
    exact hnamed.here
  · intro p hp
    by_cases hfresh : Fresh (tree.trail path) tree p
    · exact trail_names tree hnamed path p hfresh.1
    · rw [hgrown.kinds p hfresh] at hp
      exact hnamed.places p hp

theorem listed_names (tree : FileTree) (hnamed : Named tree) (folder : Path) (extension : Text)
    (names : List Text) (h : tree.namesWithExtension folder extension = .ok names) (name : Text)
    (hname : name ∈ names) : '/' ∉ name := by
  rw [names_view, view] at h
  cases hplace : tree.place folder with
  | error fault =>
    rw [find, hplace] at h
    cases h
  | ok p =>
    rw [find_place tree folder p hplace] at h
    cases hg : tree.root.get? p with
    | none =>
      rw [hg] at h
      cases h
    | some entry =>
      rw [hg] at h
      cases entry with
      | file content =>
        obtain rfl := Except.ok.inj h
        cases hname
      | folder entries =>
        obtain rfl := Except.ok.inj h
        have hkey := (TextMap.mem_keysWhere _ entries name).mp hname
        have hkind : (tree.root.kind (p ++ [name])).isSome = true := by
          rw [← child_kind tree.root p entries hg]
          cases hfind : TextMap.find? name entries with
          | none => simp [hfind] at hkey
          | some found => rfl
        exact hnamed.places _ hkind name (by simp)

theorem target_join (tree : FileTree) (folder : Path) (file : Text) (hfile : '/' ∉ file)
    (hne : file ≠ []) (hdots : file ≠ ['.'] ∧ file ≠ ['.', '.']) :
    tree.target (Path.join folder file) = tree.target folder ++ [file] := by
  obtain ⟨habsolute, hparts⟩ := Path.join_file folder file hfile hne
  have hfolder : tree.target folder = (Path.names folder).foldl onward (tree.start folder) := by
    rw [target, Path.parts, List.foldl_append, ← Path.names]
    split <;> rfl
  rw [hfolder, target, start, habsolute, hparts, List.foldl_append, ← start]
  change onward _ file = _
  rw [onward, if_neg hdots.1, if_neg hdots.2]

end FileTree

namespace SourcePair
open FileTree

theorem stem_names (header : Text) (h : '/' ∉ header) : '/' ∉ stem header := by
  intro hslash
  apply h
  rw [stem, Path.cutExtension] at hslash
  split at hslash
  · exact hslash
  · have hmem := List.mem_of_mem_tail (List.mem_reverse.mp hslash)
    exact List.mem_reverse.mp ((List.dropWhile_sublist _).subset hmem)

theorem shortest_mem (headers : List Text) (header : Text) (h : shortest? headers = some header) :
    header ∈ headers := by
  induction headers generalizing header with
  | nil => cases h
  | cons first rest ih =>
    rw [shortest?] at h
    cases hbest : shortest? rest with
    | none =>
      rw [hbest] at h
      obtain rfl := Option.some.inj h
      simp
    | some best =>
      rw [hbest] at h
      obtain rfl := Option.some.inj h
      split
      · exact List.mem_cons_of_mem first (ih best hbest)
      · simp

theorem baseHeader_mem (category : Text) (base : Option Text) (headers : List Text)
    (header : Text) (h : baseHeader? category base headers = some header) : header ∈ headers := by
  cases base with
  | some name => exact List.mem_of_find?_eq_some h
  | none => exact (List.mem_filter.mp (shortest_mem _ header h)).1

theorem findBase_named (extensions : Extensions) (tree : FileTree) (hnamed : Named tree)
    (folder : Path) (category : Text) (base : Option Text) (pair : SourcePair)
    (h : findBase tree extensions folder category base = .ok pair) : '/' ∉ pair.name := by
  obtain ⟨header, hchoice, hpair⟩ := findBase_pair extensions tree folder category base pair h
  obtain ⟨hname, -⟩ := ofHeader_pair extensions tree folder header pair hpair
  rw [hname]
  apply stem_names
  rw [baseChoice?] at hchoice
  split at hchoice
  · rename_i headers hheaders
    exact listed_names tree hnamed folder extensions.header headers hheaders header
      (baseHeader_mem category base headers header hchoice)
  · cases hchoice

end SourcePair

end ParameterManual
