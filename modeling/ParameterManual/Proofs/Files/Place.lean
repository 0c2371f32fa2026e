import ParameterManual.Files.Tree
import ParameterManual.Proofs.Text.Map

/-!
# Places in a file tree

A path leads through places. Which of them are folders decides where it ends,
and all that a read or a listing learns there is the sight of that place. A
leaf put at a place is seen there, and in the names of the folder above.
-/

set_option autoImplicit false

namespace ParameterManual

/-- What can be learnt at a place without going on: the content of a file, or
the names of the files in a folder that carry an extension. -/
inductive Sight where
  | file (content : Content)
  | folder (names : List Text)
  deriving DecidableEq

namespace Entry

def sight (extension : Text) : Entry → Sight
  | file content => .file content
  | folder entries => .folder (TextMap.keysWhere
      (fun name e => !e.isFolder && Path.nameHasExtension extension name) entries)

def kind (root : Entry) (place : List Text) : Option Bool := (root.get? place).map isFolder

def IsLeaf (entry : Entry) : Prop := ∀ name rest, entry.get? (name :: rest) = none

theorem file_leaf (content : Content) : IsLeaf (file content) := fun _ _ => rfl

theorem folder_leaf : IsLeaf (folder []) := fun _ _ => rfl

theorem get_append (root : Entry) (place rest : List Text) :
    root.get? (place ++ rest) = (root.get? place).bind (get? · rest) := by
  induction place generalizing root with
  | nil => rfl
  | cons name place ih =>
    rw [List.cons_append, get?, get?]
    cases root.child? name with
    | none => rfl
    | some child => exact ih child

theorem kind_folder (root : Entry) (place : List Text) (h : root.kind place = some true) :
    ∃ entries, root.get? place = some (folder entries) := by
  rw [kind] at h
  cases hg : root.get? place with
  | none => simp [hg] at h
  | some entry =>
    cases entry with
    | file content => simp [hg, isFolder] at h
    | folder entries => exact ⟨entries, rfl⟩

theorem get_below (root : Entry) (place : List Text) (name : Text) (rest : List Text)
    (h : root.kind place ≠ some true) : root.get? (place ++ name :: rest) = none := by
  rw [get_append]
  rw [kind] at h
  cases hg : root.get? place with
  | none => rfl
  | some entry =>
    cases entry with
    | file content => rfl
    | folder entries => simp [hg, isFolder] at h

theorem put_folder (new : Entry) (name : Text) (rest : List Text) (root : Entry) :
    ∃ entries, put new (name :: rest) root = folder entries := by
  cases root with
  | file content => exact ⟨_, rfl⟩
  | folder entries => exact ⟨_, rfl⟩

/-- A place keeps its entry when one entry is put at a site, or it is a folder
before and after and its other entries keep their kind. -/
def KeptAt (site p : List Text) (before after : Entry) : Prop :=
  after.get? p = before.get? p ∨
    ∃ entries entries', before.get? p = some (folder entries) ∧
      after.get? p = some (folder entries') ∧
      ∀ k, p ++ [k] ≠ site →
        (TextMap.find? k entries').map isFolder = (TextMap.find? k entries).map isFolder

theorem leaf_kept (new : Entry) (hnew : IsLeaf new) (name : Text) (entries : List (Text × Entry))
    (hold : (folder entries).kind [name] ≠ some true) (p : List Text) (hp : p ≠ [name]) :
    KeptAt [name] p (folder entries) (folder (TextMap.insert name new entries)) := by
  cases p with
  | nil =>
    refine Or.inr ⟨entries, TextMap.insert name new entries, rfl, rfl, fun k hk => ?_⟩
    have hne : k ≠ name := by simpa using hk
    rw [TextMap.find?_insert_of_ne hne]
  | cons n rest =>
    left
    change (TextMap.find? n (TextMap.insert name new entries)).bind (get? · rest) =
      (folder entries).get? (n :: rest)
    by_cases hn : n = name
    · subst hn
      cases rest with
      | nil => exact absurd rfl hp
      | cons m rest =>
        rw [TextMap.find?_insert_self]
        exact (hnew m rest).trans (get_below (folder entries) [n] m rest hold).symm
    · rw [TextMap.find?_insert_of_ne hn]
      rfl

theorem inside_kept (a : Text) (sub after : Entry) (entries : List (Text × Entry))
    (site : List Text) (hsub : TextMap.find? a entries = some sub) (hf : sub.isFolder = true)
    (hf' : after.isFolder = true) (hkept : ∀ q, q ≠ site → KeptAt site q sub after)
    (p : List Text) (hp : p ≠ a :: site) :
    KeptAt (a :: site) p (folder entries) (folder (TextMap.insert a after entries)) := by
  cases p with
  | nil =>
    refine Or.inr ⟨entries, TextMap.insert a after entries, rfl, rfl, fun k _ => ?_⟩
    by_cases hk : k = a
    · subst hk
      rw [TextMap.find?_insert_self, hsub, Option.map_some, Option.map_some, hf, hf']
    · rw [TextMap.find?_insert_of_ne hk]
  | cons n rest =>
    by_cases hn : n = a
    · subst hn
      have hbefore : (folder entries).get? (n :: rest) = sub.get? rest := by
        simp [get?, child?, hsub]
      have hafter : (folder (TextMap.insert n after entries)).get? (n :: rest) =
          after.get? rest := by
        simp [get?, child?, TextMap.find?_insert_self]
      have hrest : rest ≠ site := fun he => hp (by rw [he])
      rw [KeptAt, hbefore, hafter]
      refine (hkept rest hrest).imp_right ?_
      rintro ⟨old, fresh, hold, hfresh, hkinds⟩
      exact ⟨old, fresh, hold, hfresh, fun k hk => hkinds k (by simpa using hk)⟩
    · left
      change (TextMap.find? n (TextMap.insert a after entries)).bind (get? · rest) =
        (folder entries).get? (n :: rest)
      rw [TextMap.find?_insert_of_ne hn]
      rfl

/-- Where a leaf is put in a folder, every other place is kept. -/
theorem put_kept (new : Entry) (hnew : IsLeaf new) (place : List Text) (name : Text)
    (root : Entry) (hplace : root.kind place = some true)
    (hold : root.kind (place ++ [name]) ≠ some true) (p : List Text) (hp : p ≠ place ++ [name]) :
    KeptAt (place ++ [name]) p root (put new (place ++ [name]) root) := by
  induction place generalizing root p with
  | nil =>
    obtain ⟨entries, hroot⟩ := kind_folder root [] hplace
    obtain rfl : root = folder entries := by simpa [get?] using hroot
    exact leaf_kept new hnew name entries hold p hp
  | cons a place ih =>
    obtain ⟨entries, rfl⟩ : ∃ entries, root = folder entries := by
      cases root with
      | file content => simp [kind, get?, child?] at hplace
      | folder entries => exact ⟨entries, rfl⟩
    obtain ⟨sub, hsub⟩ : ∃ sub, TextMap.find? a entries = some sub := by
      cases hf : TextMap.find? a entries with
      | none => simp [kind, get?, child?, hf] at hplace
      | some sub => exact ⟨sub, rfl⟩
    have hbelow (q : List Text) : (folder entries).kind (a :: q) = sub.kind q := by
      simp [kind, get?, child?, hsub]
    rw [hbelow] at hplace
    rw [List.cons_append, hbelow] at hold
    have hf : sub.isFolder = true := by
      cases sub with
      | file content => cases place <;> simp [kind, get?, child?, isFolder] at hplace
      | folder own => rfl
    have hf' : (put new (place ++ [name]) sub).isFolder = true := by
      cases place with
      | nil =>
        obtain ⟨own, ho⟩ := put_folder new name [] sub
        exact congrArg isFolder ho
      | cons b place =>
        obtain ⟨own, ho⟩ := put_folder new b (place ++ [name]) sub
        exact congrArg isFolder ho
    have hput : put new (a :: place ++ [name]) (folder entries) =
        folder (TextMap.insert a (put new (place ++ [name]) sub) entries) := by
      rw [List.cons_append, put, hsub, Option.getD_some]
    rw [hput]
    exact inside_kept a sub _ entries (place ++ [name]) hsub hf hf'
      (fun q hq => ih sub hplace hold q hq) p hp

theorem get_put_self (new : Entry) (place : List Text) (root : Entry) :
    (put new place root).get? place = some new := by
  induction place generalizing root with
  | nil => rfl
  | cons name rest ih =>
    cases root with
    | file content => simp [put, get?, child?, TextMap.find?, ih]
    | folder entries => simp [put, get?, child?, TextMap.find?_insert_self, ih]

theorem kind_put (new : Entry) (hnew : IsLeaf new) (place : List Text) (name : Text)
    (root : Entry) (hplace : root.kind place = some true)
    (hold : root.kind (place ++ [name]) ≠ some true) (p : List Text) (hp : p ≠ place ++ [name]) :
    (put new (place ++ [name]) root).kind p = root.kind p := by
  rcases put_kept new hnew place name root hplace hold p hp with h | ⟨e, e', h, h', -⟩
  · rw [kind, kind, h]
  · rw [kind, kind, h, h']
    rfl

theorem sight_put (extension : Text) (new : Entry) (hnew : IsLeaf new) (place : List Text)
    (name : Text) (root : Entry) (hplace : root.kind place = some true)
    (hold : root.kind (place ++ [name]) ≠ some true) (p : List Text) (hp : p ≠ place ++ [name])
    (hname : p = place → Path.nameHasExtension extension name = false) :
    ((put new (place ++ [name]) root).get? p).map (sight extension) =
      (root.get? p).map (sight extension) := by
  rcases put_kept new hnew place name root hplace hold p hp with h | ⟨e, e', h, h', hkinds⟩
  · rw [h]
  · rw [h, h', Option.map_some, Option.map_some, sight, sight]
    refine congrArg (some ∘ Sight.folder) (TextMap.keysWhere_ext _ e' e (fun k => ?_))
    by_cases hk : p ++ [k] = place ++ [name]
    · obtain ⟨hfront, hlast⟩ := List.append_inj' hk rfl
      obtain rfl : k = name := by simpa using hlast
      cases TextMap.find? k e <;> cases TextMap.find? k e' <;> simp [hname hfront]
    · have hsame := hkinds k hk
      cases hfind : TextMap.find? k e <;> cases hfind' : TextMap.find? k e' <;>
        simp [hfind, hfind'] at hsame ⊢
      rw [hsame]

end Entry

end ParameterManual
