import ParameterManual.Text.Basic

/-!
# Maps keyed by text

A finite map is a list of entries in increasing order of their keys, the
order of code points. Insertion replaces the value of a key that is present.
-/

set_option autoImplicit false

namespace ParameterManual

abbrev TextMap (α : Type) := List (Text × α)

namespace TextMap

variable {α : Type}

def find? (key : Text) : TextMap α → Option α
  | [] => none
  | (k, a) :: m => if k = key then some a else find? key m

def insert (key : Text) (value : α) : TextMap α → TextMap α
  | [] => [(key, value)]
  | (k, a) :: m =>
    if key = k then (key, value) :: m
    else if key < k then (key, value) :: (k, a) :: m
    else (k, a) :: insert key value m

def insertAll (entries : List (Text × α)) (m : TextMap α) : TextMap α :=
  entries.foldl (fun m e => insert e.1 e.2 m) m

def ofEntries (entries : List (Text × α)) : TextMap α := insertAll entries []

def keys (m : TextMap α) : List Text := m.map Prod.fst

def values (m : TextMap α) : List α := m.map Prod.snd

def mapValue (f : α → α) (key : Text) (m : TextMap α) : TextMap α :=
  m.map (fun e => if e.1 = key then (e.1, f e.2) else e)

def Sorted (m : TextMap α) : Prop := m.keys.Pairwise (· < ·)

theorem find?_insert_self (key : Text) (value : α) (m : TextMap α) :
    find? key (insert key value m) = some value := by
  induction m with
  | nil => simp [insert, find?]
  | cons e m ih =>
    obtain ⟨k, a⟩ := e
    unfold insert
    split
    · simp [find?]
    · split
      · simp [find?]
      · rename_i h _
        simp [find?, Ne.symm h, ih]

theorem find?_insert_of_ne {key other : Text} (h : other ≠ key) (value : α) (m : TextMap α) :
    find? other (insert key value m) = find? other m := by
  induction m with
  | nil => simp [insert, find?, Ne.symm h]
  | cons e m ih =>
    obtain ⟨k, a⟩ := e
    unfold insert
    split
    · rename_i hk
      subst hk
      simp [find?, Ne.symm h]
    · split
      · simp [find?, Ne.symm h]
      · simp [find?, ih]

end TextMap

end ParameterManual
