import ParameterManual.Member.Table
import ParameterManual.Proofs.Text.Map

/-!
# Names of members

Every member of a table that is read from declarations is named by letters,
digits and underscores, and so is every member of a table layered of such.
-/

set_option autoImplicit false

namespace ParameterManual.MemberTable
open Member Source

def Named (table : MemberTable) : Prop :=
  ∀ name ∈ TextMap.keys table, name.all Text.isNameChar = true

theorem named_find (table : MemberTable) (h : table.Named) (name typeName : Text)
    (hf : TextMap.find? name table = some typeName) : name.all Text.isNameChar = true :=
  h name (List.mem_map.mpr ⟨(name, typeName), TextMap.mem_of_find? table name typeName hf, rfl⟩)

theorem named_insertAll (entries : List (Text × Text)) (table : MemberTable) (h : table.Named)
    (he : ∀ e ∈ entries, e.1.all Text.isNameChar = true) :
    Named (TextMap.insertAll entries table) := by
  induction entries generalizing table with
  | nil => exact h
  | cons e rest ih =>
    refine ih (TextMap.insert e.1 e.2 table) ?_ (fun own hm => he own (by simp [hm]))
    intro name hn
    rcases TextMap.keys_insert e.1 e.2 table name hn with rfl | hn
    · exact he e (by simp)
    · exact h name hn

theorem declared_named (line : Text) (d : Declaration) (h : Declaration.ofLine? line = some d) :
    d.name.all Text.isNameChar = true := by
  simp only [Declaration.ofLine?] at h
  split at h
  · split at h
    · split at h
      · rename_i hname
        rw [← Option.some.inj h]
        exact (Bool.and_eq_true_iff.mp hname).2
      · simp at h
    · simp at h
  · simp at h

theorem body_named (depth : Int) (lines : List Text) (d : Declaration)
    (h : d ∈ bodyDeclarations depth lines) : d.name.all Text.isNameChar = true := by
  induction lines generalizing depth with
  | nil => simp [bodyDeclarations] at h
  | cons line rest ih =>
    have hline (hd : d ∈ if depth = 1 then (Declaration.ofLine? line).toList else []) :
        d.name.all Text.isNameChar = true := by
      split at hd
      · exact declared_named line d (Option.mem_toList.mp hd)
      · simp at hd
    rw [bodyDeclarations] at h
    by_cases hclosed : depth + braceDelta line ≤ 0
    · rw [if_pos hclosed] at h
      exact hline h
    · rw [if_neg hclosed] at h
      rcases List.mem_append.mp h with h | h
      · exact hline h
      · exact ih _ h

theorem awaiting_named (lines : List Text) (d : Declaration)
    (h : d ∈ declarationsAwaitingBrace lines) : d.name.all Text.isNameChar = true := by
  induction lines with
  | nil => simp [declarationsAwaitingBrace] at h
  | cons line rest ih =>
    rw [declarationsAwaitingBrace] at h
    split at h
    · exact body_named _ rest d h
    · exact ih h

theorem declarations_named (className : Text) (lines : List Text) (d : Declaration)
    (h : d ∈ declarations className lines) : d.name.all Text.isNameChar = true := by
  induction lines with
  | nil => simp [declarations] at h
  | cons line rest ih =>
    rw [declarations] at h
    split at h
    · split at h
      · exact body_named 1 rest d h
      · exact awaiting_named rest d h
    · exact ih h

theorem scan_named (className content : Text) : (scan className content).Named := by
  refine named_insertAll _ [] (by simp [Named, TextMap.keys]) (fun e he => ?_)
  obtain ⟨d, hd, rfl⟩ := List.mem_map.mp he
  exact declarations_named className _ d hd

theorem framework_named : framework.Named :=
  named_insertAll _ [] (by simp [Named, TextMap.keys]) (by simp [Text.isNameChar]; decide)

theorem layered_named (own base : MemberTable) (ho : own.Named) (hb : base.Named) :
    (own.layeredOver base).Named :=
  named_insertAll own base hb (fun e he => ho e.1 (List.mem_map.mpr ⟨e, he, rfl⟩))

end ParameterManual.MemberTable
