import ParameterManual.Constructor.Extraction
import ParameterManual.Proofs.Constructor.Ranges
import ParameterManual.Proofs.Source.Breaking
import ParameterManual.Proofs.Statement.Starts

/-!
# No collected statement is passed over

A statement is collected because its first line begins like one, and it is
read from its joined lines without blanks and terminators around them. Both go
by the same leads, so what is collected is read as a statement, or the
extraction fails.
-/

set_option autoImplicit false

namespace ParameterManual.Constructor
open Source

theorem occupies_starts (file : Text) (lines : List Text) (s : Collected) (count : Nat)
    (h : Occupies file lines s count) : Statement.isStart s.text = true := by
  obtain ⟨line, hline, hstart⟩ := h.starts
  obtain ⟨hbound, rfl⟩ := List.getElem?_eq_some_iff.mp hline
  obtain ⟨more, hmore⟩ := Nat.exists_eq_succ_of_ne_zero h.spans.count_pos.ne'
  obtain ⟨rest, hrest, -⟩ := joined_front lines[s.location.line - 1]
    ((lines.drop (s.location.line - 1 + 1)).take more)
  rw [h.spans.text, hmore, List.drop_eq_getElem_cons hbound, List.take_succ_cons, hrest]
  exact Statement.start_append _ rest hstart

theorem collected_recognized (className file content : Text) (list : List Collected)
    (h : collect className file content = .ok (some list)) (c : Collected) (hc : c ∈ list) :
    Statement.parse c.text ≠ .ok none := by
  obtain ⟨count, hoccupies⟩ := collected_occupies className file content list h c hc
  have hstart := Statement.start_trim c.text (occupies_starts file _ c count hoccupies)
  intro hnone
  rw [Statement.parse_none_iff, hstart] at hnone
  cases hnone

section extraction
variable (scope : Scope)

theorem extract_collected (file content : Text) (list : List Collected)
    (h : collect scope.className file content = .ok (some list)) :
    extract scope file content = applyAll scope list := by
  rw [extract, h]
  rfl

/-- A text that is refused when it is read ends the extraction, unless what
stands before it does. -/
theorem unread_refused (front back : List Collected) (c : Collected) (what : Malformation)
    (h : Statement.parse c.text = .error what) :
    ∃ f, applyAll scope (front ++ c :: back) = .error f ∧
      (applyAll scope front = .error f ∨ f = .malformed what c.location) := by
  have hsplit : applyAll scope (front ++ c :: back) =
      applyAll scope front >>= fun own => (c :: back).foldlM (applyCollected scope) own :=
    List.foldlM_append
  rw [hsplit]
  cases applyAll scope front with
  | error f => exact ⟨f, rfl, Or.inl rfl⟩
  | ok own =>
    refine ⟨.malformed what c.location, ?_, Or.inr rfl⟩
    change (c :: back).foldlM (applyCollected scope) own = _
    rw [List.foldlM_cons, applyCollected, h]
    rfl

/-- One step of an extraction, with another way to treat a text that is read
as no statement. -/
def applyOrElse (otherwise : List Variable → Collected → Except Failure (List Variable))
    (own : List Variable) (c : Collected) : Except Failure (List Variable) :=
  match Statement.parse c.text with
  | .ok none => otherwise own c
  | _ => applyCollected scope own c

theorem applyOrElse_read (otherwise : List Variable → Collected → Except Failure (List Variable))
    (own : List Variable) (c : Collected) (h : Statement.parse c.text ≠ .ok none) :
    applyOrElse scope otherwise own c = applyCollected scope own c := by
  rw [applyOrElse]
  split
  · rename_i hnone
    exact absurd hnone h
  · rfl

end extraction

/-- A text is read as no statement exactly if, trimmed, it does not begin like
one. So each statement that is collected from a file is read, or the
extraction fails, for what is wrong with it or for a statement before it.
However a text that is no statement were treated, the extraction would come to
the same. -/
theorem recognizers_agree :
    (∀ t : Text, Statement.parse t = .ok none ↔ Statement.isStart t.trim = false) ∧
    ∀ (scope : Scope) (file content : Text) (list : List Collected),
      collect scope.className file content = .ok (some list) →
      (∀ (front back : List Collected) (c : Collected), list = front ++ c :: back →
        (∃ s, Statement.parse c.text = .ok (some s)) ∨
        ∃ what f, Statement.parse c.text = .error what ∧ extract scope file content = .error f ∧
          (applyAll scope front = .error f ∨ f = .malformed what c.location)) ∧
      ∀ otherwise, extract scope file content = list.foldlM (applyOrElse scope otherwise) [] := by
  refine ⟨Statement.parse_none_iff, ?_⟩
  intro scope file content list h
  have hread := collected_recognized scope.className file content list h
  rw [extract_collected scope file content list h]
  constructor
  · rintro front back c rfl
    cases hparse : Statement.parse c.text with
    | error what =>
      obtain ⟨f, hf, hcause⟩ := unread_refused scope front back c what hparse
      exact Or.inr ⟨what, f, rfl, hf, hcause⟩
    | ok found =>
      cases found with
      | none => exact absurd hparse (hread c (by simp))
      | some s => exact Or.inl ⟨s, rfl⟩
  · intro otherwise
    apply foldlM_congr
    intro c hc own
    exact (applyOrElse_read scope otherwise own c (hread c hc)).symm

def namedScope : Scope where
  className := "A".toList
  translations := TranslationTable.withPrefix "PARAM".toList
  members := []
  inherited := []

def unclosedType : Text :=
  "A::A() \x7b\n  RegisterAsEstimable(&a_);\n  parameters_.Bind<Double(PARAM_B,\n    &b_);;\n\x7d\n".toList

def soleRegistration : Collected := ⟨"RegisterAsEstimable(&a_);".toList, ⟨"A.cpp".toList, 2⟩⟩

def unclosedBind : Collected :=
  ⟨"parameters_.Bind<Double(PARAM_B, &b_);;".toList, ⟨"A.cpp".toList, 3⟩⟩

theorem recognizers_agree_unclosed :
    collect "A".toList "A.cpp".toList unclosedType =
      .ok (some [soleRegistration, unclosedBind]) ∧
    Statement.parse unclosedBind.text = .error .unterminatedTemplate ∧
    (∃ f, extract namedScope "A.cpp".toList unclosedType = .error f ∧
      (applyAll namedScope [soleRegistration] = .error f ∨
        f = .malformed .unterminatedTemplate unclosedBind.location)) ∧
    ∀ otherwise, extract namedScope "A.cpp".toList unclosedType =
      [soleRegistration, unclosedBind].foldlM (applyOrElse namedScope otherwise) [] := by
  have hcollect : collect "A".toList "A.cpp".toList unclosedType =
      .ok (some [soleRegistration, unclosedBind]) := rfl
  have hparse : Statement.parse unclosedBind.text = .error .unterminatedTemplate := rfl
  obtain ⟨hread, hsame⟩ :=
    recognizers_agree.2 namedScope "A.cpp".toList unclosedType _ hcollect
  refine ⟨hcollect, hparse, ?_, hsame⟩
  rcases hread [soleRegistration] [] unclosedBind rfl with ⟨s, hs⟩ | ⟨what, f, hw, hf, hcause⟩
  · rw [hparse] at hs
    cases hs
  · obtain rfl := Except.error.inj (hparse.symm.trans hw)
    exact ⟨f, hf, hcause⟩

end ParameterManual.Constructor
