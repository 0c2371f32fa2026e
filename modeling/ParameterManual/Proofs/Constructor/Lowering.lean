import ParameterManual.Proofs.Constructor.Blame
import ParameterManual.Proofs.Constructor.Body

/-!
# Statements that move down

Lines inserted below a line move what follows down and leave alone what
stands above. Statements that are moved so have the same effect, or are
refused for the same reason at the line they then stand on.
-/

set_option autoImplicit false

namespace ParameterManual

def Location.lowered (number more : Nat) (l : Location) : Location :=
  if number < l.line then { l with line := l.line + more } else l

theorem Location.lowered_above (number more : Nat) (l : Location) (h : l.line ≤ number) :
    l.lowered number more = l := if_neg (by omega)

namespace Constructor

def Collected.lowered (number more : Nat) (s : Collected) : Collected :=
  { s with location := s.location.lowered number more }

/-- The same result but for a change, or a refusal for the same reason at the
lowered line. -/
inductive Lowered (number more : Nat) {α : Type} (change : α → α) :
    Except Failure α → Except Failure α → Prop
  | ok (a : α) : Lowered number more change (.ok a) (.ok (change a))
  | error (b : Blame) (l : Location) :
      Lowered number more change (.error (b.failure l)) (.error (b.failure (l.lowered number more)))

theorem Lowered.some {number more : Nat} {α : Type} {change : α → α} {x y : Except Failure α}
    (h : Lowered number more change x y) :
    Lowered number more (Option.map change) (some <$> x) (some <$> y) := by
  cases h with
  | ok a => exact .ok (Option.some a)
  | error b l => exact .error b l

theorem Moved.lowered {number more : Nat} {α : Type} {l : Location} {x y : Except Failure α}
    (h : Moved l (l.lowered number more) x y) : Lowered number more id x y := by
  cases h with
  | ok a => exact .ok a
  | error b => exact .error b l

theorem Lowered.bind {number more : Nat} {α β : Type} {x y : Except Failure α} {f g : α → Except Failure β}
    (h : Lowered number more id x y) (hf : ∀ a, Lowered number more id (f a) (g a)) :
    Lowered number more id (x >>= f) (y >>= g) := by
  cases h with
  | ok a => exact hf a
  | error b l => exact .error b l

section gather
variable (file : Text) (number more : Nat)

theorem continued_lowered (line : Text) (first : Nat) (underWay : Option Collected)
    (h : number < first) :
    continued file (first + more) line (underWay.map (Collected.lowered number more)) =
      (continued file first line underWay).map (Collected.lowered number more) := by
  cases underWay with
  | none =>
    rw [Option.map_none, continued, continued]
    split
    · simp [Collected.lowered, Location.lowered, h]
    · rfl
  | some u => rfl

theorem gather_lowered (first : Nat) (lines : List Text) (underWay : Option Collected)
    (h : number < first) :
    gather file (underWay.map (Collected.lowered number more)) (first + more) lines =
      ((gather file underWay first lines).1.map (Collected.lowered number more),
        (gather file underWay first lines).2.map (Collected.lowered number more)) := by
  induction lines generalizing first underWay with
  | nil => rfl
  | cons line rest ih =>
    have hline := continued_lowered file number more line first underWay h
    have hnext : first + more + 1 = first + 1 + more := by omega
    rcases gather_cases file line first rest underWay with
      ⟨hc, hg⟩ | ⟨s, hc, hd, hg⟩ | ⟨s, hc, hd, hg⟩
    · rw [hc] at hline
      rw [hg, gather_nothing file line _ rest _ hline, hnext]
      exact ih (first + 1) none (by omega)
    · rw [hc] at hline
      have hrest := ih (first + 1) none (by omega)
      rw [Option.map_none] at hrest
      rw [hg, gather_complete file line _ rest _ _ hline hd, hnext, hrest]
      rfl
    · rw [hc] at hline
      rw [hg, gather_pending file line _ rest _ _ hline hd, hnext]
      exact ih (first + 1) (some s) (by omega)

theorem continued_number (line : Text) (first : Nat) (underWay : Option Collected)
    (hu : ∀ u ∈ underWay, u.location.line < first) (s : Collected)
    (h : continued file first line underWay = some s) : s.location.line < first + 1 := by
  cases underWay with
  | none =>
    obtain ⟨-, rfl⟩ := continued_new file line first s h
    exact Nat.lt_succ_self first
  | some u =>
    obtain rfl := continued_more file line first u s h
    exact Nat.lt_succ_of_lt (hu u rfl)

theorem gather_number (first : Nat) (lines : List Text) (underWay : Option Collected)
    (hu : ∀ u ∈ underWay, u.location.line < first) :
    (∀ s ∈ (gather file underWay first lines).1, s.location.line < first + lines.length) ∧
      ∀ s ∈ (gather file underWay first lines).2, s.location.line < first + lines.length := by
  induction lines generalizing first underWay with
  | nil => exact ⟨by simp [gather], hu⟩
  | cons line rest ih =>
    have hlength : first + (line :: rest).length = first + 1 + rest.length := by
      rw [List.length_cons]
      omega
    have hnone := ih (first + 1) none (by simp)
    rw [hlength]
    rcases gather_cases file line first rest underWay with
      ⟨-, hg⟩ | ⟨s, hc, -, hg⟩ | ⟨s, hc, -, hg⟩
    · rw [hg]
      exact hnone
    · have hs := continued_number file line first underWay hu s hc
      rw [hg]
      exact ⟨List.forall_mem_cons.mpr ⟨by omega, hnone.1⟩, hnone.2⟩
    · have hs := continued_number file line first underWay hu s hc
      rw [hg]
      exact ih (first + 1) (some s) (by rintro u ⟨⟩; exact hs)

end gather

variable (number more : Nat)

theorem collected_above (s : Collected) (h : s.location.line ≤ number) :
    s.lowered number more = s := by
  rw [Collected.lowered, Location.lowered_above number more s.location h]

theorem list_above (list : List Collected) (h : ∀ s ∈ list, s.location.line ≤ number) :
    list.map (Collected.lowered number more) = list :=
  (List.map_congr_left fun s hs => collected_above number more s (h s hs)).trans (List.map_id list)

theorem settled_lowered (closed : Bool) (gathered : List Collected × Option Collected) :
    Lowered number more (List.map (Collected.lowered number more)) (settled closed gathered)
      (settled closed (gathered.1.map (Collected.lowered number more),
        gathered.2.map (Collected.lowered number more))) := by
  obtain ⟨list, underWay⟩ := gathered
  cases closed with
  | false => exact .ok list
  | true =>
    cases underWay with
    | none => exact .ok list
    | some s => exact .error (.malformed .notTerminated) s.location

/-- Statements that move down document the same variables. -/
theorem applied_lowered (scope : Scope) (list : List Collected) (own : List Variable) :
    Lowered number more id (list.foldlM (applyCollected scope) own)
      ((list.map (Collected.lowered number more)).foldlM (applyCollected scope) own) := by
  induction list generalizing own with
  | nil => exact .ok own
  | cons c rest ih =>
    rw [List.map_cons, List.foldlM_cons, List.foldlM_cons]
    have hfirst := collected_moved scope c.location (c.location.lowered number more) own c.text
    exact hfirst.lowered.bind ih

theorem extract_lowered (scope : Scope) (file content other : Text)
    (h : Lowered number more (Option.map (List.map (Collected.lowered number more)))
      (collect scope.className file content) (collect scope.className file other)) :
    Lowered number more id (extract scope file content) (extract scope file other) := by
  rw [extract, extract]
  generalize collect scope.className file content = found at h ⊢
  generalize collect scope.className file other = found' at h ⊢
  cases h with
  | ok a =>
    cases a with
    | none => exact .ok []
    | some list => exact applied_lowered number more scope list []
  | error b l => exact .error b l

end Constructor

end ParameterManual
