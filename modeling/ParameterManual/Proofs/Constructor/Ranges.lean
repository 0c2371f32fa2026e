import Mathlib.Tactic.Choose
import ParameterManual.Proofs.Constructor.Coverage

/-!
# The range of a collected statement

A collected statement stands on the lines from the one that begins like a
statement to the first that ends with a semicolon, and its text joins them.
The ranges of successive statements follow one another.
-/

set_option autoImplicit false

namespace ParameterManual.Constructor
open Source

/-- A statement is exactly what stands on so many lines from its location on:
the first of them begins like a statement, and only with the last of them
does their join end with a semicolon. -/
structure Occupies (file : Text) (lines : List Text) (s : Collected) (count : Nat) : Prop where
  spans : Spans lines s count
  file : s.location.file = file
  starts : ∃ line, lines[s.location.line - 1]? = some line ∧ Statement.isStart line = true
  ends : s.text.endsWithChar ';' = true
  shortest : ∀ k < count,
    (Text.joined [' '] ((lines.drop (s.location.line - 1)).take k)).endsWithChar ';' = false

structure Begun (file : Text) (lines : List Text) (s : Collected) : Prop where
  reaches : Reaches lines s
  file : s.location.file = file
  starts : ∃ line, lines[s.location.line - 1]? = some line ∧ Statement.isStart line = true
  unfinished : ∀ k < lines.length + 1 - s.location.line,
    (Text.joined [' '] ((lines.drop (s.location.line - 1)).take k)).endsWithChar ';' = false

theorem begun_line (file line : Text) (before : List Text) (underWay : Option Collected)
    (hu : ∀ u, underWay = some u → Begun file before u ∧ u.isComplete = false) (s : Collected)
    (h : continued file (before.length + 1) line underWay = some s) :
    Begun file (before ++ [line]) s := by
  have hreaches := continued_reaches file line before underWay
    (fun u hs => (hu u hs).1.reaches) s h
  cases underWay with
  | none =>
    obtain ⟨hstart, rfl⟩ := continued_new file line _ s h
    refine ⟨hreaches, rfl, ⟨line, by simp, hstart⟩, ?_⟩
    intro k hk
    obtain rfl : k = 0 := by
      simp only [List.length_append, List.length_singleton] at hk
      omega
    rfl
  | some u =>
    obtain rfl := continued_more file line _ u s h
    obtain ⟨hbegun, hopen⟩ := hu u rfl
    obtain ⟨start, hs, hl, ht⟩ := hbegun.reaches
    obtain ⟨first, hfirst, hstart⟩ := hbegun.starts
    refine ⟨hreaches, hbegun.file, ⟨first, ?_, hstart⟩, ?_⟩
    · change (before ++ [line])[u.location.line - 1]? = some first
      rw [List.getElem?_append_left (by omega), hfirst]
    · intro k hk
      change k < (before ++ [line]).length + 1 - u.location.line at hk
      change (Text.joined [' '] (((before ++ [line]).drop (u.location.line - 1)).take k)).endsWithChar
        ';' = false
      rw [List.length_append, List.length_singleton] at hk
      rw [List.drop_append_of_le_length (by omega),
        List.take_append_of_le_length (by rw [List.length_drop]; omega)]
      by_cases hlast : k < before.length + 1 - u.location.line
      · exact hbegun.unfinished k hlast
      · -- all that was read before the line is the text under way
        have hall : (before.drop (u.location.line - 1)).take k = before.drop start := by
          rw [hl, Nat.add_sub_cancel]
          apply List.take_of_length_le
          rw [List.length_drop]
          omega
        rw [hall, ← ht]
        exact hopen

theorem begun_occupies (file line : Text) (before rest beyond : List Text) (s : Collected)
    (h : Begun file (before ++ [line]) s) (hs : s.isComplete = true) :
    Occupies file (before ++ line :: rest ++ beyond) s (before.length + 2 - s.location.line) := by
  have hlength : (before ++ [line]).length = before.length + 1 := by simp
  have hsplit : before ++ line :: rest ++ beyond = (before ++ [line]) ++ (rest ++ beyond) := by simp
  obtain ⟨start, hstart, hl, -⟩ := h.reaches
  obtain ⟨first, hfirst, hbegins⟩ := h.starts
  refine ⟨reaches_line before rest beyond line s h.reaches, h.file, ⟨first, ?_, hbegins⟩, hs, ?_⟩
  · rw [hsplit, List.getElem?_append_left (by omega), hfirst]
  · intro k hk
    rw [hsplit, List.drop_append_of_le_length (by omega),
      List.take_append_of_le_length (by rw [List.length_drop]; omega)]
    exact h.unfinished k (by omega)

theorem gathered_occupies (file : Text) (before body beyond : List Text)
    (underWay : Option Collected)
    (hu : ∀ u, underWay = some u → Begun file before u ∧ u.isComplete = false) :
    ∀ s ∈ (gather file underWay (before.length + 1) body).1,
      ∃ count, Occupies file (before ++ body ++ beyond) s count := by
  induction body generalizing before underWay with
  | nil => simp [gather]
  | cons line rest ih =>
    have hsplit : before ++ line :: rest ++ beyond = before ++ [line] ++ rest ++ beyond := by simp
    have hlength : (before ++ [line]).length = before.length + 1 := by simp
    have hnone := ih (before ++ [line]) none (by simp)
    rw [← hsplit, hlength] at hnone
    rcases gather_cases file line (before.length + 1) rest underWay with
      ⟨-, hg⟩ | ⟨s, hc, hd, hg⟩ | ⟨s, hc, hd, hg⟩
    · rw [hg]
      exact hnone
    · rw [hg]
      intro t ht
      rcases List.mem_cons.mp ht with rfl | ht
      · have hbegun := begun_line file line before underWay hu t hc
        exact ⟨_, begun_occupies file line before rest beyond t hbegun hd⟩
      · exact hnone t ht
    · rw [hg]
      have hbegun := begun_line file line before underWay hu s hc
      have hmore := ih (before ++ [line]) (some s) (by rintro u ⟨⟩; exact ⟨hbegun, hd⟩)
      rw [← hsplit, hlength] at hmore
      exact hmore

/-- A collected list is what the lines of one body gather, if it holds
anything. -/
theorem collect_gathered (className file content : Text) (list : List Collected)
    (h : collect className file content = .ok (some list)) (hne : list ≠ []) :
    ∃ e, entrance? className (codeLines content) = some e ∧
      list = (gather file none e.number e.body).1 := by
  cases he : entrance? className (codeLines content) with
  | none => exact absurd (from_unentered className file 1 (codeLines content) list he h) hne
  | some e =>
    obtain ⟨own, hown, hsettled⟩ := collect_ok className file content e he (some list) h
    obtain rfl := Option.some.inj hown
    exact ⟨e, rfl, (settled_ok _ _ list hsettled).1⟩

theorem collected_occupies (className file content : Text) (list : List Collected)
    (h : collect className file content = .ok (some list)) (s : Collected) (hs : s ∈ list) :
    ∃ count, Occupies file (codeLines content) s count := by
  obtain ⟨e, he, rfl⟩ :=
    collect_gathered className file content list h (List.ne_nil_of_mem hs)
  obtain ⟨before, beyond, hsplit, hn⟩ := entry_split className (codeLines content) e he
  have hall := gathered_occupies file before e.body beyond none (by simp)
  rw [← hsplit, ← hn] at hall
  exact hall s hs

theorem collected_apart (className file content : Text) (list : List Collected)
    (h : collect className file content = .ok (some list)) :
    list.Pairwise (fun s t => ∀ count, Spans (codeLines content) s count →
      s.location.line + count ≤ t.location.line) := by
  by_cases hne : list = []
  · rw [hne]
    exact List.Pairwise.nil
  · obtain ⟨e, he, rfl⟩ := collect_gathered className file content list h hne
    obtain ⟨before, beyond, hsplit, hn⟩ := entry_split className (codeLines content) e he
    have hlaid := gathered_laidOut file before e.body beyond none (by simp)
    rw [← hsplit, ← hn] at hlaid
    exact hlaid.apart

/-- The statements of a collected list stand on ranges of lines. Each begins,
at its location, with a line that begins like a statement, joins its lines,
ends with a semicolon and does so with no fewer lines; each range ends before
the next begins. -/
theorem collected_ranges (className file content : Text) (list : List Collected)
    (h : collect className file content = .ok (some list)) :
    ∃ count : Collected → Nat,
      (∀ s ∈ list, Occupies file (codeLines content) s (count s)) ∧
      list.Pairwise (fun s t => s.location.line + count s ≤ t.location.line) := by
  have hall := collected_occupies className file content list h
  choose! count hcount using hall
  refine ⟨count, hcount, (collected_apart className file content list h).imp_of_mem ?_⟩
  intro s t hs _ hapart
  exact hapart (count s) (hcount s hs).spans

def twoStatements : Text :=
  "A::A() \x7b\n  RegisterAsEstimable(PARAM_A);\n  RegisterAsEstimable(PARAM_B, /*\n */ &b_);\n\x7d\n".toList

theorem collected_ranges_two :
    collect "A".toList "A.cpp".toList twoStatements =
      .ok (some [⟨"RegisterAsEstimable(PARAM_A);".toList, ⟨"A.cpp".toList, 2⟩⟩,
        ⟨"RegisterAsEstimable(PARAM_B, &b_);".toList, ⟨"A.cpp".toList, 3⟩⟩]) ∧
    ∃ count : Collected → Nat,
      (∀ s ∈ [⟨"RegisterAsEstimable(PARAM_A);".toList, ⟨"A.cpp".toList, 2⟩⟩,
          ⟨"RegisterAsEstimable(PARAM_B, &b_);".toList, ⟨"A.cpp".toList, 3⟩⟩],
        Occupies "A.cpp".toList (codeLines twoStatements) s (count s)) ∧
      List.Pairwise (fun s t : Collected => s.location.line + count s ≤ t.location.line)
        [⟨"RegisterAsEstimable(PARAM_A);".toList, ⟨"A.cpp".toList, 2⟩⟩,
          ⟨"RegisterAsEstimable(PARAM_B, &b_);".toList, ⟨"A.cpp".toList, 3⟩⟩] :=
  ⟨rfl, collected_ranges "A".toList "A.cpp".toList twoStatements _ rfl⟩

end ParameterManual.Constructor
