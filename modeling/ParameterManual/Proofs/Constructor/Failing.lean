import ParameterManual.Proofs.Constructor.Blame
import ParameterManual.Proofs.Constructor.Ranges
import ParameterManual.Proofs.Outcome

/-!
# Where an extraction fails

An extraction fails at one statement and tells the line that begins it. If
the statements could not be collected, that is the one the body closes over.
Otherwise it is the first one that is refused after those before it have been
taken in.
-/

set_option autoImplicit false

namespace ParameterManual.Constructor
open Source

/-- A code line of the file at the location begins like a statement. -/
structure Begins (file content : Text) (l : Location) : Prop where
  file : l.file = file
  number_pos : 0 < l.line
  starts : ∃ line, (codeLines content)[l.line - 1]? = some line ∧ Statement.isStart line = true

theorem gathered_begun (file : Text) (before body : List Text) (underWay : Option Collected)
    (hu : ∀ u, underWay = some u → Begun file before u ∧ u.isComplete = false) (s : Collected)
    (hs : (gather file underWay (before.length + 1) body).2 = some s) :
    Begun file (before ++ body) s := by
  induction body generalizing before underWay with
  | nil =>
    rw [List.append_nil]
    exact (hu s hs).1
  | cons line rest ih =>
    have hsplit : before ++ line :: rest = before ++ [line] ++ rest := by simp
    have hlength : (before ++ [line]).length = before.length + 1 := by simp
    have hnone := ih (before ++ [line]) none (by simp)
    rw [hlength] at hnone
    rw [hsplit]
    rcases gather_cases file line (before.length + 1) rest underWay with
      ⟨-, hg⟩ | ⟨u, -, -, hg⟩ | ⟨u, hc, hd, hg⟩
    · rw [hg] at hs
      exact hnone hs
    · rw [hg] at hs
      exact hnone hs
    · rw [hg] at hs
      have hbegun := begun_line file line before underWay hu u hc
      apply ih (before ++ [line]) (some u) (by rintro v ⟨⟩; exact ⟨hbegun, hd⟩)
      rw [hlength]
      exact hs

theorem unentered_ok (className file : Text) (number : Nat) (lines : List Text)
    (h : entryFrom className number lines = none) :
    ∃ found, statementsFrom className file number lines = .ok found := by
  induction lines generalizing number with
  | nil => exact ⟨none, rfl⟩
  | cons line rest ih =>
    by_cases ho : opensConstructor className line = true
    · have ha : entryAwaiting number (line :: rest) = none := by simpa [entryFrom, ho] using h
      refine ⟨some [], ?_⟩
      rw [statementsFrom, if_pos ho, awaiting_unentered file number _ ha]
      rfl
    · rw [entryFrom, if_neg ho] at h
      rw [statementsFrom, if_neg ho]
      exact ih (number + 1) h

theorem settled_error (closed : Bool) (gathered : List Collected × Option Collected) (f : Failure)
    (h : settled closed gathered = .error f) :
    ∃ s, gathered.2 = some s ∧ f = .malformed .notTerminated s.location := by
  obtain ⟨all, underWay⟩ := gathered
  cases closed with
  | false => cases h
  | true =>
    cases underWay with
    | none => cases h
    | some s => exact ⟨s, rfl, (Except.error.inj h).symm⟩

/-- Collecting fails for one reason, at a line that begins a statement. -/
theorem collect_error (className file content : Text) (f : Failure)
    (h : collect className file content = .error f) :
    ∃ l, f = .malformed .notTerminated l ∧ Begins file content l := by
  cases he : entrance? className (codeLines content) with
  | none =>
    obtain ⟨found, hfound⟩ := unentered_ok className file 1 (codeLines content) he
    rw [collect, hfound] at h
    cases h
  | some e =>
    obtain ⟨before, beyond, hsplit, hn⟩ := entry_split className (codeLines content) e he
    rw [collect_entry className file content e he, body_gather] at h
    change some <$> settled e.isClosed (gather file none e.number e.body) = .error f at h
    cases hsettled : settled e.isClosed (gather file none e.number e.body) with
    | ok list =>
      rw [hsettled] at h
      cases h
    | error g =>
      rw [hsettled] at h
      obtain rfl : g = f := Except.error.inj h
      obtain ⟨s, hs, rfl⟩ := settled_error _ _ g hsettled
      rw [hn] at hs
      have hbegun := gathered_begun file before e.body none (by simp) s hs
      obtain ⟨start, hstart, hl, -⟩ := hbegun.reaches
      obtain ⟨line, hline, hbegins⟩ := hbegun.starts
      refine ⟨s.location, rfl, hbegun.file, by omega, line, ?_, hbegins⟩
      rw [hsplit, List.getElem?_append_left (by omega), hline]

/-- Processing fails at the first statement that is refused, for a reason of
its own. -/
theorem applyAll_error (scope : Scope) (list : List Collected) (f : Failure)
    (h : applyAll scope list = .error f) :
    ∃ before c after own, list = before ++ c :: after ∧ applyAll scope before = .ok own ∧
      applyCollected scope own c = .error f ∧ ∃ reason : Blame, f = reason.failure c.location := by
  obtain ⟨before, c, after, own, hlist, hbefore, hfails⟩ := foldlM_error _ list [] f h
  have hblame := (collected_moved scope c.location c.location own c.text).blame hfails
  exact ⟨before, c, after, own, hlist, hbefore, hfails, hblame⟩

/-- An extraction fails for a symbol without display text, an undeclared
member or the form of a statement, and tells the line that begins the
statement. Of collected statements it is the first that is refused after all
those above it have been taken in. -/
theorem extract_error (scope : Scope) (file content : Text) (f : Failure)
    (h : extract scope file content = .error f) :
    ∃ (reason : Blame) (l : Location), f = reason.failure l ∧ Begins file content l ∧
      ∀ found, collect scope.className file content = .ok found →
        ∃ before c after own, found = some (before ++ c :: after) ∧ c.location = l ∧
          (∀ s ∈ before, s.location.line < l.line) ∧
          applyAll scope before = .ok own ∧ applyCollected scope own c = .error f := by
  rw [extract] at h
  cases hcollect : collect scope.className file content with
  | error g =>
    rw [hcollect] at h
    obtain rfl : g = f := Except.error.inj h
    obtain ⟨l, rfl, hbegins⟩ := collect_error scope.className file content g hcollect
    exact ⟨.malformed .notTerminated, l, rfl, hbegins, by rintro found ⟨⟩⟩
  | ok found =>
    rw [hcollect] at h
    cases found with
    | none => cases h
    | some list =>
      obtain ⟨before, c, after, own, rfl, hbefore, hfails, reason, rfl⟩ :=
        applyAll_error scope list f h
      have hoccupies := collected_occupies scope.className file content _ hcollect
      have hapart := collected_apart scope.className file content _ hcollect
      obtain ⟨_, hown⟩ := hoccupies c (by simp)
      refine ⟨reason, c.location, rfl, ⟨hown.file, hown.spans.number_pos, hown.starts⟩, ?_⟩
      rintro found ⟨⟩
      refine ⟨before, c, after, own, rfl, rfl, ?_, hbefore, hfails⟩
      intro s hs
      obtain ⟨count, habove⟩ := hoccupies s (by simp [hs])
      have hpos := habove.spans.count_pos
      have hle := (List.pairwise_append.mp hapart).2.2 s hs c (by simp) count habove.spans
      omega

def twoRegistrations : Text :=
  "A::A() \x7b\n  RegisterAsEstimable(PARAM_A, &a_);\n  RegisterAsAddressable(PARAM_B,\n    &b_, use);\n\x7d\n".toList

def untranslatedScope : Scope where
  className := "A".toList
  translations := TranslationTable.withPrefix "PARAM".toList
  members := []
  inherited := []

theorem extract_error_second :
    extract untranslatedScope "A.cpp".toList twoRegistrations =
      .error (.unknownSymbol "PARAM_B".toList ⟨"A.cpp".toList, 3⟩) ∧
    ∃ (reason : Blame) (l : Location),
      Failure.unknownSymbol "PARAM_B".toList ⟨"A.cpp".toList, 3⟩ = reason.failure l ∧
      Begins "A.cpp".toList twoRegistrations l ∧
      ∀ found, collect "A".toList "A.cpp".toList twoRegistrations = .ok found →
        ∃ before c after own, found = some (before ++ c :: after) ∧ c.location = l ∧
          (∀ s ∈ before, s.location.line < l.line) ∧
          applyAll untranslatedScope before = .ok own ∧
          applyCollected untranslatedScope own c =
            .error (.unknownSymbol "PARAM_B".toList ⟨"A.cpp".toList, 3⟩) := by
  have hfails : extract untranslatedScope "A.cpp".toList twoRegistrations =
      .error (.unknownSymbol "PARAM_B".toList ⟨"A.cpp".toList, 3⟩) := rfl
  exact ⟨hfails, extract_error untranslatedScope "A.cpp".toList twoRegistrations _ hfails⟩

end ParameterManual.Constructor
