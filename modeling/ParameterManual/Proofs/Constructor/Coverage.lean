import Mathlib.Logic.ExistsUnique
import ParameterManual.Proofs.Constructor.Body
import ParameterManual.Proofs.Text.Spacing

/-!
# Which lines the collected statements take in

Collected statements stand on ranges of lines that follow one another and
share no line. A line of a body that begins like a statement lies in one of
them unless the file ends before any line at or after it ends with a
semicolon.
-/

set_option autoImplicit false

namespace ParameterManual.Constructor
open Source

/-- A statement spans as many lines, from its location on, as its text joins. -/
structure Spans (lines : List Text) (s : Collected) (count : Nat) : Prop where
  number_pos : 0 < s.location.line
  count_pos : 0 < count
  inside : s.location.line - 1 + count ≤ lines.length
  text : s.text = Text.joined [' '] ((lines.drop (s.location.line - 1)).take count)

def Covers (lines : List Text) (s : Collected) (number : Nat) : Prop :=
  ∃ count, Spans lines s count ∧ s.location.line ≤ number ∧ number < s.location.line + count

/-- Exactly one of the statements has the line in its range. -/
def CoveredOnce (lines : List Text) (list : List Collected) (number : Nat) : Prop :=
  ∃! i : Nat, ∃ s, list[i]? = some s ∧ Covers lines s number

theorem spans_unique (lines : List Text) (s : Collected) (a b : Nat) (ha : Spans lines s a)
    (hb : Spans lines s b) : a = b := by
  refine Text.joined_take_injective (lines.drop (s.location.line - 1)) a b
    ha.count_pos hb.count_pos ?_ ?_ (ha.text.symm.trans hb.text)
  · have := ha.inside
    rw [List.length_drop]
    omega
  · have := hb.inside
    rw [List.length_drop]
    omega

/-- A statement under way after some lines: its text joins the lines from its
location to the last of them. -/
def Reaches (before : List Text) (s : Collected) : Prop :=
  ∃ start, start < before.length ∧ s.location.line = start + 1 ∧
    s.text = Text.joined [' '] (before.drop start)

theorem reaches_spans (before beyond : List Text) (s : Collected) (h : Reaches before s) :
    Spans (before ++ beyond) s (before.length + 1 - s.location.line) := by
  obtain ⟨start, hs, hl, ht⟩ := h
  refine ⟨by omega, by omega, ?_, ?_⟩
  · rw [List.length_append]
    omega
  · rw [ht, hl, Nat.add_sub_cancel, List.drop_append_of_le_length (by omega)]
    rw [show before.length + 1 - (start + 1) = (before.drop start).length by
      rw [List.length_drop]; omega]
    rw [List.take_left]

theorem reaches_line (before rest beyond : List Text) (line : Text) (s : Collected)
    (h : Reaches (before ++ [line]) s) :
    Spans (before ++ line :: rest ++ beyond) s (before.length + 2 - s.location.line) := by
  have hspans := reaches_spans (before ++ [line]) (rest ++ beyond) s h
  rw [← List.append_assoc, List.append_assoc before [line] rest, List.length_append] at hspans
  exact hspans

theorem reaches_covers (before rest beyond : List Text) (line : Text) (s : Collected)
    (h : Reaches (before ++ [line]) s) (number : Nat) (hl : s.location.line ≤ number)
    (hn : number ≤ before.length + 1) : Covers (before ++ line :: rest ++ beyond) s number :=
  ⟨_, reaches_line before rest beyond line s h, hl, by omega⟩

theorem continued_reaches (file line : Text) (before : List Text) (underWay : Option Collected)
    (hu : ∀ u, underWay = some u → Reaches before u) (s : Collected)
    (h : continued file (before.length + 1) line underWay = some s) :
    Reaches (before ++ [line]) s := by
  cases underWay with
  | none =>
    obtain ⟨-, rfl⟩ := continued_new file line _ s h
    exact ⟨before.length, by simp, rfl, by simp [Text.joined]⟩
  | some u =>
    obtain rfl := continued_more file line _ u s h
    obtain ⟨start, hs, hl, ht⟩ := hu u rfl
    have hne : before.drop start ≠ [] := by
      intro hnil
      have := congrArg List.length hnil
      rw [List.length_drop, List.length_nil] at this
      omega
    refine ⟨start, by rw [List.length_append]; omega, hl, ?_⟩
    rw [List.drop_append_of_le_length (by omega), Text.joined_append _ hne, ← ht]

def firstLine (before : List Text) : Option Collected → Nat
  | some s => s.location.line
  | none => before.length + 1

theorem continued_first (file line : Text) (before : List Text) (underWay : Option Collected)
    (s : Collected) (h : continued file (before.length + 1) line underWay = some s) :
    s.location.line = firstLine before underWay := by
  cases underWay with
  | none =>
    obtain ⟨-, rfl⟩ := continued_new file line _ s h
    rfl
  | some u =>
    obtain rfl := continued_more file line _ u s h
    rfl

theorem continued_start (file line : Text) (number : Nat) (underWay : Option Collected)
    (h : underWay.isSome = true ∨ Statement.isStart line = true) :
    ∃ s, continued file number line underWay = some s := by
  cases underWay with
  | none =>
    have hs : Statement.isStart line = true := by simpa using h
    exact ⟨⟨line, ⟨file, number⟩⟩, by simp [continued, hs]⟩
  | some u => exact ⟨_, rfl⟩

structure LaidOut (lines : List Text) (first : Nat) (list : List Collected) : Prop where
  spans : ∀ s ∈ list, ∃ count, Spans lines s count
  first_le : ∀ s ∈ list, first ≤ s.location.line
  apart : list.Pairwise
    (fun s t => ∀ count, Spans lines s count → s.location.line + count ≤ t.location.line)

theorem laidOut_mono (lines : List Text) (first later : Nat) (list : List Collected)
    (h : LaidOut lines later list) (hf : first ≤ later) : LaidOut lines first list :=
  ⟨h.spans, fun s hs => Nat.le_trans hf (h.first_le s hs), h.apart⟩

theorem laidOut_cons (lines : List Text) (s : Collected) (count : Nat) (list : List Collected)
    (hs : Spans lines s count) (h : LaidOut lines (s.location.line + count) list) :
    LaidOut lines s.location.line (s :: list) := by
  refine ⟨?_, ?_, List.pairwise_cons.mpr ⟨?_, h.apart⟩⟩
  · intro t ht
    rcases List.mem_cons.mp ht with rfl | ht
    · exact ⟨count, hs⟩
    · exact h.spans t ht
  · intro t ht
    rcases List.mem_cons.mp ht with rfl | ht
    · exact Nat.le_refl _
    · exact Nat.le_trans (by omega) (h.first_le t ht)
  · intro t ht other ho
    rw [spans_unique lines s other count ho hs]
    exact h.first_le t ht

theorem gathered_laidOut (file : Text) (before body beyond : List Text)
    (underWay : Option Collected) (hu : ∀ u, underWay = some u → Reaches before u) :
    LaidOut (before ++ body ++ beyond) (firstLine before underWay)
      (gather file underWay (before.length + 1) body).1 := by
  induction body generalizing before underWay with
  | nil => exact ⟨by simp [gather], by simp [gather], by simp [gather]⟩
  | cons line rest ih =>
    have hsplit : before ++ line :: rest ++ beyond = before ++ [line] ++ rest ++ beyond := by simp
    have hlen : (before ++ [line]).length = before.length + 1 := by simp
    have hnone := ih (before ++ [line]) none (by simp)
    rw [← hsplit, hlen] at hnone
    rcases gather_cases file line (before.length + 1) rest underWay with
      ⟨hc, hg⟩ | ⟨s, hc, -, hg⟩ | ⟨s, hc, -, hg⟩
    · rw [hg]
      refine laidOut_mono _ _ _ _ hnone ?_
      cases underWay with
      | none => simp [firstLine]
      | some u => simp [continued] at hc
    · rw [hg, ← continued_first file line before underWay s hc]
      have hr := continued_reaches file line before underWay hu s hc
      refine laidOut_cons _ s _ _ (reaches_line before rest beyond line s hr) ?_
      refine laidOut_mono _ _ _ _ hnone ?_
      obtain ⟨start, hs, hl, -⟩ := hr
      rw [hlen] at hs
      simp only [firstLine, hlen]
      omega
    · rw [hg, ← continued_first file line before underWay s hc]
      have hr := continued_reaches file line before underWay hu s hc
      have := ih (before ++ [line]) (some s) (by rintro u ⟨⟩; exact hr)
      rw [← hsplit, hlen] at this
      exact this

theorem laidOut_once (lines : List Text) (first : Nat) (list : List Collected) (number : Nat)
    (h : LaidOut lines first list) :
    CoveredOnce lines list number ↔ ∃ s ∈ list, Covers lines s number := by
  constructor
  · rintro ⟨i, ⟨s, hi, hs⟩, -⟩
    exact ⟨s, List.mem_of_getElem? hi, hs⟩
  · rintro ⟨s, hmem, hs⟩
    obtain ⟨i, hi⟩ := List.mem_iff_getElem?.mp hmem
    refine ⟨i, ⟨s, hi, hs⟩, ?_⟩
    rintro j ⟨t, hj, ht⟩
    obtain ⟨a, hsa, hs1, hs2⟩ := hs
    obtain ⟨b, htb, ht1, ht2⟩ := ht
    obtain ⟨hil, rfl⟩ := List.getElem?_eq_some_iff.mp hi
    obtain ⟨hjl, rfl⟩ := List.getElem?_eq_some_iff.mp hj
    have happart := List.pairwise_iff_getElem.mp h.apart
    rcases Nat.lt_trichotomy i j with hij | rfl | hji
    · have := happart i j hil hjl hij a hsa
      omega
    · rfl
    · have := happart j i hjl hil hji b htb
      omega

/-- The lines of a statement under way are covered exactly if a later line
completes it. -/
theorem underWay_covered (file : Text) (before body beyond : List Text) (s : Collected)
    (hs : Reaches before s) (number : Nat) (hl : s.location.line ≤ number)
    (hb : number ≤ before.length) :
    (∃ t ∈ (gather file (some s) (before.length + 1) body).1,
        Covers (before ++ body ++ beyond) t number) ↔
      ∃ line ∈ body, line.endsWithChar ';' = true := by
  induction body generalizing before s with
  | nil => simp [gather]
  | cons line rest ih =>
    have hsplit : before ++ line :: rest ++ beyond = before ++ [line] ++ rest ++ beyond := by simp
    have hlen : (before ++ [line]).length = before.length + 1 := by simp
    have hu : ∀ u, some s = some u → Reaches before u := by rintro u ⟨⟩; exact hs
    rcases gather_cases file line (before.length + 1) rest (some s) with
      ⟨hc, -⟩ | ⟨t, hc, hd, hg⟩ | ⟨t, hc, hd, hg⟩
    · simp [continued] at hc
    · have hr := continued_reaches file line before (some s) hu t hc
      have he := continued_complete file line _ (some s) t hc
      have hf := continued_first file line before (some s) t hc
      rw [hg]
      refine iff_of_true ⟨t, by simp, ?_⟩ ⟨line, by simp, he ▸ hd⟩
      apply reaches_covers before rest beyond line t hr number
      · simpa [hf, firstLine] using hl
      · omega
    · have hr := continued_reaches file line before (some s) hu t hc
      have he := continued_complete file line _ (some s) t hc
      have hf := continued_first file line before (some s) t hc
      have hi := ih (before ++ [line]) t hr (by simpa [hf, firstLine] using hl) (by omega)
      rw [← hsplit, hlen] at hi
      rw [hg, hi]
      simp [he.symm.trans hd]

/-- A line that begins like a statement is covered exactly if it or a later
line of the body ends with a semicolon. -/
theorem start_covered (file : Text) (before body beyond : List Text) (underWay : Option Collected)
    (hu : ∀ u, underWay = some u → Reaches before u) (i : Nat) (start : Text)
    (hi : body[i]? = some start) (hs : Statement.isStart start = true) :
    (∃ t ∈ (gather file underWay (before.length + 1) body).1,
        Covers (before ++ body ++ beyond) t (before.length + 1 + i)) ↔
      ∃ line ∈ body.drop i, line.endsWithChar ';' = true := by
  induction body generalizing before underWay i with
  | nil => simp at hi
  | cons line rest ih =>
    have hsplit : before ++ line :: rest ++ beyond = before ++ [line] ++ rest ++ beyond := by simp
    have hlen : (before ++ [line]).length = before.length + 1 := by simp
    have hfirst : ∀ t, continued file (before.length + 1) line underWay = some t →
        t.location.line ≤ before.length + 1 := by
      intro t hc
      obtain ⟨start, hst, hl, -⟩ := continued_reaches file line before underWay hu t hc
      omega
    cases i with
    | zero =>
      obtain rfl : line = start := by simpa using hi
      obtain ⟨t, hc⟩ := continued_start file line (before.length + 1) underWay (Or.inr hs)
      have hr := continued_reaches file line before underWay hu t hc
      have he := continued_complete file line _ underWay t hc
      have hl := hfirst t hc
      rcases gather_cases file line (before.length + 1) rest underWay with
        ⟨hn, -⟩ | ⟨u, hc', hd, hg⟩ | ⟨u, hc', hd, hg⟩
      · simp [hn] at hc
      · obtain rfl : t = u := by simpa [hc] using hc'
        rw [hg]
        refine iff_of_true ⟨t, by simp, ?_⟩ ⟨line, by simp, he ▸ hd⟩
        exact reaches_covers before rest beyond line t hr _ (by omega) (by omega)
      · obtain rfl : t = u := by simpa [hc] using hc'
        have hi := underWay_covered file (before ++ [line]) rest beyond t hr
          (before.length + 1) hl (by omega)
        rw [← hsplit, hlen] at hi
        rw [hg, Nat.add_zero, hi]
        simp [he.symm.trans hd]
    | succ i =>
      have hi' : rest[i]? = some start := by simpa using hi
      have hnumber : before.length + 1 + (i + 1) = before.length + 1 + 1 + i := by omega
      rw [List.drop_succ_cons, hnumber]
      have hnone := ih (before ++ [line]) none (by simp) i hi'
      rw [← hsplit, hlen] at hnone
      rcases gather_cases file line (before.length + 1) rest underWay with
        ⟨hc, hg⟩ | ⟨s, hc, -, hg⟩ | ⟨s, hc, -, hg⟩
      · rw [hg, hnone]
      · rw [hg, ← hnone]
        refine ⟨?_, fun h => h.imp fun t ht => ⟨List.mem_cons_of_mem s ht.1, ht.2⟩⟩
        rintro ⟨t, ht, hcov⟩
        rcases List.mem_cons.mp ht with rfl | ht
        · -- the statement just completed ends with this line
          have hr := continued_reaches file line before underWay hu t hc
          obtain ⟨count, hsp, -, hlt⟩ := hcov
          have hcount := spans_unique _ t _ count (reaches_line before rest beyond line t hr) hsp
          have := hfirst t hc
          omega
        · exact ⟨t, ht, hcov⟩
      · have hr := continued_reaches file line before underWay hu s hc
        have := ih (before ++ [line]) (some s) (by rintro u ⟨⟩; exact hr) i hi'
        rw [← hsplit, hlen] at this
        rw [hg, this]

theorem underWay_finished (file : Text) (number : Nat) (body : List Text) (s : Collected)
    (h : (gather file (some s) number body).2 = none) :
    ∃ line ∈ body, line.endsWithChar ';' = true := by
  induction body generalizing number s with
  | nil => simp [gather] at h
  | cons line rest ih =>
    rcases gather_cases file line number rest (some s) with
      ⟨hc, -⟩ | ⟨t, hc, hd, -⟩ | ⟨t, hc, -, hg⟩
    · simp [continued] at hc
    · exact ⟨line, by simp, (continued_complete file line number (some s) t hc) ▸ hd⟩
    · obtain ⟨l, hl, he⟩ := ih (number + 1) t (hg ▸ h)
      exact ⟨l, by simp [hl], he⟩

theorem start_finished (file : Text) (number : Nat) (body : List Text)
    (underWay : Option Collected) (h : (gather file underWay number body).2 = none) (i : Nat)
    (start : Text) (hi : body[i]? = some start) (hs : Statement.isStart start = true) :
    ∃ line ∈ body.drop i, line.endsWithChar ';' = true := by
  induction body generalizing number underWay i with
  | nil => simp at hi
  | cons line rest ih =>
    cases i with
    | zero =>
      obtain rfl : line = start := by simpa using hi
      obtain ⟨t, hc⟩ := continued_start file line number underWay (Or.inr hs)
      rcases gather_cases file line number rest underWay with
        ⟨hn, -⟩ | ⟨u, hc', hd, -⟩ | ⟨u, -, -, hg⟩
      · simp [hn] at hc
      · exact ⟨line, by simp, (continued_complete file line number underWay u hc') ▸ hd⟩
      · obtain ⟨l, hl, he⟩ := underWay_finished file (number + 1) rest u (hg ▸ h)
        exact ⟨l, by simp [hl], he⟩
    | succ i =>
      have hi' : rest[i]? = some start := by simpa using hi
      rw [List.drop_succ_cons]
      rcases gather_cases file line number rest underWay with
        ⟨-, hg⟩ | ⟨s, -, -, hg⟩ | ⟨s, -, -, hg⟩
      · exact ih (number + 1) none (hg ▸ h) i hi'
      · exact ih (number + 1) none (by rw [hg] at h; exact h) i hi'
      · exact ih (number + 1) (some s) (hg ▸ h) i hi'

theorem settled_ok (closed : Bool) (gathered : List Collected × Option Collected)
    (list : List Collected) (h : settled closed gathered = .ok list) :
    list = gathered.1 ∧ (closed = true → gathered.2 = none) := by
  obtain ⟨all, underWay⟩ := gathered
  cases closed <;> cases underWay <;> simp_all [settled]

/-- Once the body is entered, a result is a list of statements, and a line of
the body that begins like a statement lies in the range of exactly one of
them if and only if it or a later line of the body ends with a semicolon. In
a body that closes that is every such line, so only the end of the file can
cut one off. -/
theorem start_lines_covered (className file content : Text) (e : Entry)
    (he : entrance? className (codeLines content) = some e) (result : Option (List Collected))
    (h : collect className file content = .ok result) :
    ∃ list, result = some list ∧
      ∀ i start, e.body[i]? = some start → Statement.isStart start = true →
        (codeLines content)[e.number - 1 + i]? = some start ∧
        (CoveredOnce (codeLines content) list (e.number + i) ↔
          ∃ line ∈ e.body.drop i, line.endsWithChar ';' = true) ∧
        (e.isClosed = true → CoveredOnce (codeLines content) list (e.number + i)) := by
  obtain ⟨before, beyond, hsplit, hn⟩ := entry_split className (codeLines content) e he
  obtain ⟨list, rfl, hlist⟩ := collect_ok className file content e he result h
  obtain ⟨rfl, hclosed⟩ := settled_ok e.isClosed (gather file none e.number e.body) list hlist
  refine ⟨_, rfl, fun i start hi hs => ?_⟩
  have hbound : i < e.body.length := (List.getElem?_eq_some_iff.mp hi).1
  have hline : (codeLines content)[e.number - 1 + i]? = some start := by
    rw [hsplit, hn, Nat.add_sub_cancel, List.append_assoc,
      List.getElem?_append_right (by omega), Nat.add_sub_cancel_left,
      List.getElem?_append_left hbound, hi]
  have hlaid := gathered_laidOut file before e.body beyond none (by simp)
  rw [← hsplit, ← hn] at hlaid
  have hcov := start_covered file before e.body beyond none (by simp) i start hi hs
  rw [← hsplit, ← hn] at hcov
  have honce := (laidOut_once _ _ _ (e.number + i) hlaid).trans hcov
  exact ⟨hline, honce, fun hc => honce.mpr
    (start_finished file e.number e.body none (hclosed hc) i start hi hs)⟩

/-- A statement on two lines of a body that closes: its first line is covered. -/
theorem start_lines_covered_two_lines :
    collect "A".toList "A.cpp".toList
        "A::A() \x7b\n  RegisterAsEstimable(PARAM_B,\n    &b_);\n\x7d\n".toList =
      .ok (some [⟨"RegisterAsEstimable(PARAM_B, &b_);".toList, ⟨"A.cpp".toList, 2⟩⟩]) ∧
    CoveredOnce (codeLines
        "A::A() \x7b\n  RegisterAsEstimable(PARAM_B,\n    &b_);\n\x7d\n".toList)
      [⟨"RegisterAsEstimable(PARAM_B, &b_);".toList, ⟨"A.cpp".toList, 2⟩⟩] 2 := by
  obtain ⟨list, hl, h⟩ := start_lines_covered "A".toList "A.cpp".toList
    "A::A() \x7b\n  RegisterAsEstimable(PARAM_B,\n    &b_);\n\x7d\n".toList
    ⟨2, 1, ["RegisterAsEstimable(PARAM_B,".toList, "&b_);".toList, "\x7d".toList]⟩ rfl
    (some [⟨"RegisterAsEstimable(PARAM_B, &b_);".toList, ⟨"A.cpp".toList, 2⟩⟩]) rfl
  obtain rfl := Option.some.inj hl
  exact ⟨rfl, (h 0 "RegisterAsEstimable(PARAM_B,".toList rfl rfl).2.2 rfl⟩

/-- A file that ends inside the constructor, after a statement without its
semicolon: the collection succeeds and the statement is in no range. -/
theorem cut_off_start_uncovered :
    ¬ ∀ list, collect "A".toList "A.cpp".toList
        "A::A() \x7b\n  RegisterAsEstimable(PARAM_B, &b_)\n".toList = .ok (some list) →
      CoveredOnce (codeLines "A::A() \x7b\n  RegisterAsEstimable(PARAM_B, &b_)\n".toList) list 2 := by
  intro h
  obtain ⟨i, ⟨s, hi, -⟩, -⟩ := h [] rfl
  simp at hi

end ParameterManual.Constructor
