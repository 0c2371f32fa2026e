import ParameterManual.Constructor.Body
import ParameterManual.Proofs.Text.Spacing

/-!
# Bodies and what one line does to them

The code lines of a file enter the body of a constructor at one place or not
at all. From there on each line either belongs to a statement or to none, and
the body ends with the line on which its braces balance.
-/

set_option autoImplicit false

namespace ParameterManual.Constructor
open Source

/-- Where a body is entered: the number of its first line, the depth at which
that line begins, and the lines from there to the end of the file. -/
structure Entry where
  number : Nat
  depth : Int
  lines : List Text
  deriving DecidableEq

def entryAwaiting : (number : Nat) → List Text → Option Entry
  | _, [] => none
  | number, line :: rest =>
    if line.contains '\x7b' then
      if 0 < braceDelta line then some ⟨number + 1, braceDelta line, rest⟩ else none
    else entryAwaiting (number + 1) rest

def entryFrom (className : Text) : (number : Nat) → List Text → Option Entry
  | _, [] => none
  | number, line :: rest =>
    if opensConstructor className line then entryAwaiting number (line :: rest)
    else entryFrom className (number + 1) rest

def entrance? (className : Text) (lines : List Text) : Option Entry := entryFrom className 1 lines

def bodyLines : (depth : Int) → List Text → List Text
  | _, [] => []
  | depth, line :: rest =>
    line :: if 0 < depth + braceDelta line then bodyLines (depth + braceDelta line) rest else []

def closes : (depth : Int) → List Text → Bool
  | _, [] => false
  | depth, line :: rest =>
    if 0 < depth + braceDelta line then closes (depth + braceDelta line) rest else true

def Entry.body (e : Entry) : List Text := bodyLines e.depth e.lines

def Entry.isClosed (e : Entry) : Bool := closes e.depth e.lines

theorem body_lines_front (depth : Int) (lines : List Text) :
    ∃ beyond, lines = bodyLines depth lines ++ beyond := by
  induction lines generalizing depth with
  | nil => exact ⟨[], rfl⟩
  | cons line rest ih =>
    by_cases hd : 0 < depth + braceDelta line
    · obtain ⟨beyond, hb⟩ := ih (depth + braceDelta line)
      refine ⟨beyond, ?_⟩
      simp only [bodyLines, hd, if_true, List.cons_append]
      rw [← hb]
    · exact ⟨rest, by simp [bodyLines, hd]⟩

theorem awaiting_entry (file : Text) (number : Nat) (lines : List Text) (e : Entry)
    (h : entryAwaiting number lines = some e) :
    statementsAwaitingBrace file number lines = bodyStatements file none e.depth e.number e.lines ∧
      ∃ before, lines = before ++ e.lines ∧ e.number = number + before.length := by
  induction lines generalizing number with
  | nil => simp [entryAwaiting] at h
  | cons line rest ih =>
    by_cases hb : '\x7b' ∈ line
    · by_cases hd : 0 < braceDelta line
      · simp only [entryAwaiting, List.contains_eq_mem, hb, hd, decide_true, if_true,
          Option.some.injEq] at h
        subst h
        exact ⟨by simp [statementsAwaitingBrace, hb, hd], [line], rfl, rfl⟩
      · simp [entryAwaiting, hb, hd] at h
    · have hr : entryAwaiting (number + 1) rest = some e := by simpa [entryAwaiting, hb] using h
      obtain ⟨hs, before, hl, hn⟩ := ih (number + 1) hr
      refine ⟨by simpa [statementsAwaitingBrace, hb] using hs, line :: before, by simp [hl], ?_⟩
      simp only [List.length_cons]
      omega

theorem from_entry (className file : Text) (number : Nat) (lines : List Text) (e : Entry)
    (h : entryFrom className number lines = some e) :
    statementsFrom className file number lines =
        some <$> bodyStatements file none e.depth e.number e.lines ∧
      ∃ before, lines = before ++ e.lines ∧ e.number = number + before.length := by
  induction lines generalizing number with
  | nil => simp [entryFrom] at h
  | cons line rest ih =>
    by_cases ho : opensConstructor className line
    · have ha : entryAwaiting number (line :: rest) = some e := by simpa [entryFrom, ho] using h
      obtain ⟨hs, hb⟩ := awaiting_entry file number (line :: rest) e ha
      exact ⟨by simp [statementsFrom, ho, hs], hb⟩
    · have hr : entryFrom className (number + 1) rest = some e := by
        simpa [entryFrom, ho] using h
      obtain ⟨hs, before, hl, hn⟩ := ih (number + 1) hr
      refine ⟨by simpa [statementsFrom, ho] using hs, line :: before, by simp [hl], ?_⟩
      simp only [List.length_cons]
      omega

theorem awaiting_unentered (file : Text) (number : Nat) (lines : List Text)
    (h : entryAwaiting number lines = none) : statementsAwaitingBrace file number lines = .ok [] := by
  induction lines generalizing number with
  | nil => rfl
  | cons line rest ih =>
    by_cases hb : '\x7b' ∈ line
    · by_cases hd : 0 < braceDelta line
      · simp [entryAwaiting, hb, hd] at h
      · simp [statementsAwaitingBrace, hb, hd]
    · simpa [statementsAwaitingBrace, hb] using ih (number + 1) (by simpa [entryAwaiting, hb] using h)

theorem from_unentered (className file : Text) (number : Nat) (lines : List Text)
    (list : List Collected) (h : entryFrom className number lines = none)
    (hr : statementsFrom className file number lines = .ok (some list)) : list = [] := by
  induction lines generalizing number with
  | nil => simp [statementsFrom] at hr
  | cons line rest ih =>
    by_cases ho : opensConstructor className line
    · have ha : entryAwaiting number (line :: rest) = none := by simpa [entryFrom, ho] using h
      rw [statementsFrom, if_pos ho, awaiting_unentered file number _ ha] at hr
      exact (Option.some.inj (Except.ok.inj hr)).symm
    · exact ih (number + 1) (by simpa [entryFrom, ho] using h)
        (by simpa [statementsFrom, ho] using hr)

theorem collect_entry (className file content : Text) (e : Entry)
    (h : entrance? className (codeLines content) = some e) :
    collect className file content =
      some <$> bodyStatements file none e.depth e.number e.lines :=
  (from_entry className file 1 (codeLines content) e h).1

theorem entry_split (className : Text) (lines : List Text) (e : Entry)
    (h : entrance? className lines = some e) :
    ∃ before beyond, lines = before ++ e.body ++ beyond ∧ e.number = before.length + 1 := by
  obtain ⟨-, before, hl, hn⟩ := from_entry className [] 1 lines e h
  obtain ⟨beyond, hb⟩ := body_lines_front e.depth e.lines
  refine ⟨before, beyond, ?_, by omega⟩
  rw [List.append_assoc, Entry.body, ← hb, ← hl]

def completed (file : Text) (number : Nat) (line : Text) (underWay : Option Collected) :
    List Collected :=
  (continued file number line underWay).toList.filter Collected.isComplete

def leftOver (file : Text) (number : Nat) (line : Text) (underWay : Option Collected) :
    Option Collected :=
  (continued file number line underWay).filter (fun s => !s.isComplete)

/-- The statements that complete on the given lines, and the one that is then
under way. Depth plays no part in this. -/
def gather (file : Text) : (underWay : Option Collected) → (number : Nat) → List Text →
    List Collected × Option Collected
  | underWay, _, [] => ([], underWay)
  | underWay, number, line :: rest =>
    let later := gather file (leftOver file number line underWay) (number + 1) rest
    (completed file number line underWay ++ later.1, later.2)

theorem continued_new (file line : Text) (number : Nat) (s : Collected)
    (h : continued file number line none = some s) :
    Statement.isStart line = true ∧ s = ⟨line, ⟨file, number⟩⟩ := by
  rw [continued] at h
  split at h
  · rename_i hstart
    exact ⟨hstart, (Option.some.inj h).symm⟩
  · cases h

theorem continued_more (file line : Text) (number : Nat) (u s : Collected)
    (h : continued file number line (some u) = some s) :
    s = { u with text := u.text ++ ' ' :: line } :=
  (Option.some.inj h).symm

theorem continued_complete (file line : Text) (number : Nat) (underWay : Option Collected)
    (s : Collected) (h : continued file number line underWay = some s) :
    s.isComplete = line.endsWithChar ';' := by
  cases underWay with
  | none =>
    obtain ⟨-, rfl⟩ := continued_new file line number s h
    rfl
  | some u =>
    obtain rfl := continued_more file line number u s h
    exact Text.endsWithChar_append u.text ';' ' ' line (by decide)

section gather
variable (file line : Text) (number : Nat) (rest : List Text) (underWay : Option Collected)
  (s : Collected)

theorem gather_nothing (hc : continued file number line underWay = none) :
    gather file underWay number (line :: rest) = gather file none (number + 1) rest := by
  simp [gather, completed, leftOver, hc]

theorem gather_complete (hc : continued file number line underWay = some s)
    (hs : s.isComplete = true) :
    gather file underWay number (line :: rest) =
      (s :: (gather file none (number + 1) rest).1, (gather file none (number + 1) rest).2) := by
  simp [gather, completed, leftOver, hc, hs, Option.filter]

theorem gather_pending (hc : continued file number line underWay = some s)
    (hs : s.isComplete = false) :
    gather file underWay number (line :: rest) = gather file (some s) (number + 1) rest := by
  simp [gather, completed, leftOver, hc, hs, Option.filter]

theorem gather_cases :
    (continued file number line underWay = none ∧
      gather file underWay number (line :: rest) = gather file none (number + 1) rest) ∨
    (∃ s, continued file number line underWay = some s ∧ s.isComplete = true ∧
      gather file underWay number (line :: rest) =
        (s :: (gather file none (number + 1) rest).1, (gather file none (number + 1) rest).2)) ∨
    (∃ s, continued file number line underWay = some s ∧ s.isComplete = false ∧
      gather file underWay number (line :: rest) = gather file (some s) (number + 1) rest) := by
  cases hc : continued file number line underWay with
  | none =>
    left
    exact ⟨rfl, gather_nothing file line number rest underWay hc⟩
  | some s =>
    right
    cases hs : s.isComplete with
    | true =>
      left
      exact ⟨s, rfl, hs, gather_complete file line number rest underWay s hc hs⟩
    | false =>
      right
      exact ⟨s, rfl, hs, gather_pending file line number rest underWay s hc hs⟩

end gather

/-- What a body amounts to, given what its lines gather: only a body that
closes over an unfinished statement is refused. -/
def settled (closed : Bool) (gathered : List Collected × Option Collected) :
    Except Failure (List Collected) :=
  match closed, gathered.2 with
  | true, some s => .error (.malformed .notTerminated s.location)
  | _, _ => .ok gathered.1

theorem settled_prepend (closed : Bool) (first : List Collected)
    (gathered : List Collected × Option Collected) :
    settled closed (first ++ gathered.1, gathered.2) = (first ++ ·) <$> settled closed gathered := by
  obtain ⟨list, underWay⟩ := gathered
  cases closed <;> cases underWay <;> rfl

/-- Depth decides how far a body goes, and nothing else. -/
theorem body_gather (file : Text) (underWay : Option Collected) (depth : Int) (number : Nat)
    (lines : List Text) :
    bodyStatements file underWay depth number lines =
      settled (closes depth lines) (gather file underWay number (bodyLines depth lines)) := by
  induction lines generalizing underWay depth number with
  | nil => rfl
  | cons line rest ih =>
    by_cases hd : 0 < depth + braceDelta line
    · simp only [bodyStatements, bodyLines, closes, gather, hd, if_true, ih]
      rw [settled_prepend]
      rfl
    · simp only [bodyStatements, bodyLines, closes, gather, hd, if_false, List.append_nil]
      simp only [settled, completed, leftOver]
      cases Option.filter (fun s => !s.isComplete) (continued file number line underWay) <;> rfl

theorem collect_ok (className file content : Text) (e : Entry)
    (he : entrance? className (codeLines content) = some e) (result : Option (List Collected))
    (h : collect className file content = .ok result) :
    ∃ list, result = some list ∧
      settled e.isClosed (gather file none e.number e.body) = .ok list := by
  rw [collect_entry className file content e he, body_gather] at h
  change some <$> settled e.isClosed (gather file none e.number e.body) = .ok result at h
  generalize settled e.isClosed (gather file none e.number e.body) = gathered at h ⊢
  cases gathered with
  | error f => cases h
  | ok list => exact ⟨list, (Except.ok.inj h).symm, rfl⟩

end ParameterManual.Constructor
