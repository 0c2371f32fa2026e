import ParameterManual.Proofs.Constructor.Extent
import ParameterManual.Proofs.Constructor.Stretch
import ParameterManual.Proofs.Constructor.Lowering
import ParameterManual.Proofs.Outcome
import ParameterManual.Proofs.Source.Breaking
import ParameterManual.Proofs.Statement.Starts

/-!
# The layout of a statement

A statement that stands on one line can be laid out over several, broken at
single spaces. Its text and its first line stay, the statements below move
down, and the variables are the same.
-/

set_option autoImplicit false

namespace ParameterManual.Constructor
open Source Text

/-- A whole statement: it closes its literals and its braces, of which it
never closes one that it has not opened, and holds no comment. -/
structure Whole (t : Text) : Prop where
  starts : Statement.isStart t = true
  terminated : t.endsWithChar ';' = true
  closed : Quoting.code.after t = .code
  balanced : level (nesting '\x7b' '\x7d') .code 0 t = some 0
  uncommented : opensComment .code t = false

/-- A statement broken at single spaces behind the lead that it begins with,
none of them behind a semicolon. -/
structure Spread (t : Text) (pieces : List Text) : Prop extends Broken t pieces where
  behind_lead : ∀ front back, pieces = front ++ back → front ≠ [] → back ≠ [] →
    Statement.isStart (Text.joined [' '] front) = true
  unterminated : ∀ front back, pieces = front ++ back → front ≠ [] → back ≠ [] →
    (Text.joined [' '] front).endsWithChar ';' = false

theorem Whole.ink {t : Text} (h : Whole t) : Ink t := by
  refine ⟨Statement.start_first t h.starts, ?_⟩
  have hlast : t.getLast? = some ';' := by simpa [endsWithChar] using h.terminated
  obtain ⟨r, rfl⟩ := List.getLast?_eq_some_iff.mp hlast
  exact ⟨r, ';', rfl, rfl⟩

namespace Spread

variable {t : Text} {pieces : List Text} (h : Spread t pieces) (ht : Whole t)
include h ht

theorem pieces_ne : pieces ≠ [] := by
  rintro rfl
  have hjoined := h.joined
  obtain ⟨c, r, rfl, -⟩ := ht.ink.first
  cases hjoined

theorem piece_end (front back : List Text) (piece : Text)
    (hsplit : pieces = front ++ piece :: back) :
    piece.endsWithChar ';' = back.isEmpty := by
  obtain ⟨c, r, hpiece, -⟩ := (h.piece_ink ht.ink front back piece hsplit).first
  obtain ⟨g, hg, -⟩ := joined_back front piece
  have hend := endsWithChar_last g piece ';' (by simp [hpiece])
  rw [← hg] at hend
  rw [← hend]
  cases back with
  | nil =>
    rw [← hsplit, h.joined]
    exact ht.terminated
  | cons next back =>
    exact h.unterminated (front ++ [piece]) (next :: back) (by simp [hsplit]) (by simp) (by simp)

theorem first_starts (first : Text) (rest : List Text) (hsplit : pieces = first :: rest) :
    Statement.isStart first = true := by
  have hsingle : Text.joined [' '] [first] = first := by simp [Text.joined]
  by_cases hne : rest = []
  · have hjoined := h.joined
    rw [hsplit, hne, hsingle] at hjoined
    rw [hjoined]
    exact ht.starts
  · have hbegun := h.behind_lead [first] rest hsplit (by simp) hne
    rwa [hsingle] at hbegun

theorem gather_pieces (file : Text) (number : Nat) (underWay : Option Collected) (s : Collected)
    (hs : continued file number t underWay = some s) :
    gather file underWay number pieces = ([s], none) := by
  obtain ⟨init, last, hsplit⟩ : ∃ init last, pieces = init ++ [last] :=
    ⟨_, _, (List.dropLast_concat_getLast (h.pieces_ne ht)).symm⟩
  have hinit : ∀ line ∈ init, line.endsWithChar ';' = false := by
    intro line hline
    obtain ⟨front, back, rfl⟩ := List.append_of_mem hline
    rw [h.piece_end ht front (back ++ [last]) line (by simp [hsplit])]
    simp
  have hlast : last.endsWithChar ';' = true := h.piece_end ht init [] last hsplit
  cases underWay with
  | none =>
    obtain ⟨-, rfl⟩ := continued_new file t number s hs
    obtain ⟨first, rest, hcons⟩ := List.exists_cons_of_ne_nil (h.pieces_ne ht)
    have hjoined : first ++ rest.flatMap (' ' :: ·) = t := by
      have hspaced := spaced_joined pieces (h.pieces_ne ht)
      rw [h.joined, hcons, List.flatMap_cons] at hspaced
      exact (List.cons.inj hspaced).2
    rw [hcons, gather_statement file number first rest init last (hcons.symm.trans hsplit)
      (h.first_starts ht first rest hcons) hinit hlast, hjoined]
  | some u =>
    obtain rfl := continued_more file t number u s hs
    rw [hsplit, gather_open file u number init last hinit hlast, ← hsplit,
      spaced_joined pieces (h.pieces_ne ht), h.joined]

theorem piece_code (piece : Text) (hp : piece ∈ pieces) :
    Quoting.code.after piece = .code ∧ opensComment .code piece = false := by
  have hclosed : ∀ piece ∈ pieces, Quoting.code.after piece = .code := by
    intro piece hp
    obtain ⟨front, back, hsplit⟩ := List.append_of_mem hp
    exact h.piece_closed ht.closed front back piece hsplit
  have hopens : opensComment .code (Text.joined [' '] pieces) = false := by
    rw [h.joined]
    exact ht.uncommented
  exact ⟨hclosed piece hp, pieces_uncommented pieces hclosed hopens piece hp⟩

theorem open_pieces (depth : Int) (hd : 0 < depth) : openDepth? depth pieces = some depth := by
  have hfold : pieces.foldlM (level (nesting '\x7b' '\x7d') .code) 0 = some 0 := by
    rw [← joined_level _ [' '] _ (nesting_ignores '\x7b' '\x7d') (outside_checked _ _ rfl) pieces
      (fun piece hp => (h.piece_code ht piece hp).1), h.joined]
    exact ht.balanced
  have hopen (pieces : List Text) (e e' : Nat)
      (hlevel : pieces.foldlM (level (nesting '\x7b' '\x7d') .code) e = some e') :
      openDepth? (depth + e) pieces = some (depth + e') := by
    induction pieces generalizing e with
    | nil =>
      obtain rfl : e = e' := Option.some.inj hlevel
      rfl
    | cons piece rest ih =>
      rw [List.foldlM_cons] at hlevel
      obtain ⟨next, hnext, hrest⟩ := Option.bind_eq_some_iff.mp hlevel
      have hdelta : braceDelta piece = (next : Int) - e := level_delta .code e next piece hnext
      have hafter : depth + e + braceDelta piece = depth + next := by omega
      rw [openDepth?, hafter, if_pos (by omega)]
      exact ih next hrest
  simpa using hopen pieces 0 0 hfold

end Spread

theorem Whole.spread_self {t : Text} (_ : Whole t) : Spread t [t] := by
  have hnone (front back : List Text) (hsplit : [t] = front ++ back) (hfront : front ≠ [])
      (hback : back ≠ []) : False := by
    have := congrArg List.length hsplit
    rw [List.length_append, List.length_singleton] at this
    have := List.length_pos_of_ne_nil hfront
    have := List.length_pos_of_ne_nil hback
    omega
  constructor
  · constructor
    · simp [Text.joined]
    · exact fun front back hsplit hfront hback => (hnone front back hsplit hfront hback).elim
  · exact fun front back hsplit hfront hback => (hnone front back hsplit hfront hback).elim
  · exact fun front back hsplit hfront hback => (hnone front back hsplit hfront hback).elim

/-- A line with a brace has been read since the line that names the
constructor. -/
def BodyReached (className : Text) (lines : List Text) : Prop :=
  ∃ line ∈ lines.dropWhile (fun line => !opensConstructor className line), '\x7b' ∈ line

theorem own_body_reached (className : Text) (lines : List Text) (number : Nat)
    (h : InOwnBody className lines number) : BodyReached className (lines.take (number - 1)) := by
  by_contra hnone
  apply unopened_body (siteAt className lines number) _ h
  apply lines_unopened
  · exact Or.inr ⟨.name, 0, ' ', rfl⟩
  · exact fun line hline hbrace => hnone ⟨line, hline, hbrace⟩

theorem awaiting_reached (file : Text) (number : Nat) (lines others : List Text)
    (h : entryAwaiting number lines = none) (hbrace : ∃ line ∈ lines, '\x7b' ∈ line) :
    statementsAwaitingBrace file number (lines ++ others) = .ok [] := by
  induction lines generalizing number with
  | nil => simp at hbrace
  | cons line rest ih =>
    by_cases hb : '\x7b' ∈ line
    · by_cases hd : 0 < braceDelta line
      · simp [entryAwaiting, hb, hd] at h
      · simp [statementsAwaitingBrace, hb, hd]
    · have hrest : ∃ line ∈ rest, '\x7b' ∈ line := by simpa [hb] using hbrace
      have hnext := ih (number + 1) (by simpa [entryAwaiting, hb] using h) hrest
      simpa [statementsAwaitingBrace, hb] using hnext

theorem reached_unentered (className file : Text) (lines others : List Text)
    (h : entrance? className lines = none) (hreached : BodyReached className lines) :
    statementsFrom className file 1 (lines ++ others) = .ok (some []) := by
  rw [entrance?] at h
  generalize 1 = number at h ⊢
  induction lines generalizing number with
  | nil => simp [BodyReached] at hreached
  | cons line rest ih =>
    by_cases ho : opensConstructor className line = true
    · have ha : entryAwaiting number (line :: rest) = none := by simpa [entryFrom, ho] using h
      have hbrace : ∃ l ∈ line :: rest, '\x7b' ∈ l := by
        simpa [BodyReached, List.dropWhile_cons, ho] using hreached
      have hnothing := awaiting_reached file number (line :: rest) others ha hbrace
      rw [List.cons_append] at hnothing
      rw [List.cons_append, statementsFrom, if_pos ho, hnothing]
      rfl
    · have hrest : BodyReached className rest := by
        simpa [BodyReached, List.dropWhile_cons, ho] using hreached
      rw [List.cons_append, statementsFrom, if_neg ho]
      exact ih hrest (number + 1) (by simpa [entryFrom, ho] using h)

def AwaitsStatement (className file : Text) (lines : List Text) : Prop :=
  ∃ e depth, entrance? className lines = some e ∧ openDepth? e.depth e.lines = some depth ∧
    (gather file none e.number e.lines).2 = none

/-- What a file gathers around lines that make up one statement and leave the
depth as it is. -/
theorem gather_within (file : Text) (e : Entry) (own others : List Text) (depth : Int)
    (earlier : List Collected × Option Collected) (s : Collected)
    (hopen : openDepth? e.depth e.lines = some depth)
    (hearlier : gather file none e.number e.lines = earlier)
    (hown : gather file earlier.2 (e.number + e.lines.length) own = ([s], none))
    (hlevel : openDepth? depth own = some depth) :
    gather file none e.number (bodyLines e.depth (e.lines ++ (own ++ others))) =
      (earlier.1 ++ s :: (gather file none (e.number + e.lines.length + own.length)
          (bodyLines depth others)).1,
        (gather file none (e.number + e.lines.length + own.length) (bodyLines depth others)).2) := by
  rw [(body_append _ _ _ _ hopen).1, (body_append _ _ _ _ hlevel).1,
    gather_append file none earlier.2 _ _ _ earlier.1 hearlier,
    gather_append file earlier.2 none _ _ _ [s] hown]
  simp

theorem closes_within (e : Entry) (own others : List Text) (depth : Int)
    (hopen : openDepth? e.depth e.lines = some depth) (hlevel : openDepth? depth own = some depth) :
    closes e.depth (e.lines ++ (own ++ others)) = closes depth others := by
  rw [(body_append _ _ _ _ hopen).2, (body_append _ _ _ _ hlevel).2]

structure SameBody (file : Text) (number more : Nat) (e : Entry) (lines others : List Text) :
    Prop where
  closes : closes e.depth others = closes e.depth lines
  list : (gather file none e.number (bodyLines e.depth others)).1 =
    (gather file none e.number (bodyLines e.depth lines)).1.map (Collected.lowered number more)
  underWay : (gather file none e.number (bodyLines e.depth others)).2 =
    (gather file none e.number (bodyLines e.depth lines)).2.map (Collected.lowered number more)

section bodies
variable (file t : Text) (pieces others : List Text) (e : Entry)

/-- A line of an open body completes the same as its pieces. -/
theorem spread_open (depth : Int) (ht : Whole t) (h : Spread t pieces) (hpos : 0 < e.depth)
    (hopen : openDepth? e.depth e.lines = some depth) :
    SameBody file (e.number + e.lines.length) (pieces.length - 1) e (e.lines ++ t :: others)
      (e.lines ++ (pieces ++ others)) := by
  have hd := open_pos _ _ _ hpos hopen
  have hwhole := ht.spread_self
  obtain ⟨earlier, hearlier⟩ : ∃ earlier, gather file none e.number e.lines = earlier := ⟨_, rfl⟩
  obtain ⟨hlist, hunderWay⟩ := gather_number file e.number e.lines none (by simp)
  rw [hearlier] at hlist hunderWay
  generalize hnumber : e.number + e.lines.length = number at hlist hunderWay ⊢
  obtain ⟨s, hs⟩ := continued_start file t number earlier.2 (Or.inr ht.starts)
  have hline := continued_number file t number earlier.2 hunderWay s hs
  have hsingle := gather_within file e [t] others depth earlier s hopen hearlier
    (hnumber ▸ hwhole.gather_pieces ht file number earlier.2 s hs) (hwhole.open_pieces ht depth hd)
  have hseveral := gather_within file e pieces others depth earlier s hopen hearlier
    (hnumber ▸ h.gather_pieces ht file number earlier.2 s hs) (h.open_pieces ht depth hd)
  have hcount : number + pieces.length = number + 1 + (pieces.length - 1) := by
    have := List.length_pos_of_ne_nil (h.pieces_ne ht)
    omega
  -- what stands above the line stays, what is gathered below it moves down
  have habove := list_above number (pieces.length - 1) earlier.1
    (fun u hu => Nat.le_of_lt (hlist u hu))
  have hself := collected_above number (pieces.length - 1) s (by omega)
  have hlater := gather_lowered file number (pieces.length - 1) (number + 1)
    (bodyLines depth others) none (by omega)
  rw [Option.map_none, ← hcount] at hlater
  rw [hnumber, List.length_singleton, List.singleton_append] at hsingle
  rw [hnumber, hlater] at hseveral
  constructor
  · have hcloses := closes_within e [t] others depth hopen (hwhole.open_pieces ht depth hd)
    have hcloses' := closes_within e pieces others depth hopen (h.open_pieces ht depth hd)
    exact hcloses'.trans hcloses.symm
  · rw [hseveral, hsingle]
    simp [habove, hself]
  · rw [hseveral, hsingle]

theorem spread_closed (lines : List Text) (more : Nat) (h : openDepth? e.depth e.lines = none) :
    SameBody file (e.number + e.lines.length) more e (e.lines ++ lines) (e.lines ++ others) := by
  obtain ⟨hbody, hcloses⟩ := body_closed e.depth e.lines lines h
  obtain ⟨hbody', hcloses'⟩ := body_closed e.depth e.lines others h
  obtain ⟨beyond, hfront⟩ := body_lines_front e.depth e.lines
  have hlength : (bodyLines e.depth e.lines).length ≤ e.lines.length := by
    conv => rhs; rw [hfront]
    simp
  obtain ⟨hlist, hunderWay⟩ := gather_number file e.number (bodyLines e.depth e.lines) none
    (by simp)
  constructor
  · rw [hcloses, hcloses']
  · rw [hbody, hbody', list_above]
    intro s hs
    have := hlist s hs
    omega
  · rw [hbody, hbody']
    cases hu : (gather file none e.number (bodyLines e.depth e.lines)).2 with
    | none => rfl
    | some s =>
      have := hunderWay s hu
      rw [Option.map_some, collected_above _ more s (by omega)]

end bodies

theorem sameBody_lowered (file : Text) (number more : Nat) (e : Entry) (lines others : List Text)
    (h : SameBody file number more e lines others) :
    Lowered number more (List.map (Collected.lowered number more))
      (bodyStatements file none e.depth e.number lines)
      (bodyStatements file none e.depth e.number others) := by
  rw [body_gather, body_gather, h.closes]
  have hgathered := settled_lowered number more (closes e.depth lines)
    (gather file none e.number (bodyLines e.depth lines))
  rw [← h.list, ← h.underWay] at hgathered
  exact hgathered

section code
variable (className file t : Text) (lines others pieces : List Text)

theorem entered_number (e : Entry) (he : entrance? className lines = some e) :
    e.number + e.lines.length = lines.length + 1 := by
  obtain ⟨-, front, hfront, hnumber⟩ := from_entry className [] 1 lines e he
  have hlength := congrArg List.length hfront
  rw [List.length_append] at hlength
  omega

theorem code_relaid (hbody : BodyReached className lines) (ht : Whole t) (h : Spread t pieces) :
    Lowered (lines.length + 1) (pieces.length - 1)
      (Option.map (List.map (Collected.lowered (lines.length + 1) (pieces.length - 1))))
      (statementsFrom className file 1 (lines ++ t :: others))
      (statementsFrom className file 1 (lines ++ (pieces ++ others))) := by
  cases he : entrance? className lines with
  | none =>
    rw [reached_unentered className file lines _ he hbody,
      reached_unentered className file lines _ he hbody]
    exact .ok (some [])
  | some e =>
    obtain ⟨hentry, hpos⟩ := entry_append className lines (t :: others) e he
    obtain ⟨hentry', -⟩ := entry_append className lines (pieces ++ others) e he
    rw [(from_entry className file 1 _ _ hentry).1, (from_entry className file 1 _ _ hentry').1,
      ← entered_number className lines e he]
    cases hopen : openDepth? e.depth e.lines with
    | none =>
      exact (sameBody_lowered _ _ _ e _ _ (spread_closed file _ e _ _ hopen)).some
    | some depth =>
      exact (sameBody_lowered _ _ _ e _ _
        (spread_open file t pieces others e depth ht h hpos hopen)).some

theorem awaited_collected (ht : Whole t) (h : AwaitsStatement className file lines)
    (list : List Collected)
    (hlist : statementsFrom className file 1 (lines ++ t :: others) = .ok (some list)) :
    ⟨t, ⟨file, lines.length + 1⟩⟩ ∈ list := by
  obtain ⟨e, depth, he, hopen, hnone⟩ := h
  obtain ⟨hentry, hpos⟩ := entry_append className lines (t :: others) e he
  rw [(from_entry className file 1 _ _ hentry).1, body_gather] at hlist
  obtain ⟨own, hown, hlist⟩ := map_ok hlist
  obtain rfl := Option.some.inj hlist
  have hnew : continued file (e.number + e.lines.length) t (gather file none e.number e.lines).2 =
      some ⟨t, ⟨file, e.number + e.lines.length⟩⟩ := by
    simp [hnone, continued, ht.starts]
  have hgathered := gather_within file e [t] others depth _ _ hopen rfl
    (ht.spread_self.gather_pieces ht file _ _ _ hnew)
    (ht.spread_self.open_pieces ht depth (open_pos _ _ _ hpos hopen))
  rw [List.singleton_append] at hgathered
  rw [(settled_ok _ _ own hown).1, hgathered, ← entered_number className lines e he]
  simp

end code

theorem code_within (before own after : List Text) (houtside : openComment false before = false)
    (hown : ∀ line ∈ own, Quoting.code.after line.trim = .code ∧
      opensComment .code line.trim = false) :
    codeOf false (before ++ own ++ after) =
      codeOf false before ++ (own.map Text.trim ++ codeOf false after) := by
  obtain ⟨hcode, hopen⟩ := codeOf_plain own hown
  rw [codeOf_append, codeOf_append, openComment_append, houtside, hcode, hopen, List.append_assoc]

/-- The layout of a statement plays no part: where a line of a body that holds
a statement is broken into rows at single spaces, indented in any way, the
statements are the same on the same lines, those below the line moved down by
the rows that were added, and the variables are the same. A statement that
begins on the line is collected with its text from there. -/
theorem layout_unimportant (scope : Scope) (file content broken : Text)
    (before rows after : List Text) (line : Text)
    (hcontent : content.lines = before ++ line :: after)
    (hbroken : broken.lines = before ++ rows ++ after)
    (houtside : openComment false before = false)
    (hbody : BodyReached scope.className (codeOf false before))
    (hwhole : Whole line.trim) (hspread : Spread line.trim (rows.map Text.trim)) :
    Lowered (before.length + 1) (rows.length - 1)
        (Option.map (List.map (Collected.lowered (before.length + 1) (rows.length - 1))))
        (collect scope.className file content) (collect scope.className file broken) ∧
      Lowered (before.length + 1) (rows.length - 1) id
        (extract scope file content) (extract scope file broken) ∧
      (AwaitsStatement scope.className file (codeOf false before) → ∀ list,
        collect scope.className file content = .ok (some list) →
          ⟨line.trim, ⟨file, before.length + 1⟩⟩ ∈ list) := by
  have hcode : codeLines content =
      codeOf false before ++ line.trim :: codeOf false after := by
    have hplain := code_within before [line] after houtside
      (by simpa using ⟨hwhole.closed, hwhole.uncommented⟩)
    rw [List.append_assoc, List.singleton_append, ← hcontent] at hplain
    exact hplain
  have hcode' : codeLines broken =
      codeOf false before ++ (rows.map Text.trim ++ codeOf false after) := by
    have hplain := code_within before rows after houtside
      (fun row hrow => hspread.piece_code hwhole row.trim (List.mem_map_of_mem hrow))
    rw [← hbroken] at hplain
    exact hplain
  have hcount : (rows.map Text.trim).length = rows.length := List.length_map _
  have hlength := codeOf_length false before
  have hcollected := code_relaid scope.className file line.trim (codeOf false before)
    (codeOf false after) (rows.map Text.trim) hbody hwhole hspread
  have hstands := awaited_collected scope.className file line.trim (codeOf false before)
    (codeOf false after) hwhole
  rw [hlength, hcount, ← hcode, ← hcode'] at hcollected
  rw [hlength, ← hcode] at hstands
  exact ⟨hcollected, extract_lowered _ _ scope file content broken hcollected, hstands⟩

def plainScope : Scope where
  className := "A".toList
  translations := TranslationTable.withPrefix "P".toList
  members := []
  inherited := []

def spreadStatement : Text := "RegisterAsEstimable(P, b\x7b1, ';'\x7d);".toList

def onOneLine : Text :=
  "A::A() \x7b\n".toList ++ spreadStatement ++ "\nRegisterAsEstimable(P);\n\x7d\n".toList

def onThreeLines : Text :=
  "A::A() \x7b\nRegisterAsEstimable(P,\n  b\x7b1,\n\t';'\x7d);\nRegisterAsEstimable(P);\n\x7d\n".toList

/-- Breaks before an argument and inside its braces. -/
theorem layout_unimportant_braces :
    (∃ list, collect "A".toList "A.cpp".toList onOneLine = .ok (some list) ∧
        ⟨spreadStatement, ⟨"A.cpp".toList, 2⟩⟩ ∈ list) ∧
      Lowered 2 2 (Option.map (List.map (Collected.lowered 2 2)))
        (collect "A".toList "A.cpp".toList onOneLine)
        (collect "A".toList "A.cpp".toList onThreeLines) ∧
      Lowered 2 2 id (extract plainScope "A.cpp".toList onOneLine)
        (extract plainScope "A.cpp".toList onThreeLines) := by
  have hwhole : Whole spreadStatement := by
    constructor <;> decide +kernel
  have hparts (a b c : Text) (front back : List Text) (h : [a, b, c] = front ++ back)
      (hfront : front ≠ []) (hback : back ≠ []) :
      (front = [a] ∧ back = [b, c]) ∨ (front = [a, b] ∧ back = [c]) := by
    rcases front with _ | ⟨d, _ | ⟨e, _ | ⟨f, front⟩⟩⟩ <;> simp_all
  have hspread : Spread spreadStatement
      ["RegisterAsEstimable(P,".toList, "b\x7b1,".toList, "';'\x7d);".toList] := by
    constructor
    · constructor
      · decide +kernel
      · intro front back hsplit hfront hback
        rcases hparts _ _ _ front back hsplit hfront hback with ⟨rfl, rfl⟩ | ⟨rfl, rfl⟩
        · exact ⟨by decide +kernel, by decide +kernel, by decide +kernel⟩
        · exact ⟨by decide +kernel, by decide +kernel, by decide +kernel⟩
    · intro front back hsplit hfront hback
      rcases hparts _ _ _ front back hsplit hfront hback with ⟨rfl, rfl⟩ | ⟨rfl, rfl⟩
      · decide +kernel
      · decide +kernel
    · intro front back hsplit hfront hback
      rcases hparts _ _ _ front back hsplit hfront hback with ⟨rfl, rfl⟩ | ⟨rfl, rfl⟩
      · decide +kernel
      · decide +kernel
  have hreached : BodyReached "A".toList (codeOf false ["A::A() \x7b".toList]) :=
    own_body_reached "A".toList (codeLines onOneLine) 2 (by decide +kernel)
  have hline : spreadStatement.trim = spreadStatement := by decide +kernel
  have hrows : ["RegisterAsEstimable(P,".toList, "  b\x7b1,".toList, "\t';'\x7d);".toList].map
      Text.trim = ["RegisterAsEstimable(P,".toList, "b\x7b1,".toList, "';'\x7d);".toList] := by
    decide +kernel
  obtain ⟨hcollected, hextracted, hstands⟩ := layout_unimportant plainScope "A.cpp".toList
    onOneLine onThreeLines ["A::A() \x7b".toList]
    ["RegisterAsEstimable(P,".toList, "  b\x7b1,".toList, "\t';'\x7d);".toList]
    ["RegisterAsEstimable(P);".toList, "\x7d".toList] spreadStatement (by decide +kernel)
    (by decide +kernel) (by decide +kernel) hreached (by rw [hline]; exact hwhole)
    (by rw [hline, hrows]; exact hspread)
  rw [hline] at hstands
  have hawaits : AwaitsStatement "A".toList "A.cpp".toList (codeOf false ["A::A() \x7b".toList]) :=
    ⟨⟨2, 1, []⟩, 1, by decide +kernel, by decide +kernel, by decide +kernel⟩
  exact ⟨⟨_, rfl, hstands hawaits _ rfl⟩, hcollected, hextracted⟩

end ParameterManual.Constructor
