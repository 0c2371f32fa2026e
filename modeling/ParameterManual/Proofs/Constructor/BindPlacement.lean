import ParameterManual.Proofs.Constructor.LiteralBind
import ParameterManual.Proofs.Constructor.Recognized
import ParameterManual.Proofs.Constructor.Stretch

/-!
# Where a bind stands

Between its pieces a bind may have blanks, line ends and comments anywhere. It
is extracted if it begins its first line and ends its last, the blanks and
comments around it apart, in a body that is entered before that line. Behind
other source on its line it is no statement, and with other source behind it
it is not read.
-/

set_option autoImplicit false

namespace ParameterManual.Constructor
open Source Statement Text

/-- Around the only place of a property in a list there is no other. -/
theorem sole_around {α : Type} (P : α → Prop) (front middle back : List α)
    (hmiddle : 0 < middle.length)
    (h : ∀ i a, (front ++ (middle ++ back))[i]? = some a → P a → i = front.length) :
    (∀ a ∈ front, ¬ P a) ∧ ∀ a ∈ back, ¬ P a := by
  constructor
  · intro a hm ha
    obtain ⟨i, hi⟩ := List.mem_iff_getElem?.mp hm
    have hlt := (List.getElem?_eq_some_iff.mp hi).1
    have hplace := h i a (by rw [List.getElem?_append_left hlt, hi]) ha
    omega
  · intro a hm ha
    obtain ⟨i, hi⟩ := List.mem_iff_getElem?.mp hm
    have hplace := h (front.length + (middle.length + i)) a
      (by rw [List.getElem?_append_right (by omega), Nat.add_sub_cancel_left,
        List.getElem?_append_right (by omega), Nat.add_sub_cancel_left, hi]) ha
    omega

/-- A file around a bind: the lines above, what the first line of the bind
begins with and is read as, the pieces behind the lead with what lies between
them, what follows the semicolon on its line, and the lines below. -/
structure Surroundings where
  before : List Text
  front : Text
  code : Text
  more : List Token
  behind : Text
  after : List Text

def Surroundings.lines (s : Surroundings) : List Text :=
  s.before ++ ((s.front ++ (placed (';' :: s.behind) (.piece bindLead :: s.more)).1) ::
    (placed (';' :: s.behind) (.piece bindLead :: s.more)).2) ++ s.after

/-- Where the only statement of a body stands, a bind with some pieces. -/
structure Placement (className content : Text) (pieces : List Text) extends Surroundings where
  written : content.lines = toSurroundings.lines
  spelled : Token.pieces more = pieces
  gaps : ∀ token ∈ more, token.piece? = none → token.Sound
  reads : ReadsOn (openComment false before) front code
  idle : isStart (trim code) = false
  alone : ∀ above line below, codeLines content = above ++ line :: below →
    LeavesOpen className above → isStart line = true → above.length = before.length

namespace Placement

variable {className content : Text} {pieces : List Text} (p : Placement className content pieces)

def tail : Text := (stripCode .code p.behind).1

/-- Only blanks and comments stand before the bind on its first line. -/
def BeginsLine : Prop := isAllBlank p.code = true

/-- Only further semicolons and then blanks and comments follow the bind on
its last line. -/
def EndsLine : Prop := (trimEnd p.tail).all (· == ';') = true

def OwnLines : Prop := p.BeginsLine ∧ p.EndsLine

def stretch : Lines := placedCode (';' :: p.tail) (.piece bindLead :: p.more)

def rows : List Text := trimEnd p.stretch.1 :: p.stretch.2.map trim

def below : List Text := codeOf (stripCode .code p.behind).2 p.after

variable (h : ∀ piece ∈ pieces, LiteralBind.Inner piece)
include h

theorem tokens_sound : ∀ token ∈ Token.piece bindLead :: p.more, token.Sound := by
  refine List.forall_mem_cons.mpr ⟨?_, fun token hm => ?_⟩
  · have hsolid : Ink bindLead := ink_of_solid bindLead (by decide) (by decide)
    exact ⟨⟨hsolid, outside_checked IsInert bindLead (by decide)⟩, rfl⟩
  · cases hpiece : token.piece? with
    | none => exact p.gaps token hm hpiece
    | some t =>
      cases token with
      | piece u =>
        apply h u
        rw [← p.spelled]
        exact List.mem_filterMap.mpr ⟨_, hm, rfl⟩
      | _ => cases hpiece

theorem code_lines : codeLines content =
    codeOf false p.before ++ (trim (p.code ++ p.stretch.1) :: p.stretch.2.map trim ++ p.below) := by
  have hfirst : ∀ c ∈ (placed (';' :: p.behind) (.piece bindLead :: p.more)).1.head?,
      c ≠ '/' ∧ c ≠ '*' := by
    rintro c ⟨⟩
    decide
  have hsemi : stripCode .code (';' :: p.behind) = (';' :: p.tail, (stripCode .code p.behind).2) :=
    strip_front .code [';'] p.behind (by decide)
  obtain ⟨hcode, hopen⟩ :=
    placed_behind _ p.front p.code (';' :: p.behind) _ p.reads (p.tokens_sound h) hfirst
  rw [hsemi] at hcode hopen
  have hrows : codeOf (openComment false p.before)
      ((p.front ++ (placed (';' :: p.behind) (.piece bindLead :: p.more)).1) ::
        (placed (';' :: p.behind) (.piece bindLead :: p.more)).2) =
      trim (p.code ++ p.stretch.1) :: p.stretch.2.map trim := congrArg (List.map trim) hcode
  change codeOf false content.lines = _
  rw [p.written, Surroundings.lines, List.append_assoc, codeOf_append, codeOf_append, hopen, hrows]
  rfl

theorem rows_flowed : ∃ w, Lays w pieces ∧
    joined [' '] p.rows = bindLead ++ w ++ ';' :: trimEnd p.tail := by
  have hsound := (List.forall_mem_cons.mp (p.tokens_sound h)).2
  obtain ⟨w, hlays, hflowed⟩ := placed_flows p.tail p.more hsound
  refine ⟨w, p.spelled ▸ hlays, ?_⟩
  have hfirst := trimEnd_behind bindLead (placedCode (';' :: p.tail) p.more).1
    ⟨_, '<', (List.dropLast_concat_getLast (by decide)).symm, rfl⟩
  rw [rows, ← flowed_lines, Lines.flowed, stretch, placedCode, hfirst, List.append_assoc,
    ← Lines.flowed, hflowed, List.append_assoc]

theorem rows_unended : ∀ line ∈ p.rows.dropLast, line.endsWithChar ';' = false := by
  have hall := placed_unended (';' :: p.tail) _ (p.tokens_sound h)
  change ∀ line ∈ (p.stretch.1 :: p.stretch.2).dropLast, _ at hall
  rw [rows]
  generalize p.stretch = s at hall ⊢
  obtain ⟨first, more⟩ := s
  cases more with
  | nil => simp
  | cons second more =>
    obtain ⟨hfirst, hmore⟩ := List.forall_mem_cons.mp hall
    refine List.forall_mem_cons.mpr ⟨hfirst, fun line hline => ?_⟩
    rw [← List.map_cons, ← List.map_dropLast] at hline
    obtain ⟨own, hown, rfl⟩ := List.mem_map.mp hline
    exact (trim_ends own ';').trans (hmore own hown)

theorem rows_level (he : p.EndsLine) : ∀ line ∈ p.rows, braceDelta line = 0 := by
  have htail : ∀ c ∈ ';' :: p.tail, c = ';' ∨ isBlank c = true := by
    refine List.forall_mem_cons.mpr ⟨Or.inl rfl, fun c hc => ?_⟩
    rw [← trimEnd_split p.tail] at hc
    rcases List.mem_append.mp hc with hc | hc
    · exact Or.inl (by simpa using List.all_eq_true.mp he c hc)
    · exact Or.inr (List.mem_rtakeWhile_imp hc)
  have hbehind : Outside IsInert (';' :: p.tail) := by
    refine outside_unquoted IsInert _ (fun c hc => ?_)
    rcases htail c hc with rfl | hc
    · exact ⟨rfl, by decide⟩
    · exact ⟨blank_not_quote c hc, blank_inert c hc⟩
  have hpieces : ∀ piece ∈ Token.pieces (.piece bindLead :: p.more), Outside IsInert piece := by
    refine List.forall_mem_cons.mpr ⟨outside_checked IsInert bindLead (by decide), ?_⟩
    intro piece hp
    exact (h piece (p.spelled ▸ hp)).1.inert
  have hall := placed_outside IsInert blank_inert (';' :: p.tail) _ (p.tokens_sound h) hbehind hpieces
  obtain ⟨hfirst, hmore⟩ := List.forall_mem_cons.mp hall
  have hdelta (line : Text) (ho : Outside IsInert line) : braceDelta line = 0 :=
    delta_free .code line (fun c hc => (ho.only c hc).2)
  refine List.forall_mem_cons.mpr ⟨hdelta _ ?_, fun line hline => ?_⟩
  · -- the first line begins with the lead, so trimming takes blanks only from its end
    have htrim := outside_trim IsInert p.stretch.1 hfirst
    exact htrim
  · obtain ⟨own, hown, rfl⟩ := List.mem_map.mp hline
    exact hdelta _ (outside_trim IsInert own (hmore own hown))

omit h

theorem first_start : isStart (trimEnd p.stretch.1) = true := by
  rw [start_trimEnd]
  exact (start_iff _).mpr ⟨bindLead, by simp [leads], _, rfl⟩

theorem first_line (hb : p.BeginsLine) : trim (p.code ++ p.stretch.1) = trimEnd p.stretch.1 := by
  rw [trim, trimStart,
    drop_front isBlank p.code p.stretch.1 ((isAllBlank_iff _).mp hb) ⟨'p', _, rfl, rfl⟩]

theorem first_idle (hb : ¬ p.BeginsLine) : isStart (trim (p.code ++ p.stretch.1)) = false := by
  have hidle := p.idle
  have hne : trimStart p.code ≠ [] := fun hnil => hb <|
    (isAllBlank_iff _).mpr (List.dropWhile_eq_nil_iff.mp hnil)
  have hfront : trimStart (p.code ++ p.stretch.1) = trimStart p.code ++ p.stretch.1 := by
    rw [trimStart, List.dropWhile_append]
    exact if_neg (fun hc => hne (List.isEmpty_iff.mp hc))
  rw [trim, start_trimEnd] at hidle ⊢
  rw [hfront, ← Bool.not_eq_true]
  intro hstart
  rw [start_before_bind _ _ hne hstart] at hidle
  cases hidle

/-! ## What is collected -/

include h

theorem sole_start (e : Entry) (he : entrance? className (codeLines content) = some e) (i : Nat)
    (line : Text) (hi : e.body[i]? = some line) (hstart : isStart line = true) :
    e.number + i = p.before.length + 1 ∧ line = trim (p.code ++ p.stretch.1) ∧
      LeavesOpen className (codeOf false p.before) := by
  obtain ⟨above, others, hsplit, hnumber, hopen⟩ := body_line className _ e he i line hi
  have hposition := p.alone above line others hsplit hopen hstart
  have hlength : above.length = (codeOf false p.before).length := by
    rw [hposition, codeOf_length]
  obtain ⟨rfl, hlines⟩ := List.append_inj (hsplit.symm.trans (p.code_lines h)) hlength
  exact ⟨by omega, (List.cons.inj hlines).1, hopen⟩

theorem rows_split (hb : p.BeginsLine) :
    codeLines content = codeOf false p.before ++ (p.rows ++ p.below) := by
  rw [p.code_lines h, p.first_line hb]
  rfl

theorem rows_ends (he : p.EndsLine) :
    ∃ init last, p.rows = init ++ [last] ∧ (∀ line ∈ init, line.endsWithChar ';' = false) ∧
      last.endsWithChar ';' = true := by
  have hsplit : p.rows = p.rows.dropLast ++ [p.rows.getLast (by simp [rows])] :=
    (List.dropLast_concat_getLast _).symm
  refine ⟨_, _, hsplit, p.rows_unended h, ?_⟩
  obtain ⟨w, -, hflowed⟩ := p.rows_flowed h
  rw [hsplit] at hflowed
  rw [← joined_ends p.rows.dropLast _ ';' (by decide), hflowed, endsWithChar_last _ _ ';' (by simp)]
  rcases List.eq_nil_or_concat (trimEnd p.tail) with hnil | ⟨front, c, hlast⟩
  · rw [hnil]
    rfl
  · have hc : c = ';' := by
      have hall := List.all_eq_true.mp he c (by simp [hlast])
      simpa using hall
    rw [hlast, hc, List.concat_eq_append, ← List.cons_append, endsWithChar_last _ [';'] ';' (by simp)]
    rfl

/-- On lines of its own in a body that is open there, the bind is all that is
collected. -/
theorem collect_own (file : Text) (hown : p.OwnLines)
    (hopen : LeavesOpen className (codeOf false p.before)) :
    collect className file content =
      .ok (some [⟨joined [' '] p.rows, ⟨file, p.before.length + 1⟩⟩]) := by
  obtain ⟨hb, hend⟩ := hown
  obtain ⟨e, depth, hentrance, hdepth⟩ := hopen
  obtain ⟨hentered, hpos⟩ := entry_append className _ (p.rows ++ p.below) e hentrance
  rw [← p.rows_split h hb] at hentered
  have hlater := open_pos e.depth depth e.lines hpos hdepth
  have hlevel := open_level depth p.rows hlater (p.rows_level h hend)
  have hbody : bodyLines e.depth (e.lines ++ (p.rows ++ p.below)) =
      e.lines ++ (p.rows ++ bodyLines depth p.below) := by
    rw [(body_append e.depth depth e.lines _ hdepth).1, (body_append depth depth p.rows _ hlevel).1]
  obtain ⟨-, early, hearly, hnumber⟩ := from_entry className [] 1 _ e hentrance
  have hcount : p.before.length = early.length + e.lines.length := by
    rw [← codeOf_length false p.before, hearly, List.length_append]
  have hsole (i : Nat) (line : Text)
      (hi : (e.lines ++ (p.rows ++ bodyLines depth p.below))[i]? = some line)
      (hstart : isStart line = true) : i = e.lines.length := by
    have hfound := p.sole_start h _ hentered i line (by rw [Entry.body, hbody]; exact hi) hstart
    have hline : e.number + i = p.before.length + 1 := hfound.1
    omega
  obtain ⟨habove, hbelow⟩ := sole_around (fun line => isStart line = true) e.lines p.rows
    (bodyLines depth p.below) (by simp [rows]) hsole
  obtain ⟨init, last, hsplit, hinit, hlast⟩ := p.rows_ends h hend
  have hrows := gather_statement file (p.before.length + 1) (trimEnd p.stretch.1)
    (p.stretch.2.map trim) init last hsplit p.first_start hinit hlast
  rw [← joined_spaced] at hrows
  have hidle := gather_idle file (p.before.length + 1 + p.rows.length) _
    (fun line hm => Bool.eq_false_iff.mpr (hbelow line hm))
  have hgather : gather file none e.number (e.lines ++ (p.rows ++ bodyLines depth p.below)) =
      ([⟨joined [' '] p.rows, ⟨file, p.before.length + 1⟩⟩], none) := by
    have hn : e.number + e.lines.length = p.before.length + 1 := by omega
    rw [gather_append file none none e.number e.lines _ [] (gather_idle file e.number _
      (fun line hm => Bool.eq_false_iff.mpr (habove line hm))), hn,
      gather_append file none none _ p.rows _ _ hrows, hidle]
    rfl
  rw [collect_entry className file content _ hentered, body_gather, hbody, hgather]
  cases closes e.depth (e.lines ++ (p.rows ++ p.below)) <;> rfl

/-- Whatever is collected begins with the bind and the semicolon behind it, on
a line at which the body is open. -/
theorem collected_bind (file : Text) (list : List Collected)
    (hc : collect className file content = .ok (some list)) (s : Collected) (hs : s ∈ list) :
    p.BeginsLine ∧ LeavesOpen className (codeOf false p.before) ∧ ∃ w more, Lays w pieces ∧
      s.text = bindLead ++ w ++ ';' :: (trimEnd p.tail ++ more) := by
  obtain ⟨e, he, rfl⟩ := collect_gathered className file content list hc (List.ne_nil_of_mem hs)
  obtain ⟨u, hu, -⟩ | ⟨i, line, hi, hstart, hline⟩ :=
    gathered_start file none e.number e.body s hs
  · cases hu
  obtain ⟨hposition, rfl, hopen⟩ := p.sole_start h e he i line hi hstart
  have hb : p.BeginsLine := by
    by_contra hb
    rw [p.first_idle hb] at hstart
    cases hstart
  refine ⟨hb, hopen, ?_⟩
  obtain ⟨count, hoccupies⟩ := collected_occupies className file content _ hc s hs
  have hdrop : (codeLines content).drop (s.location.line - 1) = p.rows ++ p.below := by
    rw [p.rows_split h hb]
    exact List.drop_left' (by rw [codeOf_length]; omega)
  have htext := hoccupies.spans.text
  rw [hdrop] at htext
  -- fewer lines would end before the semicolon
  have hcount : p.rows.length ≤ count := by
    by_contra hfew
    obtain ⟨k, rfl⟩ := Nat.exists_eq_succ_of_ne_zero hoccupies.spans.count_pos.ne'
    have hk : k < p.rows.length := by omega
    rw [List.take_append_of_le_length (by omega), Nat.succ_eq_add_one,
      List.take_succ_eq_append_getElem hk] at htext
    have hmem : p.rows[k] ∈ p.rows.dropLast := by
      rw [List.dropLast_eq_take]
      exact List.mem_take_iff_getElem.mpr ⟨k, by omega, rfl⟩
    have hends := hoccupies.ends
    rw [htext, joined_ends _ _ ';' (by decide), p.rows_unended h _ hmem] at hends
    cases hends
  obtain ⟨w, hlays, hflowed⟩ := p.rows_flowed h
  refine ⟨w, (p.below.take (count - p.rows.length)).flatMap (' ' :: ·), hlays, ?_⟩
  have hjoined (more : List Text) :
      joined [' '] (p.rows ++ more) = joined [' '] p.rows ++ more.flatMap (' ' :: ·) := by
    rw [rows, List.cons_append, joined_spaced, joined_spaced, List.flatMap_append, List.append_assoc]
  rw [htext, List.take_append, List.take_of_length_le hcount, hjoined, hflowed, List.append_assoc]
  rfl

end Placement

end ParameterManual.Constructor
