import ParameterManual.Constructor.Extraction
import ParameterManual.Proofs.Constructor.Body
import ParameterManual.Proofs.Outcome
import ParameterManual.Proofs.Source.Stripping
import ParameterManual.Proofs.Text.Lines

/-!
# Files without their comments

The members, the statements and the variables of a file are read off its code
lines. Taking the comments out of its lines leaves the code lines, and so does
a comment that is written behind a line.
-/

set_option autoImplicit false

namespace ParameterManual

namespace MemberTable

theorem body_trailing (depth : Int) (lines : List Text) :
    bodyDeclarations depth (lines ++ [[]]) = bodyDeclarations depth lines := by
  induction lines generalizing depth with
  | nil =>
    have hnone : Member.Declaration.ofLine? [] = none := rfl
    simp [bodyDeclarations, hnone]
  | cons line rest ih => simp [bodyDeclarations, ih]

theorem awaiting_trailing (lines : List Text) :
    declarationsAwaitingBrace (lines ++ [[]]) = declarationsAwaitingBrace lines := by
  induction lines with
  | nil => rfl
  | cons line rest ih => simp [declarationsAwaitingBrace, ih, body_trailing]

theorem declarations_trailing (className : Text) (lines : List Text) :
    declarations className (lines ++ [[]]) = declarations className lines := by
  induction lines with
  | nil => rfl
  | cons line rest ih => simp [declarations, ih, body_trailing, awaiting_trailing]

end MemberTable

namespace Constructor
open Source Text

theorem statements_trailing (file : Text) (underWay : Option Collected) (depth : Int)
    (number : Nat) (lines : List Text) (hd : 0 < depth) :
    bodyStatements file underWay depth number (lines ++ [[]]) =
      bodyStatements file underWay depth number lines := by
  induction lines generalizing underWay depth number with
  | nil =>
    have hdelta : braceDelta [] = 0 := rfl
    have hnothing : (continued file number [] underWay).toList.filter Collected.isComplete = [] := by
      rw [List.filter_eq_nil_iff]
      intro s hs
      rw [continued_complete file [] number underWay s (Option.mem_toList.mp hs)]
      simp [endsWithChar]
    simp [bodyStatements, hdelta, hd, hnothing]
  | cons line rest ih =>
    by_cases hopen : 0 < depth + braceDelta line
    · simp [bodyStatements, hopen, ih _ _ _ hopen]
    · simp [bodyStatements, hopen]

theorem awaited_trailing (file : Text) (number : Nat) (lines : List Text) :
    statementsAwaitingBrace file number (lines ++ [[]]) =
      statementsAwaitingBrace file number lines := by
  induction lines generalizing number with
  | nil => rfl
  | cons line rest ih =>
    by_cases hd : 0 < braceDelta line
    · simp [statementsAwaitingBrace, hd, ih, statements_trailing file none _ _ rest hd]
    · simp [statementsAwaitingBrace, hd, ih]

theorem empty_opens (className : Text) : opensConstructor className [] = false := by
  rw [opensConstructor]
  cases className <;> rfl

theorem collected_trailing (className file : Text) (number : Nat) (lines : List Text) :
    statementsFrom className file number (lines ++ [[]]) =
      statementsFrom className file number lines := by
  induction lines generalizing number with
  | nil => simp [statementsFrom, empty_opens]
  | cons line rest ih =>
    have hawaited := awaited_trailing file number (line :: rest)
    rw [List.cons_append] at hawaited
    simp [statementsFrom, ih, hawaited]

structure SameReading (content other : Text) : Prop where
  members : ∀ className, MemberTable.scan className content = MemberTable.scan className other
  collected : ∀ className file, collect className file content = collect className file other
  extracted : ∀ scope file, extract scope file content = extract scope file other

/-- What is read from a file is read off its code lines, with an empty line
at the end or without. -/
def HasCode (content : Text) (code : List Text) : Prop :=
  code = codeLines content ∨ code = codeLines content ++ [[]]

theorem same_code (content other : Text) (code : List Text) (h : HasCode content code)
    (h' : HasCode other code) : SameReading content other := by
  have hmembers (className text : Text) (hcode : HasCode text code) :
      MemberTable.scan className text =
        MemberTable.ofDeclarations (MemberTable.declarations className code) := by
    rcases hcode with rfl | rfl
    · rfl
    · rw [MemberTable.declarations_trailing]
      rfl
  have hcollected (className file text : Text) (hcode : HasCode text code) :
      collect className file text = statementsFrom className file 1 code := by
    rcases hcode with rfl | rfl
    · rfl
    · rw [collected_trailing]
      rfl
  constructor
  · intro className
    rw [hmembers className content h, hmembers className other h']
  · intro className file
    rw [hcollected className file content h, hcollected className file other h']
  · intro scope file
    rw [extract, extract, hcollected _ file content h, hcollected _ file other h']

theorem read_codes (inBlock : Bool) (list own : List Text) (h : List.Forall₂ ReadAs list own) :
    codeOf inBlock list = codeOf inBlock own := by
  induction h generalizing inBlock with
  | nil => rfl
  | @cons line first _ _ hline _ ih =>
    have hsame : SameLine inBlock line first := by
      rcases hline with rfl | rfl
      · exact ⟨rfl, rfl⟩
      · exact line_blank inBlock first '\r' rfl
    rw [codeOf_cons, codeOf_cons, hsame.1, hsame.2, ih]

theorem written_code (lines : List Text) (content : Text) (h : Written lines content)
    (hlines : ∀ line ∈ lines, '\n' ∉ line) : HasCode content (codeOf false lines) := by
  obtain ⟨kept, hkept, hread⟩ := written_read lines content h hlines
  have hcode : codeOf false kept = codeLines content := read_codes false _ _ hread
  rcases hkept with rfl | rfl
  · exact Or.inl hcode
  · right
    have hempty (inBlock : Bool) : codeOf inBlock [[]] = [[]] := by cases inBlock <;> decide +kernel
    rw [codeOf_append, hcode, hempty]

/-- Lines without comments are read again without any. -/
theorem written_uncommented (lines : List Text) (content : Text) (h : Written lines content)
    (hlines : ∀ line ∈ lines, '\n' ∉ line)
    (hopens : ∀ line ∈ lines, opensComment .code line = false) :
    ∀ line ∈ content.lines, opensComment .code line = false := by
  obtain ⟨kept, hkept, hread⟩ := written_read lines content h hlines
  intro line hline
  obtain ⟨own, hown, hreads⟩ := forall₂_mem kept _ hread line hline
  have hmem : own ∈ lines := by
    rcases hkept with rfl | rfl
    · exact hown
    · exact List.mem_append_left _ hown
  rcases hreads with rfl | rfl
  · exact hopens own hmem
  · exact uncommented_front .code line ['\r'] (hopens _ hmem)

/-- A line of a file at which no literal and no block comment is open. -/
structure EndsInCode (before : List Text) (line : Text) : Prop where
  outside_block : (stripComments (openComment false before) line).2 = false
  outside_literal :
    Quoting.code.after (stripComments (openComment false before) line).1 = .code

theorem noted_unbroken (before after : List Text) (line note : Text)
    (h : ∀ l ∈ before ++ line :: after, '\n' ∉ l) (hnote : '\n' ∉ note) :
    ∀ l ∈ before ++ (line ++ " //".toList ++ note) :: after, '\n' ∉ l := by
  rw [List.forall_mem_append, List.forall_mem_cons] at h ⊢
  obtain ⟨hbefore, hline, hafter⟩ := h
  exact ⟨hbefore, by simp [hline, hnote], hafter⟩

theorem noted_code (before after : List Text) (line note : Text) (h : EndsInCode before line) :
    codeOf false (before ++ (line ++ " //".toList ++ note) :: after) =
      codeOf false (before ++ line :: after) := by
  have hsame := line_comment (openComment false before) line note h.outside_block
    h.outside_literal
  rw [codeOf_append, codeOf_append, codeOf_cons, codeOf_cons, hsame.1, hsame.2]

/-- Comments carry no meaning: a file whose lines are written without their
comments reads the same and has no comment left, and a file reads the same
with a line comment behind one of its lines. How the lines end plays no part. -/
theorem comments_carry_nothing (content : Text) :
    (∀ bare, Written (stripLines false content.lines) bare →
      SameReading content bare ∧ ∀ line ∈ bare.lines, opensComment .code line = false) ∧
    (∀ before line after note noted, content.lines = before ++ line :: after →
      EndsInCode before line → '\n' ∉ note →
      Written (before ++ (line ++ " //".toList ++ note) :: after) noted →
      SameReading content noted) := by
  have hself : HasCode content (codeLines content) := Or.inl rfl
  have hunbroken := lines_unbroken content
  constructor
  · intro bare hbare
    have hstripped := stripped_lines false content.lines
    have hfree := stripped_free '\n' false content.lines hunbroken
    constructor
    · have hcode := written_code _ bare hbare hfree
      rw [(codeOf_uncommented _ hstripped).1] at hcode
      exact same_code content bare (codeLines content) hself hcode
    · exact written_uncommented _ bare hbare hfree hstripped
  · intro before line after note noted hlines hends hnote hnoted
    rw [hlines] at hunbroken
    have hfree := noted_unbroken before after line note hunbroken hnote
    have hcode := written_code _ noted hnoted hfree
    rw [noted_code before after line note hends, ← hlines] at hcode
    exact same_code content noted (codeLines content) hself hcode

def commented : Text :=
  "A::A() \x7b\n  RegisterAsEstimable(PARAM_B, /* \x7b;\r\n */ &b_); // \"\n\x7d".toList

def uncommented : Text :=
  "A::A() \x7b\n  RegisterAsEstimable(PARAM_B, \n &b_); \n\x7d".toList

def commentedTwice : Text :=
  "A::A() \x7b\n  RegisterAsEstimable(PARAM_B, /* \x7b;\r\n */ &b_); // \"\n\x7d // \x7b /*".toList

theorem comments_carry_nothing_statement :
    SameReading commented uncommented ∧
      (∀ line ∈ uncommented.lines, opensComment .code line = false) ∧
      SameReading commented commentedTwice := by
  obtain ⟨hbare, hnoted⟩ := comments_carry_nothing commented
  have hlines : uncommented.lines = stripLines false commented.lines := by decide +kernel
  obtain ⟨hsame, hopens⟩ := hbare uncommented (hlines ▸ lines_written uncommented)
  refine ⟨hsame, hopens, ?_⟩
  apply hnoted (commented.lines.take 3) "\x7d".toList [] " \x7b /*".toList
  · decide +kernel
  · exact ⟨by decide +kernel, by decide +kernel⟩
  · decide +kernel
  · have hmore : commentedTwice.lines =
        commented.lines.take 3 ++ ["\x7d".toList ++ " //".toList ++ " \x7b /*".toList] := by
      decide +kernel
    exact hmore ▸ lines_written commentedTwice

end Constructor

end ParameterManual
