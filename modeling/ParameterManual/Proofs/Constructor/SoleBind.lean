import ParameterManual.Proofs.Constructor.BindPlacement
import ParameterManual.Proofs.Member.Table

/-!
# Extraction of a bind of literals

A constructor body that holds one bind, with a description, a value and a
default written as literals, documents one variable with the three texts. The
scan goes by lines: the bind has to begin its first line, below the one that
opens the body, and to end its last.
-/

set_option autoImplicit false

namespace ParameterManual.Constructor
open Source Statement Text

section literal
variable {symbol member d e v : Text} (b : LiteralBind symbol member d e v) (hs : symbol ≠ [])
  (hsymbol : ∀ c ∈ symbol, isNameChar c = true) (hmember : ∀ c ∈ member, isNameChar c = true)
include hs hsymbol hmember

theorem parse_ended (w tail : Text) (h : Lays w b.rest) (he : (trimEnd tail).all (· == ';') = true) :
    ∃ template description value default, Spells description d ∧ Spells value e ∧
      Spells default v ∧ parse (bindLead ++ w ++ ';' :: trimEnd tail) =
        .ok (some (.bind template [symbol, '&' :: member, description, value, default] [])) := by
  obtain ⟨template, description, value, default, gap, hd, hv, hf, hgap, hparse⟩ :=
    b.parse_laid hs hsymbol hmember w h
  have hended : unended (gap ++ ';' :: trimEnd tail) = [] := by
    have htwice : trimEnd (trimEnd tail) = trimEnd tail := List.rdropWhile_idempotent isBlank tail
    exact unended_closed gap _ hgap (htwice.symm ▸ he)
  refine ⟨template, description, value, default, hd, hv, hf, ?_⟩
  rw [hparse, hended, modifiers_none]
  rfl

theorem parse_continued (w tail more : Text) (h : Lays w b.rest)
    (he : ¬ (trimEnd tail).all (· == ';') = true) :
    ∃ what, parse (bindLead ++ w ++ ';' :: (trimEnd tail ++ more)) = .error what := by
  obtain ⟨template, description, value, default, gap, -, -, -, hgap, hparse⟩ :=
    b.parse_laid hs hsymbol hmember w h
  have hne : trimEnd tail ≠ [] := by
    intro hnil
    exact he (by rw [hnil]; rfl)
  have hbehind : (trimEnd (trimEnd tail ++ more)).all (· == ';') = false := by
    rw [trimEnd_behind _ more (trimEnd_last tail hne), List.all_append, Bool.eq_false_iff.mpr he]
    rfl
  obtain ⟨rest, hrest⟩ := unended_more gap _ hbehind
  obtain ⟨what, hwhat⟩ := modifiers_refused gap rest hgap
  refine ⟨what, ?_⟩
  rw [hparse, hrest, hwhat]
  rfl

end literal

section placement
variable (scope : Scope) (file content : Text) {symbol member name typeName d e v : Text}
  (b : LiteralBind symbol member d e v) (p : Placement scope.className content b.rest)
  (hsymbol : scope.translations.isSymbol symbol = true)
include hsymbol

theorem extract_own (hname : scope.translations.get? symbol = some name)
    (hmember : ∀ c ∈ member, isNameChar c = true)
    (htype : TextMap.find? member scope.members = some typeName) (hown : p.OwnLines)
    (hopen : LeavesOpen scope.className (codeOf false p.before)) :
    extract scope file content = .ok [literalVariable symbol member name typeName d e v] := by
  obtain ⟨hs, hnames⟩ := symbol_names scope.translations symbol hsymbol
  have hinner := b.rest_inner hs hnames hmember
  obtain ⟨w, hlays, hflowed⟩ := p.rows_flowed hinner
  have hcollect := p.collect_own hinner file hown hopen
  obtain ⟨template, description, value, default, hd, he, hv, hparse⟩ :=
    parse_ended b hs hnames hmember w p.tail hlays hown.2
  rw [← hflowed] at hparse
  have hbind := bind_spelled scope ⟨file, p.before.length + 1⟩ symbol member name typeName d e v
    description value default hsymbol hname hmember htype hd he hv
  have happly : applyCollected scope [] ⟨joined [' '] p.rows, ⟨file, p.before.length + 1⟩⟩ =
      .ok [literalVariable symbol member name typeName d e v] := by
    rw [applyCollected, hparse]
    simp only [applyStatement, hbind]
    rfl
  rw [extract_collected scope file content _ hcollect, applyAll, List.foldlM_cons, happly]
  rfl

theorem extract_shared (hmember : ∀ c ∈ member, isNameChar c = true)
    (hshared : ¬ (p.OwnLines ∧ LeavesOpen scope.className (codeOf false p.before)))
    (own : List Variable) (hown : extract scope file content = .ok own) : own = [] := by
  obtain ⟨hs, hnames⟩ := symbol_names scope.translations symbol hsymbol
  have hinner := b.rest_inner hs hnames hmember
  cases hcollect : collect scope.className file content with
  | error f =>
    rw [extract, hcollect] at hown
    cases hown
  | ok found =>
    cases found with
    | none =>
      rw [extract, hcollect] at hown
      exact (Except.ok.inj hown).symm
    | some list =>
      rw [extract_collected scope file content list hcollect] at hown
      cases list with
      | nil => exact (Except.ok.inj hown).symm
      | cons s others =>
        -- what is collected shares its last line, and is not read
        obtain ⟨hbegins, hopen, w, more, hlays, htext⟩ :=
          p.collected_bind hinner file _ hcollect s (by simp)
        have hlast : ¬ p.EndsLine := fun hends => hshared ⟨⟨hbegins, hends⟩, hopen⟩
        obtain ⟨what, hwhat⟩ := parse_continued b hs hnames hmember w p.tail more hlays hlast
        rw [← htext] at hwhat
        obtain ⟨f, hf, -⟩ := unread_refused scope [] others s what hwhat
        rw [List.nil_append, hown] at hf
        cases hf

end placement

/-- A bind of literals on lines of its own, in a body that is open there,
documents one variable: its description, its value and its default are the
three texts, escaped for the manual. A bind that shares its first or its last
line with other source documents none, nor does one that stands where the scan
is in no body. -/
theorem extract_literal_bind (scope : Scope) (file content : Text)
    (symbol member name typeName d e v : Text) (b : LiteralBind symbol member d e v)
    (p : Placement scope.className content b.rest)
    (hsymbol : scope.translations.isSymbol symbol = true)
    (hname : scope.translations.get? symbol = some name)
    (hmembers : scope.members.Named)
    (htype : TextMap.find? member scope.members = some typeName) :
    (p.OwnLines → LeavesOpen scope.className (codeOf false p.before) →
      extract scope file content =
        .ok [{ Variable.plain .parameter symbol member name typeName with
          description := Markup.escape d
          value := Markup.escape e
          default := if v = [] then none else some (Markup.escape v) }]) ∧
    (¬ (p.OwnLines ∧ LeavesOpen scope.className (codeOf false p.before)) →
      ∀ own, extract scope file content = .ok own → own = []) := by
  have hmember := List.all_eq_true.mp
    (MemberTable.named_find scope.members hmembers member typeName htype)
  constructor
  · exact extract_own scope file content b p hsymbol hname hmember htype
  · exact extract_shared scope file content b p hsymbol hmember

/-- That no other line begins a statement can be read off the code lines. -/
theorem alone_checked (lines : List Text) (number : Nat)
    (h : lines.zipIdx.all (fun x => !isStart x.1 || x.2 == number) = true) :
    ∀ above line below, lines = above ++ line :: below → isStart line = true →
      above.length = number := by
  rintro above line below rfl hstart
  have hfirst := List.all_eq_true.mp h (line, above.length)
    (by simp [List.mem_zipIdx_iff_getElem?])
  simpa [hstart] using hfirst

def bindScope : Scope where
  className := "A".toList
  translations := ⟨"PARAM".toList, [("PARAM_B".toList, "b".toList)]⟩
  members := [("b_".toList, "Double".toList)]
  inherited := []

def commentedBind : Text :=
  ("A::A() \x7b\n  parameters_.Bind<Double /* by\n step */>(PARAM_B, &b_, // \"\n" ++
    " \"a, \\\"b\\\"\"\n\n \"\x7b(; \\\\\", \"/* 1\", \"\");; // \x7b\n\x7d\n").toList

def hardLiterals : LiteralBind "PARAM_B".toList "b_".toList "a, \"b\"\x7b(; \\".toList
    "/* 1".toList [] where
  template := ["Double".toList]
  description := ⟨["a, \"b\"".toList, "\x7b(; \\".toList], by decide, by decide⟩
  value := ⟨["/* 1".toList], by decide, by decide⟩
  default := ⟨[[]], by decide, by decide⟩
  template_closed := by decide
  template_words := by decide

def commentedLayout : Surroundings where
  before := ["A::A() \x7b".toList]
  front := "  ".toList
  code := "  ".toList
  more := [
    .piece "Double".toList, .blank ' ', .comment " by".toList [" step ".toList], .piece ['>'],
    .piece ['('], .piece "PARAM_B".toList, .piece [','], .blank ' ', .piece "&b_".toList,
    .piece [','], .blank ' ', .note " \"".toList, .blank ' ',
    .piece (literal "a, \"b\"".toList), .lineEnd, .lineEnd, .blank ' ',
    .piece (literal "\x7b(; \\".toList), .piece [','], .blank ' ',
    .piece (literal "/* 1".toList), .piece [','], .blank ' ', .piece (literal []), .piece [')']]
  behind := "; // \x7b".toList
  after := ["\x7d".toList]

theorem commented_written : commentedBind.lines = commentedLayout.lines := by decide +kernel

theorem commented_spelled : Token.pieces commentedLayout.more = hardLiterals.rest := by
  decide +kernel

theorem commented_gaps : ∀ token ∈ commentedLayout.more, token.piece? = none → token.Sound := by
  simp [commentedLayout, Token.piece?, Token.Sound, isBlank, occursIn, startsWith, afterLead?]

theorem commented_alone :
    (codeLines commentedBind).zipIdx.all (fun x => !isStart x.1 || x.2 == 1) = true := by
  decide +kernel

def commentedPlacement : Placement "A".toList commentedBind hardLiterals.rest where
  toSurroundings := commentedLayout
  written := commented_written
  spelled := commented_spelled
  gaps := commented_gaps
  reads := reads_plain _ (outside_checked _ _ rfl)
  idle := rfl
  alone := fun above line below hsplit _ hstart =>
    alone_checked _ 1 commented_alone above line below hsplit hstart

theorem extract_literal_bind_comments :
    commentedPlacement.OwnLines ∧
      LeavesOpen "A".toList (codeOf false commentedPlacement.before) ∧
      extract bindScope "A.cpp".toList commentedBind =
        .ok [{ Variable.plain .parameter "PARAM_B".toList "b_".toList "b".toList
            "Double".toList with
          description := "a, \"b\"\x7b(; \\".toList
          value := "/* 1".toList
          default := none }] := by
  have hmembers : MemberTable.Named [("b_".toList, "Double".toList)] := by
    intro name hn
    obtain rfl := List.mem_singleton.mp hn
    decide
  have hown : commentedPlacement.OwnLines := ⟨rfl, rfl⟩
  have hopen : LeavesOpen "A".toList (codeOf false commentedPlacement.before) :=
    ⟨⟨2, 1, []⟩, 1, rfl, rfl⟩
  exact ⟨hown, hopen, (extract_literal_bind bindScope "A.cpp".toList commentedBind _ _ "b".toList
    "Double".toList _ _ _ hardLiterals commentedPlacement rfl rfl hmembers rfl).1 hown hopen⟩

def oneLineBody : Text :=
  "A::A() \x7b parameters_.Bind<Double>(PARAM_B, &b_, \"d\", \"e\", \"v\"); \x7d\n".toList

def plainLiterals : LiteralBind "PARAM_B".toList "b_".toList "d".toList "e".toList "v".toList where
  template := ["Double".toList]
  description := ⟨["d".toList], by decide, by decide⟩
  value := ⟨["e".toList], by decide, by decide⟩
  default := ⟨["v".toList], by decide, by decide⟩
  template_closed := by decide
  template_words := by decide

def oneLineLayout : Surroundings where
  before := []
  front := "A::A() \x7b ".toList
  code := "A::A() \x7b ".toList
  more := [
    .piece "Double".toList, .piece ['>'], .piece ['('], .piece "PARAM_B".toList, .piece [','],
    .blank ' ', .piece "&b_".toList, .piece [','], .blank ' ', .piece (literal "d".toList),
    .piece [','], .blank ' ', .piece (literal "e".toList), .piece [','], .blank ' ',
    .piece (literal "v".toList), .piece [')']]
  behind := " \x7d".toList
  after := []

theorem one_line_written : oneLineBody.lines = oneLineLayout.lines := by decide +kernel

theorem one_line_spelled : Token.pieces oneLineLayout.more = plainLiterals.rest := by
  decide +kernel

theorem one_line_gaps : ∀ token ∈ oneLineLayout.more, token.piece? = none → token.Sound := by
  simp [oneLineLayout, Token.piece?, Token.Sound, isBlank]

theorem one_line_alone :
    (codeLines oneLineBody).zipIdx.all (fun x => !isStart x.1 || x.2 == 0) = true := by
  decide +kernel

def oneLinePlacement : Placement "A".toList oneLineBody plainLiterals.rest where
  toSurroundings := oneLineLayout
  written := one_line_written
  spelled := one_line_spelled
  gaps := one_line_gaps
  reads := reads_plain _ (outside_checked _ _ rfl)
  idle := rfl
  alone := fun above line below hsplit _ hstart =>
    alone_checked _ 0 one_line_alone above line below hsplit hstart

/-- Behind the brace that opens the body the bind is lost. -/
theorem one_line_body_lost :
    ¬ oneLinePlacement.BeginsLine ∧ extract bindScope "A.cpp".toList oneLineBody = .ok [] ∧
      extract bindScope "A.cpp".toList oneLineBody ≠
        .ok [literalVariable "PARAM_B".toList "b_".toList "b".toList "Double".toList
          "d".toList "e".toList "v".toList] := by
  have hnone : extract bindScope "A.cpp".toList oneLineBody = .ok [] := by decide +kernel
  have hfront : ¬ oneLinePlacement.BeginsLine := by
    simp [Placement.BeginsLine, oneLinePlacement, oneLineLayout, isAllBlank, isBlank]
  refine ⟨hfront, hnone, ?_⟩
  rw [hnone]
  simp

end ParameterManual.Constructor
