import ParameterManual.Proofs.Member.Nesting
import ParameterManual.Proofs.Text.Entries

/-!
# Headers that go apart inside nested blocks

Two headers that are alike up to the line that opens the class, and go apart
only on lines that begin in a nested block or behind the class, have the same
members: those declared on the lines that begin at depth one, each with the
last of its types. A body that is opened in another layout, or that is left
on a line that opens a further brace, is not read so.
-/

set_option autoImplicit false

namespace ParameterManual.MemberTable
open Source Member

/-- Lines of two headers, read from a spot of the first one. They are the
same, except in a nested block, where a line keeps the net count of braces
and the block comment at its end, and except behind the class. -/
inductive Twins : Bool → Spot → List Text → List Text → Prop
  | nil (inBlock : Bool) (σ : Spot) : Twins inBlock σ [] []
  | same (inBlock : Bool) (σ : Spot) (line : Text) (rest others : List Text)
      (go : Twins (stripComments inBlock line).2 (σ.line (codeLine inBlock line)) rest others) :
      Twins inBlock σ (line :: rest) (line :: others)
  | nested (inBlock : Bool) (blocks : Nat) (line other : Text) (rest others : List Text)
      (count : braceDelta (codeLine inBlock line) = braceDelta (codeLine inBlock other))
      (comment : (stripComments inBlock line).2 = (stripComments inBlock other).2)
      (go : Twins (stripComments inBlock line).2
        ((Spot.body (blocks + 1)).line (codeLine inBlock line)) rest others) :
      Twins inBlock (.body (blocks + 1)) (line :: rest) (other :: others)
  | behind (inBlock : Bool) (rest others : List Text) (count : rest.length = others.length) :
      Twins inBlock .ended rest others

/-- Lines of the body with one net count, which both declare nothing or are
the same, are taken alike. -/
theorem body_alike (blocks : Nat) (line other : Text) (rest others : List Text)
    (hleft : leftForGood (.body blocks) (line :: rest) = true)
    (hcount : braceDelta line = braceDelta other) (hown : blocks = 0 → line = other)
    (hgo : ∀ next, (Spot.body blocks).line line = .body next →
      leftForGood (.body next) rest = true →
      bodyDeclarations (Spot.body next).level rest =
        bodyDeclarations (Spot.body next).level others) :
    bodyDeclarations (Spot.body blocks).level (line :: rest) =
      bodyDeclarations (Spot.body blocks).level (other :: others) := by
  have hsame : (if (Spot.body blocks).level = 1 then (Declaration.ofLine? line).toList else []) =
      if (Spot.body blocks).level = 1 then (Declaration.ofLine? other).toList else [] := by
    split
    · rename_i hone
      rw [hown (Spot.body.inj ((level_one blocks).mp hone))]
    · rfl
  rw [bodyDeclarations, bodyDeclarations, hsame, ← hcount]
  rcases body_next blocks line rest hleft with ⟨-, hclosed⟩ | ⟨next, hnext, hlevel, hrest⟩
  · rw [if_pos hclosed, if_pos hclosed]
  · rw [hlevel, if_neg (body_level next), if_neg (body_level next), hgo next hnext hrest]

theorem twins_body (inBlock : Bool) (σ : Spot) (lines others : List Text)
    (h : Twins inBlock σ lines others) (blocks : Nat) (hσ : σ = .body blocks)
    (hleft : leftForGood σ (codeOf inBlock lines) = true) :
    bodyDeclarations (Spot.body blocks).level (codeOf inBlock lines) =
      bodyDeclarations (Spot.body blocks).level (codeOf inBlock others) := by
  induction h generalizing blocks with
  | nil inBlock σ => rfl
  | same inBlock σ line rest others go ih =>
    subst hσ
    refine body_alike blocks _ _ _ _ hleft rfl (fun _ => rfl) (fun next hnext hrest => ?_)
    exact ih next hnext (hnext ▸ hrest)
  | nested inBlock inner line other rest others count comment go ih =>
    obtain rfl := Spot.body.inj hσ
    refine body_alike (inner + 1) _ _ _ _ hleft count (fun hzero => absurd hzero (by omega))
      (fun next hnext hrest => ?_)
    rw [← comment]
    exact ih next hnext (hnext ▸ hrest)
  | behind inBlock rest others count => cases hσ

theorem declared_last (found : List Declaration) (name : Text) :
    TextMap.find? name (ofDeclarations found) =
      (found.reverse.find? (fun d => d.name == name)).map Declaration.typeName := by
  rw [ofDeclarations, TextMap.ofEntries, TextMap.find?_insertAll, ← List.map_reverse]
  change Option.or _ none = _
  rw [Option.or_none]
  induction found.reverse with
  | nil => rfl
  | cons d more ih =>
    rw [List.map_cons, List.lookup_cons, List.find?_cons, BEq.comm, ih]
    cases d.name == name <;> rfl

/-- Two headers that are the same up to the line that opens the class, and
twins from there on, are scanned to one table. It holds the declarations on
the lines that begin at depth one, and of a name the last type. The class is
opened in one of two layouts, and its body is left for good. -/
theorem scan_twins (className content other : Text) (shown rest others : List Text) (blocks : Nat)
    (hlines : content.lines = shown ++ rest) (hothers : other.lines = shown ++ others)
    (hopening : Opening className (codeOf false shown) blocks)
    (hleft : leftForGood (.body blocks) (codeOf (openComment false shown) rest) = true)
    (htwins : Twins (openComment false shown) (.body blocks) rest others) :
    scan className content = scan className other ∧
      ∀ name, TextMap.find? name (scan className content) =
        ((declaredAtOne className .outside (codeLines content)).reverse.find?
          (fun d => d.name == name)).map Declaration.typeName := by
  have hcode : codeLines content = codeOf false shown ++ codeOf (openComment false shown) rest := by
    rw [← codeOf_append, ← hlines]
    rfl
  have hcodes : codeLines other = codeOf false shown ++ codeOf (openComment false shown) others := by
    rw [← codeOf_append, ← hothers]
    rfl
  constructor
  · rw [scan, scan, hcode, hcodes, hopening.declarations_body, hopening.declarations_body,
      twins_body _ _ _ _ htwins blocks rfl hleft]
  · intro name
    rw [scan, declared_last, hcode, hopening.declarations_body, hopening.declared_body,
      body_at_one className _ blocks hleft]

def nestedHeader (inside behind : Text) : Text :=
  "class A\n  : B \x7b\n  int a_;\n  struct S \x7b\n".toList ++ inside ++
    "\n  \x7d;\n  string a_;\n\x7d;\n".toList ++ behind

theorem scan_twins_nested :
    scan "A".toList (nestedHeader "int b_;".toList "int c_;".toList) =
        scan "A".toList (nestedHeader "char* d_; // \x7b".toList "/* \x7b".toList) ∧
      ∀ name, TextMap.find? name
          (scan "A".toList (nestedHeader "int b_;".toList "int c_;".toList)) =
        ([⟨"string".toList, "a_".toList⟩, ⟨"int".toList, "a_".toList⟩].find?
          (fun d : Declaration => d.name == name)).map Declaration.typeName := by
  let shown := ["class A".toList, "  : B \x7b".toList]
  let rest (inside behind : Text) : List Text :=
    ["  int a_;".toList, "  struct S \x7b".toList, inside, "  \x7d;".toList,
      "  string a_;".toList, "\x7d;".toList, behind]
  refine scan_twins "A".toList _ _ shown (rest "int b_;".toList "int c_;".toList)
    (rest "char* d_; // \x7b".toList "/* \x7b".toList) 0 (by decide) (by decide) ?_ (by decide) ?_
  · exact .later [] "class A".toList [] ": B \x7b".toList 0 ⟨by simp, rfl⟩ (by decide) (by decide)
      (by decide) (by simp) (by decide)
  · exact .same _ _ _ _ _ (.same _ _ _ _ _ (.nested _ 0 _ _ _ _ (by decide) (by decide)
      (.same _ _ _ _ _ (.same _ _ _ _ _ (.same _ _ _ _ _ (.behind _ _ _ rfl))))))

/-- A body that closes on the line that opens it is taken to go on, and the
lines behind the class count. -/
theorem scan_goes_on :
    ¬ ∀ (className content other : Text) (shown rest others : List Text),
      content.lines = shown ++ rest → other.lines = shown ++ others →
      Twins (openComment false shown)
        ((codeOf false shown).foldl (Spot.enter className) .outside) rest others →
      scan className content = scan className other := by
  intro h
  have hsame := h "A".toList "class A\n\x7b \x7d;\nint x_;\n".toList
    "class A\n\x7b \x7d;\nint y_;\n".toList ["class A".toList, "\x7b \x7d;".toList]
    ["int x_;".toList] ["int y_;".toList] (by decide) (by decide) (.behind _ _ _ rfl)
  exact absurd hsame (by decide)

end ParameterManual.MemberTable
